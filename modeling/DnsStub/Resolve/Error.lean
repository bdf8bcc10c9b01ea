import DnsStub.Message.Response
import DnsStub.Net.NameServer
import DnsStub.Resolve.Options
/-!
# Answers and lookup errors

The result of a lookup is a response and where it came from; a response from the cache has no
server. The errors are every way a lookup or the making of a resolver fails. Each has a
response code that describes it: an error response has its own code, a malformed message is a
format error, and every failure that got no response at all is a connection failure.
-/
namespace DnsStub

/-- A response together with its origin. -/
structure Answer where
  response : Response
  /-- The server that answered; none for a cached answer. -/
  server : Option NameServer
  fromCache : Bool
  deriving Inhabited

namespace Answer

/-- A response just received from a server. -/
def ofServer (response : Response) (server : NameServer) : Answer :=
  ⟨response, some server, false⟩

/-- A response taken from the cache. -/
def cached (response : Response) : Answer :=
  ⟨response, none, true⟩

/-- The full response code of the response. -/
def responseCode (a : Answer) : ResponseCode := a.response.responseCode

end Answer

/-- Input and output failures of the environment. -/
inductive IoFailure where
  /-- The server refused the connection. -/
  | refused
  /-- A file to read does not exist. -/
  | notFound
  deriving DecidableEq, Repr

namespace IoFailure

def message : IoFailure → String
  | refused => "refused"
  | notFound => "No such file or directory (os error 2)"

end IoFailure

/-- Why a lookup failed. -/
inductive ResolveError where
  | noServers
  | invalidOptions (problem : OptionsProblem)
  /-- A name or a message could not be read or written. -/
  | parse (error : WireError)
  | timeout
  | cancelled
  | io (failure : IoFailure)
  /-- A blocking call was made from within an asynchronous runtime. -/
  | blockingInRuntime
  /-- No server gave any usable response; the error of the last server, if any. -/
  | connectivity (attempts : Nat) (last : Option ResolveError)
  /-- A server answered with an error code. -/
  | errorResponse (code : ResponseCode) (answer : Answer)
  deriving Inhabited

namespace ResolveError

def message : ResolveError → String
  | noServers => "no name servers configured"
  | invalidOptions p => "invalid resolver options: " ++ p.message
  | parse e => "malformed message: " ++ e.message
  | timeout => "query timed out"
  | cancelled => "query was cancelled"
  | io f => "io error: " ++ f.message
  | blockingInRuntime => "blocking lookup inside an async runtime, use the async methods"
  | connectivity n _ => s!"no name server answered after {n} attempts"
  | errorResponse code _ => "name server answered " ++ code.display

/-- The response code describing the error. -/
def code : ResolveError → ResponseCode
  | errorResponse c _ => c
  | parse _ => ResponseCode.formatError
  | _ => .connectionFailure

def isCancelled : ResolveError → Bool
  | cancelled => true
  | _ => false

end ResolveError

end DnsStub
