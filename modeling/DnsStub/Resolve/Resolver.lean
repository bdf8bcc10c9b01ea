import DnsStub.Resolve.Lookup
import DnsStub.Net.NameServer
import DnsStub.Name.Text
/-!
# Resolvers

A resolver is a list of name servers, options and a record factory. Making one checks the
options. Its lookups run on a session, which holds the resolver's cache: a session starts with
an empty cache of the resolver's settings.

Servers come from a fixed list or from a resolv.conf file. Reading the file goes through a given
reader, so a missing file is an input and output failure.

A blocking call made from within an asynchronous runtime fails at once. Made outside one, it
runs on a runtime of its own, with a token nothing cancels and a clock of its own.
-/
namespace DnsStub

/-- Reads a file: its text, or why it could not be read. -/
abbrev FileReader := String → Except IoFailure String

/-- Where a resolver's servers come from. -/
inductive ServerSource where
  | fixed (servers : List NameServer)
  /-- The "nameserver" lines of a resolv.conf file. -/
  | system (path : String)

namespace ServerSource

/-- The system's resolv.conf. -/
def systemDefault : ServerSource := .system "/etc/resolv.conf"

/-- The servers of the source. -/
def servers (read : FileReader) : ServerSource → Except IoFailure (List NameServer)
  | fixed ss => .ok ss
  | system path => (read path).map ResolvConf.parse

end ServerSource

/-- A resolver: servers, valid options and the factory that reads responses. -/
structure Resolver where
  servers : List NameServer
  options : ResolverOptions
  factory : RecordFactory

namespace Resolver

/-- A resolver, if the options are valid. -/
def withFactory (servers : List NameServer) (options : ResolverOptions) (factory : RecordFactory) :
    Except ResolveError Resolver :=
  match options.validate with
  | .error p => .error (.invalidOptions p)
  | .ok () => .ok ⟨servers, options, factory⟩

/-- A resolver reading responses with the full factory. -/
def new (servers : List NameServer) (options : ResolverOptions) : Except ResolveError Resolver :=
  withFactory servers options RecordFactory.new

/-- A resolver with the servers of a source; the servers are read before the options are
checked. -/
def fromSource (source : ServerSource) (read : FileReader) (options : ResolverOptions) :
    Except ResolveError Resolver :=
  match source.servers read with
  | .error f => .error (.io f)
  | .ok servers => new servers options

def env (r : Resolver) : LookupEnv := ⟨r.servers, r.options, r.factory⟩

/-- A session on a network with a token, at time zero with an empty cache. -/
def session (r : Resolver) (network : Script) (token : Token) : Session :=
  { cache := ResponseCache.new r.options, network, clock := 0, token }

/-- A request with the resolver's recursion and EDNS settings. -/
def request (r : Resolver) (id : UInt16) (name : Name) (qtype : RecordType) (qclass : RecordClass) :
    Request :=
  { id, question := ⟨name, qtype, qclass⟩, recursionDesired := r.options.recursionDesired,
    ednsPayloadSize := r.options.ednsPayloadSize }

def query (r : Resolver) (req : Request) : LookupM (Except ResolveError Answer) :=
  Lookup.run r.env req

/-- Looks a name given as text up, in class IN. -/
def resolve (r : Resolver) (id : UInt16) (name : String) (qtype : RecordType) :
    LookupM (Except ResolveError Answer) :=
  match Name.parse name with
  | .error e => pure (.error (.parse e))
  | .ok n => r.query (r.request id n qtype RecordClass.inet)

/-- A call that blocks: it fails within a runtime, and otherwise runs with a token nothing
cancels and a clock of its own. -/
def blocking (inRuntime : Bool) (call : LookupM (Except ResolveError Answer)) :
    LookupM (Except ResolveError Answer) :=
  if inRuntime then pure (.error .blockingInRuntime)
  else do
    let outer ← get
    set { outer with token := Token.idle }
    let result ← call
    modify fun s => { s with token := outer.token, clock := outer.clock }
    pure result

end Resolver

end DnsStub
