import DnsStub.Resolve.Cache
import DnsStub.Resolve.Error
import DnsStub.Resolve.Script
import DnsStub.Message.Builder
/-!
# Lookups

A lookup asks the configured servers in turn until one answers.

* A response cached for the question is the answer at once, even an error response.
* With no servers the lookup fails.
* Every server gets up to retries + 1 attempts. A failure, a timeout or an unreadable reply
  uses up an attempt. A truncated UDP reply in fallback mode is asked for again over TCP right
  away, in the same attempt, and the server is then asked over TCP for the rest of its attempts.
* A successful response is the answer; it is cached unless it is truncated.
* An error response is kept, and the next server is asked unless the options say to stop. At
  the end the last error response kept is the outcome: it is cached if the options say so, and
  it is an error if the options say so, an answer otherwise.
* Without any response the lookup fails with the number of attempts and the last server's
  error.
* Cancellation ends the lookup at once.

Lookups run on a session: the cache, the scripted network, a virtual clock in milliseconds and
a cancellation token. Every lookup gets a token of its own, cancelled before it starts, by a
timer some time after it starts, or never. Replies take no time. An exchange first reaches the
server, then checks the token, and then has its reply; a reply that never comes is waited for
until the timeout or until the timer cancels the token, whichever is first. When both happen at
the same moment the timeout is seen first, and the cancellation at the next wait. A zero timeout
runs out without waiting. A wait with neither a timeout nor a timer never ends, and then the
lookup has no outcome.
-/
namespace DnsStub

/-- The transport of one exchange. -/
inductive Protocol where
  | udp
  | tcp
  deriving DecidableEq, Repr

/-- One exchange as the network saw it. -/
structure Exchange where
  server : NameServer
  protocol : Protocol
  request : List UInt8

/-- A cancellation token and the timer set to cancel it. -/
structure Token where
  cancelled : Bool
  /-- The moment of the virtual clock at which a timer cancels the token. -/
  alarm : Option Nat
  deriving DecidableEq, Repr

namespace Token

/-- A token nothing cancels. -/
def idle : Token := ⟨false, none⟩

/-- A token already cancelled. -/
def fired : Token := ⟨true, none⟩

/-- A token a timer cancels at a moment. -/
def timer (t : Nat) : Token := ⟨false, some t⟩

end Token

/-- When the token of a lookup is cancelled. -/
inductive Cancellation where
  | never
  /-- Before the lookup starts. -/
  | before
  /-- By a timer, this many milliseconds after the lookup starts. -/
  | after (ms : Nat)
  deriving DecidableEq, Repr

namespace Cancellation

/-- The fresh token of a lookup starting at a moment. -/
def token (c : Cancellation) (start : Nat) : Token :=
  match c with
  | never => Token.idle
  | before => Token.fired
  | after ms => Token.timer (start + ms)

end Cancellation

/-- Everything lookups read and change. -/
structure Session where
  cache : ResponseCache
  network : Script
  /-- Virtual time, in milliseconds. -/
  clock : Nat
  token : Token
  /-- The clock of the cache, which the simulated network does not move. -/
  cacheClock : Nat := 0
  /-- The exchanges made, the latest first. -/
  log : List Exchange := []

/-- A computation on a session; none if it waits forever. -/
abbrev LookupM := StateT Session Option

/-- What a lookup is run with. -/
structure LookupEnv where
  servers : List NameServer
  options : ResolverOptions
  factory : RecordFactory

namespace Lookup

/-- The live cached response of a key. -/
def cacheGet (key : CacheKey) : LookupM (Option Response) :=
  modifyGet fun s =>
    let (r, cache) := s.cache.get s.cacheClock key
    (r, { s with cache })

/-- Offers a response to the cache. -/
def cacheAdd (key : CacheKey) (r : Response) (allowFailures : Bool) : LookupM Unit :=
  modify fun s => { s with cache := (s.cache.add s.cacheClock key r allowFailures).2 }

/-- The end of a wait cut short by the timer of the token. -/
def cancelAt (n : Nat) : LookupM ResolveError :=
  modifyGet fun s => (.cancelled, { s with clock := max s.clock n, token := Token.fired })

/-- The end of a wait at the timeout. -/
def timeoutAt (d : Nat) : LookupM ResolveError :=
  modifyGet fun s => (.timeout, { s with clock := d })

/-- How the wait for a reply that never comes ends. -/
def waitOut (limit : Timeout) : LookupM ResolveError := do
  let s ← get
  match limit.deadline s.clock, s.token.alarm with
  | some d, some n => if d = s.clock then pure .timeout else if n < d then cancelAt n else timeoutAt d
  | some d, none => if d = s.clock then pure .timeout else timeoutAt d
  | none, some n => cancelAt n
  | none, none => failure

/-- The bytes of a reply, or why there are none. -/
def receive (env : LookupEnv) (request : Request) : Reply → LookupM (Except ResolveError (List UInt8))
  | .fail => pure (.error (.io .refused))
  | .hang => do return .error (← waitOut env.options.timeout)
  | .bytes bs => pure (.ok bs)
  | .template t => pure ((t.build request.id request.question).mapError .parse)

/-- One exchange: the server gets the request, then the token is checked, then the reply is
read. -/
def exchange (env : LookupEnv) (server : NameServer) (protocol : Protocol) (request : Request)
    (data : List UInt8) : LookupM (Except ResolveError Response) := do
  let s ← get
  let (reply, network) := s.network.pop server.addr
  set { s with network, log := ⟨server, protocol, data⟩ :: s.log }
  if s.token.cancelled then return .error .cancelled
  match ← receive env request reply with
  | .error e => pure (.error e)
  | .ok bs => pure ((Response.parse bs.toByteArray env.factory).mapError .parse)

/-- Whether a reply over a protocol is to be asked for again over TCP. -/
def retryOverTcp (env : LookupEnv) (protocol : Protocol) (r : Response) : Bool :=
  r.isTruncated && protocol == .udp && env.options.transport == .udpWithTcpFallback

/-- The attempts left for one server, counting attempts; the error of the last one is kept. -/
def attempt (env : LookupEnv) (server : NameServer) (request : Request) (data : List UInt8) :
    Nat → Protocol → ResolveError → Nat → LookupM (Except ResolveError Response × Nat)
  | 0, _, last, n => pure (.error last, n)
  | k + 1, protocol, _, n => do
    let first ← exchange env server protocol request data
    let (protocol, result) ← match first with
      | .ok r =>
        if retryOverTcp env protocol r then do
          let second ← exchange env server .tcp request data
          pure (Protocol.tcp, second)
        else pure (protocol, first)
      | .error _ => pure (protocol, first)
    match result with
    | .ok r => pure (.ok r, n + 1)
    | .error .cancelled => pure (.error .cancelled, n + 1)
    | .error e => attempt env server request data k protocol e (n + 1)

/-- The protocol of a server's first attempt. -/
def firstProtocol (env : LookupEnv) : Protocol :=
  if env.options.transport = .tcpOnly then .tcp else .udp

/-- The outcome of an error response: cached and reported as the options say. -/
def errorResponse (env : LookupEnv) (key : CacheKey) (a : Answer) :
    LookupM (Except ResolveError Answer) := do
  if env.options.useCache && env.options.cacheFailures then cacheAdd key a.response true
  if env.options.throwOnError then pure (.error (.errorResponse a.responseCode a))
  else pure (.ok a)

/-- Asks the servers left, counting attempts and keeping the last server error and the last
error response. -/
def askServers (env : LookupEnv) (request : Request) (key : CacheKey) (data : List UInt8) :
    List NameServer → Nat → Option ResolveError → Option Answer →
    LookupM (Except ResolveError Answer)
  | [], n, last, none => pure (.error (.connectivity n last))
  | [], _, _, some a => errorResponse env key a
  | server :: rest, n, last, kept => do
    let (result, n) ← attempt env server request data (env.options.retries + 1)
      (firstProtocol env) .timeout n
    match result with
    | .ok r =>
      let a := Answer.ofServer r server
      if r.responseCode.isSuccess then
        if env.options.useCache && !r.isTruncated then cacheAdd key r false
        pure (.ok a)
      else if env.options.continueOnError then askServers env request key data rest n last (some a)
      else errorResponse env key a
    | .error .cancelled => pure (.error .cancelled)
    | .error e => askServers env request key data rest n (some e) kept

/-- Looks a request up: in the cache, then at the servers in order. -/
def run (env : LookupEnv) (request : Request) : LookupM (Except ResolveError Answer) := do
  let key := CacheKey.ofQuestion request.question
  if env.options.useCache then
    if let some r ← cacheGet key then return .ok (Answer.cached r)
  if env.servers.isEmpty then return .error .noServers
  match request.encode with
  | .error e => pure (.error (.parse e))
  | .ok data => askServers env request key data env.servers 0 none none

end Lookup

end DnsStub
