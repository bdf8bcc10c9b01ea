/-!
# Resolver options

Durations are counted in milliseconds. A timeout is a duration or infinite, and timeouts are
ordered by length with the infinite one above all others; cache lifetimes are clamped in this
order.

Options are valid unless the query timeout is zero, or both cache clamps are set and the
minimum exceeds the maximum.
-/
namespace DnsStub

/-- A duration in milliseconds, or no limit. -/
inductive Timeout where
  | finite (ms : Nat)
  | infinite
  deriving DecidableEq, Repr

namespace Timeout

/-- Finite timeouts compare by length; the infinite one is the largest. -/
def atMost : Timeout → Timeout → Bool
  | finite a, finite b => a ≤ b
  | _, infinite => true
  | infinite, finite _ => false

def max (a b : Timeout) : Timeout := if a.atMost b then b else a

def min (a b : Timeout) : Timeout := if a.atMost b then a else b

/-- The moment a timeout started at a time runs out, if it does. -/
def deadline (t : Timeout) (start : Nat) : Option Nat :=
  match t with
  | finite d => some (start + d)
  | infinite => none

end Timeout

/-- Which transports a lookup uses. -/
inductive TransportMode where
  /-- UDP, and TCP again for a truncated answer. -/
  | udpWithTcpFallback
  | udpOnly
  | tcpOnly
  deriving DecidableEq, Repr

/-- The order servers are asked in. -/
inductive ServerOrder where
  | fixed
  | shuffled
  deriving DecidableEq, Repr

/-- How a resolver queries and caches. -/
structure ResolverOptions where
  /-- Attempts per server beyond the first. -/
  retries : Nat := 2
  /-- The limit on one exchange. -/
  timeout : Timeout := .finite 5000
  transport : TransportMode := .udpWithTcpFallback
  serverOrder : ServerOrder := .fixed
  /-- Ask the next server after an error response. -/
  continueOnError : Bool := true
  /-- Report an error response as an error rather than an answer. -/
  throwOnError : Bool := false
  useCache : Bool := true
  /-- Cache error responses too. -/
  cacheFailures : Bool := false
  /-- How long a cached error response lives, in milliseconds. -/
  failedResultsCacheDuration : Nat := 5000
  minimumCacheTimeout : Option Timeout := none
  maximumCacheTimeout : Option Timeout := none
  recursionDesired : Bool := true
  ednsPayloadSize : Option UInt16 := none
  deriving DecidableEq, Repr

/-- Why options are not valid. -/
inductive OptionsProblem where
  | zeroTimeout
  | cacheBoundsReversed
  deriving DecidableEq, Repr

namespace OptionsProblem

def message : OptionsProblem → String
  | zeroTimeout => "timeout must not be zero"
  | cacheBoundsReversed => "minimum cache timeout exceeds the maximum"

end OptionsProblem

namespace ResolverOptions

def default : ResolverOptions := {}

/-- Checks the timeout, then the cache clamps. -/
def validate (o : ResolverOptions) : Except OptionsProblem Unit :=
  if o.timeout = .finite 0 then .error .zeroTimeout
  else match o.minimumCacheTimeout, o.maximumCacheTimeout with
    | some lo, some hi => if lo.atMost hi then .ok () else .error .cacheBoundsReversed
    | _, _ => .ok ()

end ResolverOptions

end DnsStub
