import DnsStub.Resolve.Options
import DnsStub.Message.Response
/-!
# The response cache

Responses are cached by question: the name, lowercased in ASCII, the type and the class. At most
one entry exists per key. An entry expires at a moment of the cache's clock, or never; an
expired entry counts as absent, is dropped when it is looked up and is replaced when a new
response for its key arrives. Each time an addition finds the cache holding a non-zero multiple
of 1024 entries, it first drops every expired one.

How long a response lives:
* an error response only with failures allowed and a non-zero failure duration, and then for
  that duration;
* any other response for its smallest TTL, raised to the minimum and then lowered to the
  maximum clamp, each if set. A lifetime of zero is not cached.

Times are milliseconds of the cache's clock, which the caller passes in.
-/
namespace DnsStub

/-- The key of a cached response: the lowercased labels of the name, the type and the class. -/
structure CacheKey where
  labels : List (List UInt8)
  qtype : RecordType
  qclass : RecordClass
  deriving DecidableEq

namespace CacheKey

/-- The key of a question; the name is lowercased. -/
def new (name : Name) (qtype : RecordType) (qclass : RecordClass) : CacheKey :=
  ⟨name.lowercase.labels, qtype, qclass⟩

def ofQuestion (q : Question) : CacheKey :=
  new q.qname q.qtype q.qclass

def name (k : CacheKey) : Name := ⟨k.labels⟩

end CacheKey

/-- A cached response and when it expires, if ever. -/
structure CacheEntry where
  response : Response
  expires : Option Nat

namespace CacheEntry

/-- Whether the entry has not expired at a moment. -/
def isLive (e : CacheEntry) (now : Nat) : Bool :=
  match e.expires with
  | some t => now < t
  | none => true

end CacheEntry

/-- The lifetime settings of a cache. -/
structure CachePolicy where
  minimum : Option Timeout
  maximum : Option Timeout
  /-- How long an error response lives, in milliseconds. -/
  failureDuration : Nat

namespace CachePolicy

/-- The settings taken from resolver options. -/
def ofOptions (o : ResolverOptions) : CachePolicy :=
  ⟨o.minimumCacheTimeout, o.maximumCacheTimeout, o.failedResultsCacheDuration⟩

/-- How long a response may be cached, none if not at all. -/
def lifetime (p : CachePolicy) (r : Response) (allowFailures : Bool) : Option Timeout :=
  if !r.responseCode.isSuccess then
    if !allowFailures || p.failureDuration == 0 then none else some (.finite p.failureDuration)
  else
    let ttl := Timeout.finite (r.minTtl.toNat * 1000)
    let raised := match p.minimum with
      | some lo => ttl.max lo
      | none => ttl
    let clamped := match p.maximum with
      | some hi => raised.min hi
      | none => raised
    if clamped = .finite 0 then none else some clamped

end CachePolicy

/-- Responses by question. -/
structure ResponseCache where
  policy : CachePolicy
  entries : List (CacheKey × CacheEntry)

namespace ResponseCache

/-- The growth between two sweeps of expired entries. -/
def sweepInterval : Nat := 1024

/-- An empty cache with the lifetime settings of the options. -/
def new (o : ResolverOptions) : ResponseCache :=
  ⟨CachePolicy.ofOptions o, []⟩

def find? (key : CacheKey) : List (CacheKey × CacheEntry) → Option CacheEntry
  | [] => none
  | (k, e) :: rest => if k = key then some e else find? key rest

/-- The entries without the one of a key. -/
def erase (key : CacheKey) : List (CacheKey × CacheEntry) → List (CacheKey × CacheEntry)
  | [] => []
  | (k, e) :: rest => if k = key then erase key rest else (k, e) :: erase key rest

/-- The number of entries, expired ones not dropped yet included. -/
def len (c : ResponseCache) : Nat := c.entries.length

def isEmpty (c : ResponseCache) : Bool := c.entries.isEmpty

/-- The entries after a sweep, if this addition is due one. -/
def swept (c : ResponseCache) (now : Nat) : List (CacheKey × CacheEntry) :=
  if 0 < c.len && c.len % sweepInterval == 0 then c.entries.filter (·.2.isLive now)
  else c.entries

/-- Stores a response unless no lifetime allows it or a live entry holds the key; says whether
it was stored. -/
def add (c : ResponseCache) (now : Nat) (key : CacheKey) (r : Response) (allowFailures : Bool) :
    Bool × ResponseCache :=
  match c.policy.lifetime r allowFailures with
  | none => (false, c)
  | some life =>
    let entries := c.swept now
    let entry : CacheEntry := ⟨r, life.deadline now⟩
    match find? key entries with
    | some old =>
      if old.isLive now then (false, { c with entries })
      else (true, { c with entries := (key, entry) :: erase key entries })
    | none => (true, { c with entries := (key, entry) :: entries })

/-- The live response of a key; an expired one is dropped. -/
def get (c : ResponseCache) (now : Nat) (key : CacheKey) : Option Response × ResponseCache :=
  match find? key c.entries with
  | some e =>
    if e.isLive now then (some e.response, c)
    else (none, { c with entries := erase key c.entries })
  | none => (none, c)

/-- Drops the entry of a key, giving its response. -/
def remove (c : ResponseCache) (key : CacheKey) : Option Response × ResponseCache :=
  ((find? key c.entries).map (·.response), { c with entries := erase key c.entries })

def clear (c : ResponseCache) : ResponseCache :=
  { c with entries := [] }

end ResponseCache

end DnsStub
