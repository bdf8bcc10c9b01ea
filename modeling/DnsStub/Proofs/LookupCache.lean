import DnsStub.Proofs.CacheRefinement
import DnsStub.Resolve.Lookup
/-!
# What a lookup does to the cache

A lookup reads the cache once, for the key of its question, and offers it at most one response
at the end. The exchanges, the waits and the attempts leave the cache alone (`KeepsCache`), so
the cache after a lookup is the cache after its read, with the response its outcome calls for
offered to it (`storedBy`):

* a response a server gave with a success code and the TC bit clear, when the cache is used;
* the error response the lookup ends on, returned or raised, when failures are cached too.

A read drops at most the key's own entry, and only once it has expired (`Prunes`).

Main statement: `run_cache_effect`. It also says what follows for the next lookup: once an
entry is stored, a lookup of the same question, its name in any ASCII case, returns the cached
response for as long as the entry lives.
-/
namespace DnsStub

namespace ResponseCache

/-- The cache after a response, if any, is offered to it under a key. -/
def offer (c : ResponseCache) (now : Nat) (key : CacheKey) : Option (Response × Bool) →
    ResponseCache
  | none => c
  | some (r, allowFailures) => (c.add now key r allowFailures).2

/-- `c'` is `c` with some expired entries dropped: each key finds its entry of `c`, or nothing
where that entry has expired. -/
def Prunes (now : Nat) (c c' : ResponseCache) : Prop :=
  c'.policy = c.policy ∧ ∀ k, EntryAgrees (find? k c'.entries) (find? k c.entries) now

theorem Prunes.refl (now : Nat) (c : ResponseCache) : Prunes now c c :=
  ⟨rfl, fun _ => .inl rfl⟩

theorem prunes_get (c : ResponseCache) (now : Nat) (key : CacheKey) :
    Prunes now c (c.get now key).2 := by
  unfold get
  cases hf : find? key c.entries with
  | none => exact Prunes.refl now c
  | some e =>
      cases hl : e.isLive now with
      | true => simpa [hl] using Prunes.refl now c
      | false =>
          simp only [hl, Bool.false_eq_true, if_false]
          refine ⟨rfl, fun k => ?_⟩
          by_cases hk : key = k
          · subst hk
            simp only [find?_erase_self, hf]
            exact .inr ⟨rfl, e, rfl, hl⟩
          · simp only [find?_erase_of_ne (Ne.symm hk)]
            exact .inl rfl

theorem policy_get (c : ResponseCache) (now : Nat) (key : CacheKey) :
    (c.get now key).2.policy = c.policy :=
  (prunes_get c now key).1

theorem find?_get_of_dead {c : ResponseCache} {now : Nat} {key : CacheKey}
    (hd : ∀ e, find? key c.entries = some e → e.isLive now = false) :
    find? key (c.get now key).2.entries = none := by
  unfold get
  cases hf : find? key c.entries with
  | none => exact hf
  | some e => simp [hd e hf, find?_erase_self]

theorem find?_filter_eq_none {key : CacheKey} {l : List (CacheKey × CacheEntry)}
    (p : CacheKey × CacheEntry → Bool) (h : find? key l = none) : find? key (l.filter p) = none :=
  find?_eq_none_iff.2 fun hm => find?_eq_none_iff.1 h ((List.filter_sublist.map _).subset hm)

theorem find?_add_of_none {c : ResponseCache} {now : Nat} {key : CacheKey} {r : Response}
    {allow : Bool} {life : Timeout} (hf : find? key c.entries = none)
    (hlife : c.policy.lifetime r allow = some life) :
    find? key (c.add now key r allow).2.entries = some ⟨r, life.deadline now⟩ := by
  have hs : find? key (c.swept now) = none := by
    unfold swept
    split
    · exact find?_filter_eq_none _ hf
    · exact hf
  simp [add, hlife, hs, find?]

end ResponseCache

namespace Lookup

open ResponseCache

variable {α β : Type}

/-- What the cache is offered after a lookup with these options ends with this outcome: a
complete success a server gave, stored as such, or the error response the lookup ends on,
stored as a failure. -/
def storedBy (o : ResolverOptions) : Except ResolveError Answer → Option (Response × Bool)
  | .ok a =>
    if o.useCache ∧ a.fromCache = false then
      if a.responseCode.isSuccess then
        if a.response.isTruncated then none else some (a.response, false)
      else if o.cacheFailures then some (a.response, true) else none
    else none
  | .error (.errorResponse _ a) =>
    if o.useCache ∧ o.cacheFailures then some (a.response, true) else none
  | .error _ => none

/-- The cache after a lookup's read of its key. -/
def readCache (o : ResolverOptions) (now : Nat) (key : CacheKey) (c : ResponseCache) :
    ResponseCache :=
  if o.useCache then (c.get now key).2 else c

/-- A computation that leaves the cache and its clock as they were. -/
def KeepsCache (m : LookupM α) : Prop :=
  ∀ s x s', m.run s = some (x, s') → s'.cache = s.cache ∧ s'.cacheClock = s.cacheClock

theorem run_bind_eq_some {m : LookupM α} {f : α → LookupM β} {s s' : Session} {b : β}
    (h : (m >>= f).run s = some (b, s')) :
    ∃ a s₁, m.run s = some (a, s₁) ∧ (f a).run s₁ = some (b, s') := by
  rw [StateT.run_bind] at h
  obtain ⟨⟨a, s₁⟩, h₁, h₂⟩ := Option.bind_eq_some_iff.1 h
  exact ⟨a, s₁, h₁, h₂⟩

namespace KeepsCache

theorem pure (a : α) : KeepsCache (Pure.pure a : LookupM α) := by
  intro s x s' h
  cases h
  exact ⟨rfl, rfl⟩

theorem bind {m : LookupM α} {f : α → LookupM β} (hm : KeepsCache m)
    (hf : ∀ a, KeepsCache (f a)) : KeepsCache (m >>= f) := by
  intro s b s' h
  obtain ⟨a, s₁, h₁, h₂⟩ := run_bind_eq_some h
  obtain ⟨hc₁, hk₁⟩ := hm s a s₁ h₁
  obtain ⟨hc₂, hk₂⟩ := hf a s₁ b s' h₂
  exact ⟨hc₂.trans hc₁, hk₂.trans hk₁⟩

/-- A computation that first reads the session keeps the cache if it does so from the session
it read. -/
theorem get_bind {f : Session → LookupM α}
    (hf : ∀ s x s', (f s).run s = some (x, s') → s'.cache = s.cache ∧ s'.cacheClock = s.cacheClock) :
    KeepsCache (get >>= f) := by
  intro s x s' h
  exact hf s x s' h

theorem fail : KeepsCache (failure : LookupM α) := by
  intro s x s' h
  cases h

theorem ite {c : Prop} [Decidable c] {m m' : LookupM α} (hm : KeepsCache m) (hm' : KeepsCache m') :
    KeepsCache (if c then m else m') := by
  split
  · exact hm
  · exact hm'

end KeepsCache

theorem keepsCache_cancelAt (n : Nat) : KeepsCache (cancelAt n) := by
  intro s x s' h
  cases h
  exact ⟨rfl, rfl⟩

theorem keepsCache_timeoutAt (d : Nat) : KeepsCache (timeoutAt d) := by
  intro s x s' h
  cases h
  exact ⟨rfl, rfl⟩

theorem keepsCache_waitOut (limit : Timeout) : KeepsCache (waitOut limit) := by
  unfold waitOut
  refine KeepsCache.get_bind fun s x s' h => ?_
  -- each way a wait ends moves the clock or fires the token, never the cache
  revert h
  split
  · exact KeepsCache.ite (KeepsCache.pure _)
      (KeepsCache.ite (keepsCache_cancelAt _) (keepsCache_timeoutAt _)) s x s'
  · exact KeepsCache.ite (KeepsCache.pure _) (keepsCache_timeoutAt _) s x s'
  · exact keepsCache_cancelAt _ s x s'
  · exact KeepsCache.fail s x s'

theorem keepsCache_receive (env : LookupEnv) (request : Request) (reply : Reply) :
    KeepsCache (receive env request reply) := by
  cases reply with
  | fail => exact KeepsCache.pure _
  | hang => exact KeepsCache.bind (keepsCache_waitOut _) fun _ => KeepsCache.pure _
  | bytes bs => exact KeepsCache.pure _
  | template t => exact KeepsCache.pure _

theorem keepsCache_exchange (env : LookupEnv) (server : NameServer) (p : Protocol)
    (request : Request) (data : List UInt8) : KeepsCache (exchange env server p request data) := by
  unfold exchange
  refine KeepsCache.get_bind fun s x s' h => ?_
  generalize s.network.pop server.addr = q at h
  obtain ⟨reply, network⟩ := q
  obtain ⟨_, s₁, hset, h⟩ := run_bind_eq_some h
  cases hset
  revert h
  refine KeepsCache.ite (KeepsCache.pure _)
    (KeepsCache.bind (keepsCache_receive env request reply) fun r => ?_) _ x s'
  cases r <;> exact KeepsCache.pure _

theorem keepsCache_attempt (env : LookupEnv) (server : NameServer) (request : Request)
    (data : List UInt8) (k : Nat) (p : Protocol) (last : ResolveError) (n : Nat) :
    KeepsCache (attempt env server request data k p last n) := by
  induction k generalizing p last n with
  | zero => exact KeepsCache.pure _
  | succ k ih =>
      rw [attempt]
      refine KeepsCache.bind (keepsCache_exchange env server p request data) fun first => ?_
      extract_lets jp
      -- an answer or a cancellation ends the attempt, any other error goes on to the next one
      have tail : ∀ x, KeepsCache (jp x) := by
        rintro ⟨protocol, result⟩
        simp only [jp]
        split
        · exact KeepsCache.pure _
        · exact KeepsCache.pure _
        · exact ih _ _ _
      split
      · -- a truncated reply asked for again over TCP is one more exchange in the same attempt
        split
        · exact KeepsCache.bind (keepsCache_exchange env server .tcp request data) fun _ =>
            KeepsCache.bind (KeepsCache.pure _) fun _ => tail _
        · exact KeepsCache.bind (KeepsCache.pure _) fun _ => tail _
      · exact KeepsCache.bind (KeepsCache.pure _) fun _ => tail _

theorem run_cacheAdd (key : CacheKey) (r : Response) (allow : Bool) (s : Session) :
    (cacheAdd key r allow).run s =
      some ((), { s with cache := (s.cache.add s.cacheClock key r allow).2 }) := rfl

/-- An error response the lookup ends on is returned or raised, and offered to the cache when
failures are cached. -/
theorem errorResponse_cache (env : LookupEnv) (key : CacheKey) (a : Answer) {s s' : Session}
    {res : Except ResolveError Answer} (h : (errorResponse env key a).run s = some (res, s')) :
    (res = .error (.errorResponse a.responseCode a) ∨ res = .ok a) ∧
      s'.cache = s.cache.offer s.cacheClock key
        (if env.options.useCache ∧ env.options.cacheFailures then some (a.response, true)
          else none) ∧ s'.cacheClock = s.cacheClock := by
  have hend : ∀ s₁ : Session, (if env.options.throwOnError = true then
      (Pure.pure (Except.error (ResolveError.errorResponse a.responseCode a)) :
        LookupM (Except ResolveError Answer)) else Pure.pure (Except.ok a)).run s₁ =
        some (res, s') → (res = .error (.errorResponse a.responseCode a) ∨ res = .ok a) ∧ s' = s₁ := by
    intro s₁ h₁
    split at h₁
    · cases h₁
      exact ⟨.inl rfl, rfl⟩
    · cases h₁
      exact ⟨.inr rfl, rfl⟩
  unfold errorResponse at h
  dsimp only at h
  split at h
  · rename_i hc
    obtain ⟨_, s₁, h₁, h⟩ := run_bind_eq_some h
    rw [run_cacheAdd] at h₁
    cases h₁
    obtain ⟨hres, rfl⟩ := hend _ h
    simp only [Bool.and_eq_true] at hc
    exact ⟨hres, by simp [offer, hc], rfl⟩
  · rename_i hc
    obtain ⟨hres, rfl⟩ := hend _ h
    simp only [Bool.and_eq_true] at hc
    exact ⟨hres, by simp [offer, hc], rfl⟩

theorem storedBy_failure (o : ResolverOptions) {a : Answer} (hc : a.fromCache = false)
    (hs : a.responseCode.isSuccess = false) {res : Except ResolveError Answer}
    (hres : res = .error (.errorResponse a.responseCode a) ∨ res = .ok a) :
    storedBy o res = if o.useCache ∧ o.cacheFailures then some (a.response, true) else none := by
  rcases hres with rfl | rfl
  · rfl
  · cases hu : o.useCache <;> cases hf : o.cacheFailures <;> simp [storedBy, hc, hs, hu, hf]

/-- Asking the servers leaves the cache as it was, but for the one offer the outcome calls for.
The error responses kept along the way came from servers and report failure. -/
theorem askServers_cache (env : LookupEnv) (request : Request) (key : CacheKey)
    (data : List UInt8) (servers : List NameServer) (n : Nat) (last : Option ResolveError)
    (kept : Option Answer)
    (hkept : ∀ a, kept = some a → a.fromCache = false ∧ a.responseCode.isSuccess = false)
    {s s' : Session} {res : Except ResolveError Answer}
    (h : (askServers env request key data servers n last kept).run s = some (res, s')) :
    s'.cache = s.cache.offer s.cacheClock key (storedBy env.options res) ∧
      s'.cacheClock = s.cacheClock := by
  induction servers generalizing n last kept s with
  | nil =>
      cases kept with
      | none =>
          cases h
          exact ⟨rfl, rfl⟩
      | some a =>
          obtain ⟨hc, hs⟩ := hkept a rfl
          obtain ⟨hres, hcache, hclock⟩ := errorResponse_cache env key a h
          exact ⟨by rw [hcache, storedBy_failure env.options hc hs hres], hclock⟩
  | cons server rest ih =>
      rw [askServers] at h
      obtain ⟨⟨result, n'⟩, s₁, h₁, h⟩ := run_bind_eq_some h
      obtain ⟨hc₁, hk₁⟩ := keepsCache_attempt env server request data _ _ _ _ s _ s₁ h₁
      -- the rest runs from the session after the attempts, whose cache is the one before them
      suffices s'.cache = s₁.cache.offer s₁.cacheClock key (storedBy env.options res) ∧
          s'.cacheClock = s₁.cacheClock by rwa [hc₁, hk₁] at this
      dsimp only at h
      split at h
      · rename_i r
        by_cases hs : r.responseCode.isSuccess = true
        · -- a complete success is offered to the cache as such
          rw [if_pos hs] at h
          split at h
          · rename_i hadd
            obtain ⟨_, s₂, h₂, h⟩ := run_bind_eq_some h
            rw [run_cacheAdd] at h₂
            cases h₂
            cases h
            simp only [Bool.and_eq_true, Bool.not_eq_true'] at hadd
            simp [storedBy, offer, Answer.ofServer, Answer.responseCode, hs, hadd]
          · rename_i hadd
            cases h
            simp only [Bool.and_eq_true, Bool.not_eq_true', not_and, Bool.not_eq_false] at hadd
            by_cases hu : env.options.useCache = true
            · simp [storedBy, offer, Answer.ofServer, Answer.responseCode, hs, hu, hadd hu]
            · simp [storedBy, offer, hu]
        · rw [if_neg hs] at h
          have hfail : ∀ a, some (Answer.ofServer r server) = some a →
              a.fromCache = false ∧ a.responseCode.isSuccess = false := by
            rintro a ⟨⟩
            exact ⟨rfl, by simpa [Answer.ofServer, Answer.responseCode] using hs⟩
          split at h
          · exact ih _ _ _ hfail h
          · obtain ⟨hres, hcache, hclock⟩ := errorResponse_cache env key _ h
            obtain ⟨hc, hs'⟩ := hfail _ rfl
            exact ⟨by rw [hcache, storedBy_failure env.options hc hs' hres], hclock⟩
      · cases h
        exact ⟨rfl, rfl⟩
      · exact ih _ _ _ hkept h

theorem run_cacheGet (key : CacheKey) (s : Session) :
    (cacheGet key).run s =
      some ((s.cache.get s.cacheClock key).1, { s with cache := (s.cache.get s.cacheClock key).2 }) :=
  rfl

theorem run_cache (env : LookupEnv) (request : Request) {s s' : Session}
    {res : Except ResolveError Answer} (h : (run env request).run s = some (res, s')) :
    s'.cache = (readCache env.options s.cacheClock (CacheKey.ofQuestion request.question) s.cache).offer
      s.cacheClock (CacheKey.ofQuestion request.question) (storedBy env.options res) := by
  unfold run at h
  extract_lets key jp at h
  -- after a miss: no servers, a request that cannot be written, or the servers asked in turn
  have miss : ∀ s₀ : Session, (jp ()).run s₀ = some (res, s') →
      s'.cache = s₀.cache.offer s₀.cacheClock key (storedBy env.options res) := by
    intro s₀ h₀
    simp only [jp] at h₀
    split at h₀
    · cases h₀
      rfl
    · split at h₀
      · cases h₀
        rfl
      · exact (askServers_cache env request _ _ env.servers 0 none none (by simp) h₀).1
  split at h
  · rename_i hu
    obtain ⟨found, s₀, h₀, h⟩ := run_bind_eq_some h
    rw [run_cacheGet] at h₀
    cases h₀
    simp only [readCache, hu, if_true]
    split at h
    · -- a hit returns the cached response and offers nothing
      cases h
      simp [storedBy, Answer.cached, offer, key]
    · exact miss _ h
  · rename_i hu
    simp only [readCache, hu, Bool.false_eq_true, if_false]
    exact miss _ h

theorem run_of_live (env : LookupEnv) (request : Request) {s : Session} {e : CacheEntry}
    (hu : env.options.useCache = true)
    (hf : find? (CacheKey.ofQuestion request.question) s.cache.entries = some e)
    (hl : e.isLive s.cacheClock = true) :
    (run env request).run s = some (.ok (Answer.cached e.response), s) := by
  have hget : s.cache.get s.cacheClock (CacheKey.ofQuestion request.question) =
      (some e.response, s.cache) := by
    simp [ResponseCache.get, hf, hl]
  unfold run
  simp only [hu, if_true]
  rw [StateT.run_bind, run_cacheGet, hget]
  rfl

theorem useCache_of_storedBy {o : ResolverOptions} {res : Except ResolveError Answer}
    {p : Response × Bool} (h : storedBy o res = some p) : o.useCache = true := by
  unfold storedBy at h
  split at h
  · split at h
    · rename_i hu
      exact hu.1
    · cases h
  · split at h
    · rename_i hu
      exact hu.1
    · cases h
  · cases h

end Lookup

namespace CacheKey

theorem ofQuestion_eq_of_beq {q q' : Question} (h : (q' == q) = true) :
    ofQuestion q' = ofQuestion q := by
  have h' : (q'.qname.sameName q.qname && q'.qtype == q.qtype && q'.qclass == q.qclass) = true := h
  simp only [Bool.and_eq_true, beq_iff_eq] at h'
  obtain ⟨⟨hn, ht⟩, hc⟩ := h'
  simp [ofQuestion, new, Name.sameName_iff.mp hn, ht, hc]

end CacheKey

namespace Lookup

open ResponseCache

/-- A lookup changes the cache by dropping expired entries and by at most one offer, of a
complete success from a server or, when failures are cached, of the error response it ends on.
Once that offer stores an entry, a lookup of the same question, its name in any ASCII case,
returns the stored response from the cache while the entry lives. -/
theorem run_cache_effect (env : LookupEnv) (request : Request) {s s' : Session}
    {res : Except ResolveError Answer} (h : (run env request).run s = some (res, s')) :
    (∃ c, Prunes s.cacheClock s.cache c ∧
      s'.cache = c.offer s.cacheClock (CacheKey.ofQuestion request.question)
        (storedBy env.options res)) ∧
    ∀ r allow life, storedBy env.options res = some (r, allow) →
      s.cache.policy.lifetime r allow = some life →
      find? (CacheKey.ofQuestion request.question) s'.cache.entries =
          some ⟨r, life.deadline s.cacheClock⟩ ∧
      ∀ (env' : LookupEnv) (request' : Request) (s₂ : Session), env'.options.useCache = true →
        (request'.question == request.question) = true → s₂.cache = s'.cache →
        CacheEntry.isLive ⟨r, life.deadline s.cacheClock⟩ s₂.cacheClock = true →
        (run env' request').run s₂ = some (.ok (Answer.cached r), s₂) := by
  have hc := run_cache env request h
  refine ⟨⟨_, ?_, hc⟩, ?_⟩
  · unfold readCache
    split
    · exact prunes_get _ _ _
    · exact Prunes.refl _ _
  intro r allow life hst hlife
  have hu := useCache_of_storedBy hst
  -- an offer follows a read that found no live entry: a live one would have been the answer
  have hdead : ∀ e, find? (CacheKey.ofQuestion request.question) s.cache.entries = some e →
      e.isLive s.cacheClock = false := by
    intro e hf
    cases hl : e.isLive s.cacheClock with
    | false => rfl
    | true =>
        rw [run_of_live env request hu hf hl] at h
        cases h
        simp [storedBy, Answer.cached] at hst
  have hstored : find? (CacheKey.ofQuestion request.question) s'.cache.entries =
      some ⟨r, life.deadline s.cacheClock⟩ := by
    rw [hc, hst]
    simp only [readCache, hu, if_true, offer]
    exact find?_add_of_none (find?_get_of_dead hdead) (by rw [policy_get]; exact hlife)
  refine ⟨hstored, fun env' request' s₂ hu' hq hs₂ hl => ?_⟩
  have hf : find? (CacheKey.ofQuestion request'.question) s₂.cache.entries =
      some ⟨r, life.deadline s.cacheClock⟩ := by
    rw [CacheKey.ofQuestion_eq_of_beq hq, hs₂]
    exact hstored
  exact run_of_live env' request' hu' hf hl

set_option maxRecDepth 4096 in
/-- One server that answers NXDOMAIN with a bare header, with failures cached: the error
response is stored, and a later lookup of the question finds it. -/
theorem run_cache_effect_nxdomain :
    let one : NameServer := ⟨.v4 (Ipv4Address.ofOctets 192 0 2 53) 53⟩
    let options : ResolverOptions := { cacheFailures := true }
    let env : LookupEnv := ⟨[one], options, RecordFactory.new⟩
    let request : Request := ⟨7, ⟨⟨[[101, 120]]⟩, RecordType.a, RecordClass.inet⟩, true, none⟩
    let s : Session := ⟨ResponseCache.new options,
      ⟨[(one.addr, [.bytes [0, 7, 0x81, 0x83, 0, 0, 0, 0, 0, 0, 0, 0]])]⟩, 0, Token.idle, 0, []⟩
    ∃ res s', (run env request).run s = some (res, s') ∧
      (∃ c, Prunes s.cacheClock s.cache c ∧
        s'.cache = c.offer s.cacheClock (CacheKey.ofQuestion request.question)
          (storedBy env.options res)) ∧
      ∀ r allow life, storedBy env.options res = some (r, allow) →
        s.cache.policy.lifetime r allow = some life →
        find? (CacheKey.ofQuestion request.question) s'.cache.entries =
            some ⟨r, life.deadline s.cacheClock⟩ ∧
        ∀ (env' : LookupEnv) (request' : Request) (s₂ : Session), env'.options.useCache = true →
          (request'.question == request.question) = true → s₂.cache = s'.cache →
          CacheEntry.isLive ⟨r, life.deadline s.cacheClock⟩ s₂.cacheClock = true →
          (run env' request').run s₂ = some (.ok (Answer.cached r), s₂) := by
  intro one options env request s
  obtain ⟨res, s', h⟩ : ∃ res s', (run env request).run s = some (res, s') :=
    ⟨_, _, by simp only [one, options, env, request, s]; rfl⟩
  exact ⟨res, s', h, run_cache_effect env request h⟩

end Lookup

end DnsStub
