import DnsStub.Proofs.MessageCodec
import DnsStub.Proofs.LookupTime
/-!
# Cancellation of a lookup

A lookup checks its token in one place: an exchange first reaches the server and takes its
reply, then looks at the token, and only then reads the reply. A wait for a reply that never
comes ends early when the timer cancels the token. So the cancellation error starts at one
exchange and is passed up unchanged by the attempts at a server and by the walk over the
servers, each of which stops at once.

The token is never uncancelled, and an exchange ends with the cancellation error exactly when it
leaves the token cancelled (`exchange_cancelled_iff`). From this step lemma the attempts and the
walk over the servers inherit the same equivalence, and a lookup cancelled after its read of the
cache ends on the exchange that saw the cancellation (`EndsOnCancel`).

A lookup always has an outcome unless a wait can last forever (`run_returns`), and a timer
changes a lookup only by cancelling it (`race_run`, from `Proofs.LookupTime`).

Main statement: `run_cancellation_order`. A live cached response comes before the token, an
empty list of servers comes next, then cancellation: a token cancelled before the lookup lets one
exchange reach the first server, and a timer that strikes while the lookup without it would
still be waiting ends the lookup with the cancellation error, with the cache as its read left it
and no exchange after the one that saw the cancellation.
-/
namespace DnsStub

/-! ### A request can always be written -/

namespace Builder

theorem count_isOk {b : Builder} {sec : Section} {h : Header} {body : List UInt8}
    (hb : b.writer.toList = h.toBytes ++ body) (hc : h.countOf sec ≠ 0xFFFF) :
    ∃ b', b.count sec = .ok b' := by
  have hcount := Header.count_toBytes h [] sec
  rw [List.append_nil] at hcount
  unfold count
  rw [header_eq hb,hcount]
  simp [Header.nextCount?,hc]

theorem toList_ofHeader (h : Header) : (ofHeader h).writer.toList = h.toBytes := by
  rw [ofHeader,Writer.toList_writeBytes,Writer.toList_new,List.nil_append]

theorem writeRecord_opt_isOk (w : Writer) (rclass : RecordClass) (ttl : UInt32) :
    ∃ w', writeRecord w Name.root rclass ttl (.opt []) = .ok w' := by
  simp [writeRecord,RecordData.writeTo,RecordData.writeOptions,bind,Except.bind,pure,Except.pure]

end Builder

/-- A query, with or without its OPT record, is always written: each section it adds to starts
empty. -/
theorem Request.encode_isOk (r : Request) : ∃ data, r.encode = .ok data := by
  let h : Header := (Start.query r.id r.recursionDesired).header
  have h₀ : (Builder.newQuery r.id r.recursionDesired).writer.toList = h.toBytes ++ [] := by
    rw [List.append_nil]
    exact Builder.toList_ofHeader h
  obtain ⟨b,hb⟩ : ∃ b, (Builder.newQuery r.id r.recursionDesired).addQuestion (Nat.le_refl _)
      r.question.qname r.question.qtype r.question.qclass = .ok b :=
    @Builder.count_isOk _ _ h r.question.toWire (by simp [h₀]) (show (0 : UInt16) ≠ 0xFFFF by decide)
  obtain ⟨-,hbody,-,-⟩ := Builder.addQuestion_eq_ok h₀ hb
  cases ho : r.ednsPayloadSize with
  | none => exact ⟨_,by simp [Request.encode,hb,ho]; rfl⟩
  | some size =>
      -- the OPT record goes to the additional section, which the question left empty
      obtain ⟨w',hw'⟩ := Builder.writeRecord_opt_isOk b.writer ⟨size⟩ 0
      obtain ⟨-,-,hrest⟩ := Builder.writeRecord_eq_ok hw'
      obtain ⟨b',hb'⟩ : ∃ b', b.addOpt size = .ok b' := by
        unfold Builder.addOpt Builder.addRecord
        simp only [hw',bind,Except.bind]
        exact @Builder.count_isOk _ _ (h.withCount .question (h.countOf .question + 1))
          (r.question.toWire ++ (ResourceRecord.new Name.root ⟨size⟩ 0 (.opt [])).toWire)
          (by simp [hrest,hbody]) (show (0 : UInt16) ≠ 0xFFFF by decide)
      exact ⟨_,by simp only [Request.encode,hb,ho,hb',bind,Except.bind]; rfl⟩

namespace Lookup

open ResponseCache

variable {env : LookupEnv} {request : Request}

/-! ### One exchange -/

/-- A wait for a reply ends at the timer, with the token cancelled, or at the timeout, with the
token as it was. -/
theorem waitOut_cases {limit : Timeout} {s s' : Session} {e : ResolveError}
    (h : (waitOut limit).run s = some (e,s')) :
    (e = .cancelled ∧ s'.token.cancelled = true) ∨ (e = .timeout ∧ s'.token = s.token) := by
  rcases waitOut_outcomes limit s with h₀ | ⟨n,_,hn⟩ | ⟨d,_,hd⟩ | ⟨_,_,hnone⟩
  · rw [h₀] at h
    cases h
    exact .inr ⟨rfl,rfl⟩
  · rw [hn] at h
    cases h
    exact .inl ⟨rfl,rfl⟩
  · rw [hd] at h
    cases h
    exact .inr ⟨rfl,rfl⟩
  · rw [hnone] at h
    cases h

/-- A reply that comes, or fails to, leaves the token alone; the wait for one that never comes
ends with the cancellation error exactly when the timer cancels the token. -/
theorem receive_cases {reply : Reply} {s s' : Session} {x : Except ResolveError (List UInt8)}
    (h : (receive env request reply).run s = some (x,s')) :
    (x = .error .cancelled ∧ s'.token.cancelled = true) ∨
      (x ≠ .error .cancelled ∧ s'.token = s.token) := by
  cases reply with
  | fail => cases h; exact .inr ⟨by simp,rfl⟩
  | bytes bs => cases h; exact .inr ⟨by simp,rfl⟩
  | template t =>
      cases h
      refine .inr ⟨?_,rfl⟩
      cases t.build request.id request.question <;> simp [Except.mapError]
  | hang =>
      obtain ⟨e,s₁,h₁,h⟩ := run_bind_eq_some h
      cases h
      rcases waitOut_cases h₁ with ⟨rfl,hc⟩ | ⟨rfl,ht⟩
      · exact .inl ⟨rfl,hc⟩
      · exact .inr ⟨by simp,ht⟩

theorem exchange_cancelled_iff {server : NameServer} {p : Protocol} {data : List UInt8}
    {s s' : Session} {x : Except ResolveError Response}
    (h : (exchange env server p request data).run s = some (x,s')) :
    x = .error .cancelled ↔ s'.token.cancelled = true := by
  cases hc : s.token.cancelled with
  | true =>
      rw [exchange_of_cancelled hc] at h
      cases h
      exact ⟨fun _ => hc,fun _ => rfl⟩
  | false =>
      unfold exchange at h
      obtain ⟨_,_,hget,h⟩ := run_bind_eq_some h
      cases hget
      generalize s.network.pop server.addr = q at h
      obtain ⟨reply,network⟩ := q
      obtain ⟨_,s₁,hset,h⟩ := run_bind_eq_some h
      cases hset
      simp only [hc,Bool.false_eq_true,if_false] at h
      obtain ⟨y,s₂,h₂,h⟩ := run_bind_eq_some h
      rcases receive_cases h₂ with ⟨rfl,hc₂⟩ | ⟨hne,ht⟩
      · cases h
        exact ⟨fun _ => hc₂,fun _ => rfl⟩
      · -- the token is the one the exchange started with, which is live
        have hs₂ : s₂.token.cancelled = false := by rw [ht]; exact hc
        cases y with
        | error e =>
            cases h
            simp only [hs₂,Bool.false_eq_true,iff_false]
            rintro ⟨⟩
            exact hne rfl
        | ok bs =>
            cases h
            cases Response.parse bs.toByteArray env.factory <;> simp [Except.mapError,hs₂]

/-! ### Attempts and servers -/

/-- `s'` is the session left by an exchange that saw the token cancelled, and that exchange was
the first since `s` to start with a cancelled token: if the token was cancelled when it started,
it started from `s` itself. -/
def EndsOnCancel (env : LookupEnv) (request : Request) (data : List UInt8) (s s' : Session) :
    Prop :=
  ∃ s₁ server p, (exchange env server p request data).run s₁ = some (.error .cancelled,s') ∧
    (s₁.token.cancelled = true → s₁ = s)

theorem EndsOnCancel.here {data : List UInt8} {s s' : Session} {server : NameServer}
    {p : Protocol} (h : (exchange env server p request data).run s = some (.error .cancelled,s')) :
    EndsOnCancel env request data s s' :=
  ⟨s,server,p,h,fun _ => rfl⟩

/-- A cancellation first seen after a session whose token was live was first seen after every
earlier session too. -/
theorem EndsOnCancel.of_live {data : List UInt8} {s s₁ s' : Session}
    (h : EndsOnCancel env request data s₁ s') (hl : s₁.token.cancelled = false) :
    EndsOnCancel env request data s s' := by
  obtain ⟨s₀,server,p,h₀,hs₀⟩ := h
  refine ⟨s₀,server,p,h₀,fun hc => ?_⟩
  rw [hs₀ hc,hl] at hc
  cases hc

/-- The attempts at a server end with the cancellation error exactly when they leave the token
cancelled, and then they end on the exchange that saw it. The attempts are entered with one left
or with a live token, and the error they keep is never the cancellation. -/
theorem attempt_cancel {server : NameServer} {data : List UInt8} {k : Nat} {p : Protocol}
    {last : ResolveError} {n : Nat} {s s' : Session} {x : Except ResolveError Response × Nat}
    (h : (attempt env server request data k p last n).run s = some (x,s'))
    (hk : 0 < k ∨ s.token.cancelled = false) (hl : last ≠ .cancelled) :
    (x.1 = .error .cancelled ↔ s'.token.cancelled = true) ∧
      (x.1 = .error .cancelled → EndsOnCancel env request data s s') := by
  induction k generalizing p last n s with
  | zero =>
      cases h
      have hc : s'.token.cancelled = false := hk.resolve_left (Nat.lt_irrefl 0)
      have hne : (Except.error last : Except ResolveError Response) ≠ .error .cancelled := by
        rintro ⟨⟩
        exact hl rfl
      simp only [hc,Bool.false_eq_true,iff_false]
      exact ⟨hne,fun he => absurd he hne⟩
  | succ k ih =>
      rw [attempt] at h
      obtain ⟨first,s₁,h₁,h⟩ := run_bind_eq_some h
      extract_lets jp at h
      -- after the exchanges of this attempt an answer or a cancellation ends the attempts; any
      -- other error goes on to the next attempt, from a session whose token is live
      have tail : ∀ q s₂, (jp q).run s₂ = some (x,s') →
          (q.2 = .error .cancelled ↔ s₂.token.cancelled = true) →
          (q.2 = .error .cancelled → EndsOnCancel env request data s s₂) →
          (x.1 = .error .cancelled ↔ s'.token.cancelled = true) ∧
            (x.1 = .error .cancelled → EndsOnCancel env request data s s') := by
        rintro ⟨protocol,result⟩ s₂ hj hiff hend
        simp only [jp] at hj
        split at hj
        · cases hj
          exact ⟨hiff,hend⟩
        · cases hj
          exact ⟨hiff,hend⟩
        · rename_i e he
          have hlive : s₂.token.cancelled = false :=
            Bool.eq_false_iff.2 fun hc => he (by simpa using hiff.2 hc)
          obtain ⟨hiff',hend'⟩ := ih hj (.inr hlive) he
          exact ⟨hiff',fun hx => (hend' hx).of_live hlive⟩
      have hiff₁ := exchange_cancelled_iff h₁
      split at h
      · rename_i r
        have hlive₁ : s₁.token.cancelled = false := by
          cases hc : s₁.token.cancelled with
          | false => rfl
          | true => cases hiff₁.2 hc
        split at h
        · -- a truncated reply over UDP is asked for again over TCP within the attempt
          obtain ⟨second,s₂,h₂,h⟩ := run_bind_eq_some h
          obtain ⟨_,s₃,h₃,h⟩ := run_bind_eq_some h
          cases h₃
          refine tail (.tcp,second) s₂ h (exchange_cancelled_iff h₂) fun hx => ?_
          rw [show second = .error .cancelled from hx] at h₂
          exact (EndsOnCancel.here h₂).of_live hlive₁
        · obtain ⟨_,s₃,h₃,h⟩ := run_bind_eq_some h
          cases h₃
          exact tail (p,.ok r) s₁ h hiff₁ (fun hx => by cases hx)
      · rename_i e
        obtain ⟨_,s₃,h₃,h⟩ := run_bind_eq_some h
        cases h₃
        refine tail (p,.error e) s₁ h hiff₁ fun hx => ?_
        rw [show e = .cancelled by simpa using hx] at h₁
        exact EndsOnCancel.here h₁

theorem attempt_of_cancelled {server : NameServer} {data : List UInt8} {k : Nat} {p : Protocol}
    {last : ResolveError} {n : Nat} {s : Session} (hc : s.token.cancelled = true) :
    (attempt env server request data (k + 1) p last n).run s = some ((.error .cancelled,n + 1),
      { s with network := (s.network.pop server.addr).2, log := ⟨server,p,data⟩ :: s.log }) := by
  rw [attempt,StateT.run_bind,exchange_of_cancelled hc]
  rfl

theorem errorResponse_token {key : CacheKey} {a : Answer} {s s' : Session}
    {res : Except ResolveError Answer} (h : (errorResponse env key a).run s = some (res,s')) :
    res ≠ .error .cancelled ∧ s'.token = s.token := by
  have hres := (errorResponse_cache env key a h).1
  refine ⟨by rcases hres with rfl | rfl <;> simp,?_⟩
  unfold errorResponse at h
  dsimp only at h
  split at h
  · obtain ⟨_,s₁,h₁,h⟩ := run_bind_eq_some h
    rw [run_cacheAdd] at h₁
    cases h₁
    split at h <;> cases h <;> rfl
  · split at h <;> cases h <;> rfl

/-- Asking the servers ends with the cancellation error exactly when it leaves the token
cancelled, and then it ends on the exchange that saw it. It is entered with a server left or
with a live token. -/
theorem askServers_cancel {key : CacheKey} {data : List UInt8} {servers : List NameServer}
    {n : Nat} {last : Option ResolveError} {kept : Option Answer} {s s' : Session}
    {res : Except ResolveError Answer}
    (h : (askServers env request key data servers n last kept).run s = some (res,s'))
    (hs : servers ≠ [] ∨ s.token.cancelled = false) :
    (res = .error .cancelled ↔ s'.token.cancelled = true) ∧
      (res = .error .cancelled → EndsOnCancel env request data s s') := by
  induction servers generalizing n last kept s with
  | nil =>
      have hlive : s.token.cancelled = false := hs.resolve_left (fun h => h rfl)
      cases kept with
      | none =>
          cases h
          simp [hlive]
      | some a =>
          obtain ⟨hne,ht⟩ := errorResponse_token h
          rw [ht,hlive]
          exact ⟨by simpa using hne,fun hx => absurd hx hne⟩
  | cons server rest ih =>
      rw [askServers] at h
      obtain ⟨⟨result,n'⟩,s₁,h₁,h⟩ := run_bind_eq_some h
      obtain ⟨hiff₁,hend₁⟩ := attempt_cancel h₁ (.inl (Nat.succ_pos _)) (by simp)
      dsimp only at h
      -- after the attempts at one server the token is live unless they were cancelled
      have hlive : result ≠ .error .cancelled → s₁.token.cancelled = false :=
        fun hne => Bool.eq_false_iff.2 fun hc => hne (hiff₁.2 hc)
      split at h
      · rename_i r
        have hl₁ := hlive (by simp)
        split at h
        · -- a success is the answer, offered to the cache, which leaves the token alone
          split at h
          · obtain ⟨_,s₂,h₂,h⟩ := run_bind_eq_some h
            rw [run_cacheAdd] at h₂
            cases h₂
            cases h
            simp [hl₁]
          · cases h
            simp [hl₁]
        · split at h
          · obtain ⟨hiff,hend⟩ := ih h (.inr hl₁)
            exact ⟨hiff,fun hx => (hend hx).of_live hl₁⟩
          · obtain ⟨hne,ht⟩ := errorResponse_token h
            rw [ht,hl₁]
            exact ⟨by simpa using hne,fun hx => absurd hx hne⟩
      · cases h
        exact ⟨by simpa using hiff₁,by simpa using hend₁⟩
      · rename_i e he
        have hl₁ := hlive (by simpa using he)
        obtain ⟨hiff,hend⟩ := ih h (.inr hl₁)
        exact ⟨hiff,fun hx => (hend hx).of_live hl₁⟩

theorem askServers_of_cancelled {key : CacheKey} {data : List UInt8} {server : NameServer}
    {rest : List NameServer} {n : Nat} {last : Option ResolveError} {kept : Option Answer}
    {s : Session} (hc : s.token.cancelled = true) :
    (askServers env request key data (server :: rest) n last kept).run s = some (.error .cancelled,
      { s with
        network := (s.network.pop server.addr).2
        log := ⟨server,firstProtocol env,data⟩ :: s.log }) := by
  rw [askServers,StateT.run_bind,attempt_of_cancelled hc]
  rfl

/-! ### A whole lookup -/

/-- The cache is not used, or holds no live response for the question of the request. -/
def Misses (env : LookupEnv) (request : Request) (s : Session) : Prop :=
  env.options.useCache = true →
    (s.cache.get s.cacheClock (CacheKey.ofQuestion request.question)).1 = none

/-- The session after a lookup's read of the cache. -/
def afterRead (env : LookupEnv) (request : Request) (s : Session) : Session :=
  { s with cache := readCache env.options s.cacheClock (CacheKey.ofQuestion request.question) s.cache }

theorem run_of_servers_nil {s : Session} (hm : Misses env request s) (hs : env.servers = []) :
    (run env request).run s = some (.error .noServers,afterRead env request s) := by
  unfold run afterRead readCache
  cases hc : env.options.useCache with
  | true => simp [cacheGet,hm hc,hs]
  | false => simp [hs]

/-- After a miss, a lookup with servers asks them for the written request, from the session its
read left. -/
theorem run_of_servers_ne {s : Session} {data : List UInt8} (hm : Misses env request s)
    (hs : env.servers ≠ []) (he : request.encode = .ok data) :
    (run env request).run s = (askServers env request (CacheKey.ofQuestion request.question) data
      env.servers 0 none none).run (afterRead env request s) := by
  have hempty : env.servers.isEmpty = false := List.isEmpty_eq_false_iff.2 hs
  unfold run afterRead readCache
  cases hc : env.options.useCache with
  | true => simp [cacheGet,hm hc,hempty,he]
  | false => simp [hempty,he]

theorem hit_of_not_misses {s : Session} (hm : ¬ Misses env request s) :
    ∃ e, env.options.useCache = true ∧
      find? (CacheKey.ofQuestion request.question) s.cache.entries = some e ∧
      e.isLive s.cacheClock = true := by
  obtain ⟨hu,hg⟩ := Classical.not_imp.1 hm
  unfold ResponseCache.get at hg
  cases hf : find? (CacheKey.ofQuestion request.question) s.cache.entries with
  | none => simp [hf] at hg
  | some e =>
    cases hl : e.isLive s.cacheClock with
    | false => simp [hf,hl] at hg
    | true => exact ⟨e,hu,rfl,hl⟩

/-- A lookup has an outcome whenever none of its waits can last forever: its token is cancelled
or has a timer, its timeout is finite, or no server of its script leaves an exchange unanswered. -/
theorem run_returns {s : Session} (hs : Settles env s) :
    ∃ res s', (run env request).run s = some (res,s') := by
  by_cases hm : Misses env request s
  · by_cases hsv : env.servers = []
    · exact ⟨_,_,run_of_servers_nil hm hsv⟩
    · obtain ⟨data,he⟩ := request.encode_isOk
      obtain ⟨res,s',h,-⟩ := @returns_askServers env request _ data env.servers 0 none none
        (afterRead env request s) hs
      exact ⟨res,s',by rw [run_of_servers_ne hm hsv he]; exact h⟩
  · obtain ⟨e,hu,hf,hl⟩ := hit_of_not_misses hm
    exact ⟨_,_,run_of_live env request hu hf hl⟩

/-- A timer changes a lookup only by cancelling it. Before any server is asked the lookup reads
neither the token nor the clock; after that it is the walk over the servers. -/
theorem race_run (n : Nat) : Race n (· = .error .cancelled) (run env request) := by
  refine ⟨fun s x s' h => ?_,fun s ht hc => ?_⟩
  · by_cases hm : Misses env request s
    · by_cases hsv : env.servers = []
      · rw [run_of_servers_nil hm hsv] at h
        cases h
        exact Nat.le_refl _
      · obtain ⟨data,he⟩ := request.encode_isOk
        rw [run_of_servers_ne hm hsv he] at h
        have hclock := (@race_askServers env request n _ data _ _ _ _).1 _ _ _ h
        exact hclock
    · obtain ⟨e,hu,hf,hl⟩ := hit_of_not_misses hm
      rw [run_of_live env request hu hf hl] at h
      cases h
      exact Nat.le_refl _
  · -- the cache does not see the token
    have hm' : Misses env request { s with token := Token.timer n } ↔ Misses env request s :=
      Iff.rfl
    by_cases hm : Misses env request s
    · by_cases hsv : env.servers = []
      · exact .inl ⟨_,_,run_of_servers_nil hm hsv,ht,hc,run_of_servers_nil (hm'.2 hm) hsv⟩
      · obtain ⟨data,he⟩ := request.encode_isOk
        rw [run_of_servers_ne hm hsv he,run_of_servers_ne (hm'.2 hm) hsv he]
        exact (race_askServers n _ data _ _ _ _).2 (afterRead env request s) ht hc
    · obtain ⟨e,hu,hf,hl⟩ := hit_of_not_misses hm
      exact .inl ⟨_,_,run_of_live env request hu hf hl,ht,hc,run_of_live env request hu hf hl⟩

/-- A timer that comes after the lookup would have ended changes nothing: the lookup with the
timer ends as the one without it. -/
theorem run_of_timer_late {s s₀ : Session} {n : Nat} {res : Except ResolveError Answer}
    (h : (run env request).run s = some (res,s₀)) (ht : s.token = Token.idle) (hn : s₀.clock ≤ n) :
    (run env request).run { s with token := Token.timer n } =
      some (res,{ s₀ with token := Token.timer n }) := by
  have hc : s.clock ≤ n := Nat.le_trans ((race_run n).1 s res s₀ h) hn
  rcases (race_run n).2 s ht hc with ⟨x,s',h',-,-,htimed⟩ | ⟨-,-,-,-,hlate⟩
  · rw [h] at h'
    cases h'
    exact htimed
  · exact absurd hn (Nat.not_le.2 (hlate res s₀ h))

/-- The order in which a lookup settles, whatever the state of its token:

* a live cached response for the question is the answer, and the session stays as it was;
* otherwise a lookup without servers fails with `noServers`;
* otherwise a token cancelled before the lookup lets exactly one exchange reach the first server,
  which takes a reply from it, and the lookup ends with the cancellation error;
* a token that a timer cancels at moment n, while the same lookup without the timer would still
  be waiting, ends the lookup with the cancellation error. It ends on the exchange that saw the
  cancellation, the first to start with a cancelled token, so no exchange starts after it, and
  the cache is as the lookup's read left it. -/
theorem run_cancellation_order (env : LookupEnv) (request : Request) (s : Session) :
    (∀ e, env.options.useCache = true →
      find? (CacheKey.ofQuestion request.question) s.cache.entries = some e →
      e.isLive s.cacheClock = true →
      (run env request).run s = some (.ok (Answer.cached e.response),s)) ∧
    (Misses env request s → env.servers = [] →
      (run env request).run s = some (.error .noServers,afterRead env request s)) ∧
    (Misses env request s → ∀ server rest, env.servers = server :: rest →
      s.token.cancelled = true → ∃ data, request.encode = .ok data ∧
        (run env request).run s = some (.error .cancelled,
          { afterRead env request s with
            network := (s.network.pop server.addr).2
            log := ⟨server,firstProtocol env,data⟩ :: s.log })) ∧
    (Misses env request s → env.servers ≠ [] → ∀ n, s.token = Token.timer n → s.clock ≤ n →
      (∀ res s₀, (run env request).run { s with token := Token.idle } = some (res,s₀) →
        n < s₀.clock) →
      ∃ s', (run env request).run s = some (.error .cancelled,s') ∧
        s'.cache = (afterRead env request s).cache ∧
        ∃ data, request.encode = .ok data ∧
          EndsOnCancel env request data (afterRead env request s) s') := by
  refine ⟨fun e hu hf hl => run_of_live env request hu hf hl,run_of_servers_nil,?_,?_⟩
  · intro hm server rest hs hc
    obtain ⟨data,he⟩ := request.encode_isOk
    refine ⟨data,he,?_⟩
    rw [run_of_servers_ne hm (hs ▸ List.cons_ne_nil _ _) he,hs]
    exact askServers_of_cancelled hc
  · intro hm hs n ht hc hidle
    -- the lookup is the same lookup without a timer, raced against the timer at n
    have hs₀ : s = { ({ s with token := Token.idle } : Session) with token := Token.timer n } := by
      rw [← ht]
    rcases (race_run n).2 { s with token := Token.idle } rfl hc with
      ⟨x,s',h,-,hc',-⟩ | ⟨x,s',h,hx,-⟩
    · exact absurd hc' (Nat.not_le.2 (hidle x s' h))
    · rw [← hs₀,show x = .error .cancelled from hx] at h
      obtain ⟨data,he⟩ := request.encode_isOk
      have hask := h
      rw [run_of_servers_ne hm hs he] at hask
      refine ⟨s',h,?_,data,he,(askServers_cancel hask (.inl hs)).2 rfl⟩
      rw [run_cache env request h]
      rfl

set_option maxRecDepth 4096 in
/-- One server that never answers, a timeout of five seconds and a timer that cancels the token
after one second: without the timer the lookup would wait five seconds, so the timer ends it
with the cancellation error. -/
theorem run_cancellation_order_timer :
    let one : NameServer := ⟨.v4 (Ipv4Address.ofOctets 192 0 2 53) 53⟩
    let env : LookupEnv := ⟨[one],.default,RecordFactory.new⟩
    let request : Request := ⟨7,⟨⟨[[101,120]]⟩,RecordType.a,RecordClass.inet⟩,true,none⟩
    let s : Session := ⟨ResponseCache.new .default,⟨[(one.addr,[.hang])]⟩,0,Token.timer 1000,0,[]⟩
    Misses env request s ∧ env.servers ≠ [] ∧ s.clock ≤ 1000 ∧
      (∀ res s₀, (run env request).run { s with token := Token.idle } = some (res,s₀) →
        1000 < s₀.clock) ∧
      ∃ s', (run env request).run s = some (.error .cancelled,s') ∧
        s'.cache = (afterRead env request s).cache ∧
        ∃ data, request.encode = .ok data ∧
          EndsOnCancel env request data (afterRead env request s) s' := by
  intro one env request s
  have hm : Misses env request s := fun _ => rfl
  have hs : env.servers ≠ [] := List.cons_ne_nil _ _
  -- without the timer the wait runs out at five seconds
  have hidle : ∀ res s₀, (run env request).run { s with token := Token.idle } = some (res,s₀) →
      1000 < s₀.clock := by
    intro res s₀ h
    have hclock : ((run env request).run { s with token := Token.idle }).map (·.2.clock) =
        some 5000 := by
      simp only [one,env,request,s]
      rfl
    rw [h,Option.map_some,Option.some.injEq] at hclock
    rw [hclock]
    decide
  exact ⟨hm,hs,Nat.zero_le _,hidle,
    (run_cancellation_order env request s).2.2.2 hm hs 1000 rfl (Nat.zero_le _) hidle⟩

end Lookup

end DnsStub
