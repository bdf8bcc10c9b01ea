import DnsStub.Proofs.LookupCache
/-!
# Time in a lookup

The clock of a session moves only while an exchange waits for a reply that never comes, and
only forward (`MovesForward`). A wait ends at the timeout or when the timer cancels the token;
with neither it never ends, and it is the only step of a lookup that can fail to end. So a lookup
has an outcome whenever its token is cancelled or has a timer, its timeout is finite, or no
server of its script leaves an exchange unanswered (`Settles`, `returns_askServers`).

A timer changes a lookup only by cancelling it (`Race`). Beside the same lookup with a token
nothing cancels, the lookup with a timer at moment n either does just what that one does, which
has ended by n, or ends with the cancellation error while that one is still waiting at n
(`race_askServers`). The step lemma is the wait (`race_waitOut`); the attempts and the walk over
the servers inherit it by induction.
-/
namespace DnsStub

theorem Script.hang_not_mem_queue {sc : Script} (h : sc.mayHang = false) (addr : SocketAddress) :
    Reply.hang ∉ sc.queue addr := by
  unfold Script.queue
  split
  · rename_i q hf
    simp only [Script.mayHang, List.any_eq_false] at h
    simpa using h _ (List.mem_of_find?_eq_some hf)
  · simp

theorem Script.pop_of_mayHang {sc : Script} (h : sc.mayHang = false) (addr : SocketAddress) :
    (sc.pop addr).1 ≠ .hang ∧ (sc.pop addr).2.mayHang = false := by
  have hq := sc.hang_not_mem_queue h addr
  unfold Script.pop
  split
  · rename_i r rest heq
    rw [heq] at hq
    refine ⟨fun hr => hq (hr ▸ List.mem_cons_self), ?_⟩
    simp only [Script.mayHang, Script.setQueue, List.any_map, List.any_eq_false] at h ⊢
    intro e he
    rw [Function.comp_apply]
    split
    · simpa using fun hm => hq (List.mem_cons_of_mem r hm)
    · exact h e he
  · exact ⟨by simp, h⟩

namespace Lookup

variable {α β : Type} {env : LookupEnv} {request : Request}

theorem run_get_bind (f : Session → LookupM α) (s : Session) :
    (get >>= f).run s = (f s).run s :=
  rfl

theorem run_cancelAt (n : Nat) (s : Session) :
    (cancelAt n).run s =
      some (.cancelled, { s with clock := max s.clock n, token := Token.fired }) :=
  rfl

theorem run_timeoutAt (d : Nat) (s : Session) :
    (timeoutAt d).run s = some (.timeout, { s with clock := d }) :=
  rfl

theorem waitOut_zero {limit : Timeout} {s : Session} (hd : limit.deadline s.clock = some s.clock) :
    (waitOut limit).run s = some (.timeout,s) := by
  rw [waitOut,run_get_bind]
  rcases ha : s.token.alarm with _ | n <;> simp [hd]

theorem waitOut_timer {limit : Timeout} {s : Session} {n : Nat} (ha : s.token.alarm = some n)
    (hd : ∀ d, limit.deadline s.clock = some d → d ≠ s.clock ∧ n < d) :
    (waitOut limit).run s = some (.cancelled,{ s with clock := max s.clock n, token := Token.fired }) := by
  rw [waitOut,run_get_bind]
  rcases hdl : limit.deadline s.clock with _ | d
  · simp only [ha]
    rfl
  · obtain ⟨hdc,hn⟩ := hd d hdl
    simp only [ha,hdc,hn,if_false,if_true]
    rfl

theorem waitOut_timeout {limit : Timeout} {s : Session} {d : Nat}
    (hd : limit.deadline s.clock = some d) (hdc : d ≠ s.clock)
    (ha : ∀ n, s.token.alarm = some n → d ≤ n) :
    (waitOut limit).run s = some (.timeout,{ s with clock := d }) := by
  rw [waitOut,run_get_bind]
  rcases hal : s.token.alarm with _ | n
  · simp only [hd,hdc,if_false]
    rfl
  · have hn : ¬ n < d := Nat.not_lt.2 (ha n hal)
    simp only [hd,hdc,hn,if_false]
    rfl

theorem waitOut_forever {limit : Timeout} {s : Session} (hd : limit.deadline s.clock = none)
    (ha : s.token.alarm = none) : (waitOut limit).run s = none := by
  rw [waitOut,run_get_bind]
  simp only [hd,ha]
  rfl

/-- Every way a wait ends: at once for a timeout of zero, at the timer, at the deadline, or never
when there is neither. -/
theorem waitOut_outcomes (limit : Timeout) (s : Session) :
    (waitOut limit).run s = some (.timeout,s) ∨
    (∃ n, s.token.alarm = some n ∧ (waitOut limit).run s =
      some (.cancelled,{ s with clock := max s.clock n, token := Token.fired })) ∨
    (∃ d, limit.deadline s.clock = some d ∧
      (waitOut limit).run s = some (.timeout,{ s with clock := d })) ∨
    (limit.deadline s.clock = none ∧ s.token.alarm = none ∧ (waitOut limit).run s = none) := by
  rcases hd : limit.deadline s.clock with _ | d <;> rcases ha : s.token.alarm with _ | n
  · exact .inr (.inr (.inr ⟨rfl,rfl,waitOut_forever hd ha⟩))
  · exact .inr (.inl ⟨n,rfl,waitOut_timer ha (by simp [hd])⟩)
  · by_cases hdc : d = s.clock
    · exact .inl (waitOut_zero (hdc ▸ hd))
    · exact .inr (.inr (.inl ⟨d,rfl,waitOut_timeout hd hdc (by simp [ha])⟩))
  · by_cases hdc : d = s.clock
    · exact .inl (waitOut_zero (hdc ▸ hd))
    · by_cases hn : n < d
      · exact .inr (.inl ⟨n,rfl,waitOut_timer ha (by simp [hd,hdc,hn])⟩)
      · exact .inr (.inr (.inl ⟨d,rfl,waitOut_timeout hd hdc (by simp [ha]; omega)⟩))

/-- With the token already cancelled, an exchange still reaches the server and takes its reply,
then ends with the cancellation error, whatever the reply: a reply that is there at once loses to
the token. -/
theorem exchange_of_cancelled {server : NameServer} {p : Protocol} {data : List UInt8}
    {s : Session} (hc : s.token.cancelled = true) :
    (exchange env server p request data).run s = some (.error .cancelled,
      { s with network := (s.network.pop server.addr).2, log := ⟨server,p,data⟩ :: s.log }) := by
  simp [exchange,hc]

theorem exchange_of_live {server : NameServer} {p : Protocol} {data : List UInt8}
    {s : Session} (hc : s.token.cancelled = false) :
    (exchange env server p request data).run s =
      ((receive env request (s.network.pop server.addr).1).run
          { s with network := (s.network.pop server.addr).2, log := ⟨server,p,data⟩ :: s.log }).map
        fun q => (q.1.bind fun bs => (Response.parse bs.toByteArray env.factory).mapError .parse,
          q.2) := by
  simp only [exchange,hc,StateT.run_bind,StateT.run_get,StateT.run_set,Option.pure_def,
    Option.bind_eq_bind,Option.bind_some,Bool.false_eq_true,if_false]
  generalize StateT.run (receive env request _) _ = r
  rcases r with _ | ⟨_ | _,s'⟩ <;> rfl

/-! ### The clock never goes back -/

/-- A computation whose runs never move the clock back. -/
def MovesForward (m : LookupM α) : Prop :=
  ∀ s x s', m.run s = some (x,s') → s.clock ≤ s'.clock

namespace MovesForward

theorem pure (a : α) : MovesForward (Pure.pure a : LookupM α) := by
  intro s x s' h
  cases h
  exact Nat.le_refl _

theorem bind {m : LookupM α} {f : α → LookupM β} (hm : MovesForward m)
    (hf : ∀ a, MovesForward (f a)) : MovesForward (m >>= f) := by
  intro s b s' h
  obtain ⟨a,s₁,h₁,h₂⟩ := run_bind_eq_some h
  exact Nat.le_trans (hm s a s₁ h₁) (hf a s₁ b s' h₂)

theorem ite {c : Prop} [Decidable c] {m m' : LookupM α} (hm : MovesForward m)
    (hm' : MovesForward m') : MovesForward (if c then m else m') := by
  split
  · exact hm
  · exact hm'

end MovesForward

theorem movesForward_waitOut (limit : Timeout) : MovesForward (waitOut limit) := by
  intro s x s' h
  rcases waitOut_outcomes limit s with h₀ | ⟨n,_,hn⟩ | ⟨d,hd,hd'⟩ | ⟨_,_,hnone⟩
  · rw [h₀] at h
    cases h
    exact Nat.le_refl _
  · rw [hn] at h
    cases h
    exact Nat.le_max_left _ _
  · rw [hd'] at h
    cases h
    show s.clock ≤ d
    cases limit <;> simp only [Timeout.deadline,Option.some.injEq,reduceCtorEq] at hd
    omega
  · rw [hnone] at h
    cases h

/-! ### A lookup that cannot wait forever returns -/

/-- The sessions in which no wait lasts forever: the token is cancelled or has a timer, the
timeout is finite, or no server of the script leaves an exchange unanswered. -/
def Settles (env : LookupEnv) (s : Session) : Prop :=
  s.token.cancelled = true ∨ s.token.alarm.isSome = true ∨ env.options.timeout ≠ .infinite ∨
    s.network.mayHang = false

theorem Settles.of_token {s s' : Session} (h : Settles env s) (ht : s'.token = s.token)
    (hn : s'.network = s.network) : Settles env s' := by
  unfold Settles
  rw [ht,hn]
  exact h

theorem Settles.of_fired {s : Session} (ht : s.token = Token.fired) : Settles env s :=
  .inl (by rw [ht]; rfl)

/-- A computation that has an outcome from every session where `P` holds, and keeps `P`. -/
def Returns (P : Session → Prop) (m : LookupM α) : Prop :=
  ∀ s, P s → ∃ x s', m.run s = some (x,s') ∧ P s'

namespace Returns

variable {P : Session → Prop}

theorem pure (a : α) : Returns P (Pure.pure a : LookupM α) :=
  fun s hs => ⟨a,s,rfl,hs⟩

theorem bind {m : LookupM α} {f : α → LookupM β} (hm : Returns P m) (hf : ∀ a, Returns P (f a)) :
    Returns P (m >>= f) := by
  intro s hs
  obtain ⟨a,s₁,h₁,hs₁⟩ := hm s hs
  obtain ⟨b,s₂,h₂,hs₂⟩ := hf a s₁ hs₁
  exact ⟨b,s₂,by rw [StateT.run_bind,h₁]; exact h₂,hs₂⟩

theorem ite {c : Prop} [Decidable c] {m m' : LookupM α} (hm : Returns P m) (hm' : Returns P m') :
    Returns P (if c then m else m') := by
  split
  · exact hm
  · exact hm'

end Returns

/-- A wait ends when the token has a timer or the timeout is finite. It leaves the network
alone and keeps the token or fires it. -/
theorem waitOut_returns {limit : Timeout} {s : Session}
    (h : s.token.alarm.isSome = true ∨ limit ≠ .infinite) :
    ∃ e s', (waitOut limit).run s = some (e,s') ∧ s'.network = s.network ∧
      (s'.token = s.token ∨ s'.token = Token.fired) := by
  rcases waitOut_outcomes limit s with h₀ | ⟨n,_,hn⟩ | ⟨d,_,hd⟩ | ⟨hd,ha,_⟩
  · exact ⟨_,_,h₀,rfl,.inl rfl⟩
  · exact ⟨_,_,hn,rfl,.inr rfl⟩
  · exact ⟨_,_,hd,rfl,.inl rfl⟩
  · -- a wait with neither a deadline nor a timer is ruled out
    cases limit with
    | finite ms => simp [Timeout.deadline] at hd
    | infinite => simp [ha] at h

theorem returns_receive {reply : Reply} {s : Session} (hs : Settles env s)
    (hr : reply = .hang → s.token.alarm.isSome = true ∨ env.options.timeout ≠ .infinite) :
    ∃ x s', (receive env request reply).run s = some (x,s') ∧ Settles env s' := by
  cases reply with
  | hang =>
    obtain ⟨e,s',h,hn,ht⟩ := waitOut_returns (hr rfl)
    refine ⟨.error e,s',by rw [receive,StateT.run_bind,h]; rfl,?_⟩
    rcases ht with ht | ht
    · exact hs.of_token ht hn
    · exact Settles.of_fired ht
  | fail => exact ⟨_,s,rfl,hs⟩
  | bytes bs => exact ⟨_,s,rfl,hs⟩
  | template t => exact ⟨_,s,rfl,hs⟩

/-- The step lemma: an exchange from a session that settles has an outcome and leaves a session
that settles. A script without hangs keeps none after the reply is taken. -/
theorem returns_exchange (server : NameServer) (p : Protocol) (data : List UInt8) :
    Returns (Settles env) (exchange env server p request data) := by
  intro s hs
  cases hc : s.token.cancelled with
  | true => exact ⟨_,_,exchange_of_cancelled hc,.inl hc⟩
  | false =>
    rw [exchange_of_live hc]
    have hpop := fun (h : s.network.mayHang = false) => Script.pop_of_mayHang h server.addr
    have hlive : s.token.alarm.isSome = true ∨ env.options.timeout ≠ .infinite ∨
        s.network.mayHang = false := by
      rcases hs with h | h
      · rw [hc] at h
        cases h
      · exact h
    have hs₁ : Settles env
        { s with network := (s.network.pop server.addr).2, log := ⟨server,p,data⟩ :: s.log } := by
      rcases hlive with h | h | h
      · exact .inr (.inl h)
      · exact .inr (.inr (.inl h))
      · exact .inr (.inr (.inr (hpop h).2))
    have hr : (s.network.pop server.addr).1 = .hang →
        s.token.alarm.isSome = true ∨ env.options.timeout ≠ .infinite := by
      intro hh
      rcases hlive with h | h | h
      · exact .inl h
      · exact .inr h
      · exact absurd hh (hpop h).1
    obtain ⟨x,s',h,hs'⟩ := @returns_receive env request _ _ hs₁ hr
    exact ⟨_,_,by rw [h]; rfl,hs'⟩

theorem returns_attempt (server : NameServer) (data : List UInt8) (k : Nat) (p : Protocol)
    (last : ResolveError) (cnt : Nat) :
    Returns (Settles env) (attempt env server request data k p last cnt) := by
  induction k generalizing p last cnt with
  | zero => exact Returns.pure _
  | succ k ih =>
    rw [attempt]
    refine Returns.bind (returns_exchange server p data) fun first => ?_
    extract_lets jp
    have tail : ∀ x, Returns (Settles env) (jp x) := by
      rintro ⟨protocol,result⟩
      simp only [jp]
      split
      · exact Returns.pure _
      · exact Returns.pure _
      · exact ih _ _ _
    split
    · split
      · exact Returns.bind (returns_exchange server .tcp data) fun _ =>
          Returns.bind (Returns.pure _) fun _ => tail _
      · exact Returns.bind (Returns.pure _) fun _ => tail _
    · exact Returns.bind (Returns.pure _) fun _ => tail _

theorem returns_cacheAdd (key : CacheKey) (r : Response) (allow : Bool) :
    Returns (Settles env) (cacheAdd key r allow) :=
  fun s hs => ⟨(),_,run_cacheAdd key r allow s,hs⟩

theorem returns_errorResponse (key : CacheKey) (a : Answer) :
    Returns (Settles env) (errorResponse env key a) := by
  unfold errorResponse
  extract_lets jp
  have tail : ∀ r, Returns (Settles env) (jp r) := by
    intro r
    simp only [jp]
    split <;> exact Returns.pure _
  split
  · exact Returns.bind (returns_cacheAdd _ _ _) tail
  · exact tail ()

/-- The run lemma: asking the servers from a session that settles has an outcome. -/
theorem returns_askServers (key : CacheKey) (data : List UInt8) :
    ∀ (servers : List NameServer) (cnt : Nat) (last : Option ResolveError) (kept : Option Answer),
      Returns (Settles env) (askServers env request key data servers cnt last kept)
  | [], _, _, none => Returns.pure _
  | [], _, _, some a => returns_errorResponse key a
  | server :: rest, cnt, last, kept => by
    rw [askServers]
    refine Returns.bind (returns_attempt server data _ _ _ _) fun x => ?_
    obtain ⟨result,cnt'⟩ := x
    dsimp only
    split
    · split
      · split
        · exact Returns.bind (returns_cacheAdd _ _ _) fun _ => Returns.pure _
        · exact Returns.pure _
      · split
        · exact returns_askServers key data rest _ _ _
        · exact returns_errorResponse key _
    · exact Returns.pure _
    · exact returns_askServers key data rest _ _ _

/-! ### A timer changes a lookup only by cancelling it -/

/-- A timer at moment n against no timer. The computation never moves the clock back, and from
any session whose token is live without a timer and whose clock is not past n, either the run
with the timer does what the run without one does, which ends by n, or it ends with a result that
`cancelled` accepts while every run without the timer is still waiting at n. -/
def Race (n : Nat) (cancelled : α → Prop) (m : LookupM α) : Prop :=
  MovesForward m ∧ ∀ s, s.token = Token.idle → s.clock ≤ n →
    (∃ x s', m.run s = some (x,s') ∧ s'.token = Token.idle ∧ s'.clock ≤ n ∧
      m.run { s with token := Token.timer n } = some (x,{ s' with token := Token.timer n })) ∨
    (∃ x s', m.run { s with token := Token.timer n } = some (x,s') ∧ cancelled x ∧
      ∀ y s'', m.run s = some (y,s'') → n < s''.clock)

namespace Race

variable {n : Nat} {p : α → Prop} {q : β → Prop}

theorem pure (a : α) : Race n p (Pure.pure a : LookupM α) :=
  ⟨MovesForward.pure a,fun s ht hc => .inl ⟨a,s,rfl,ht,hc,rfl⟩⟩

/-- Races compose along a bind whose continuation, after a cancelled result, ends at once with a
cancelled result. -/
theorem bind {m : LookupM α} {f : α → LookupM β} (hm : Race n p m) (hf : ∀ a, Race n q (f a))
    (hp : ∀ a, p a → ∃ b, q b ∧ ∀ s, (f a).run s = some (b,s)) : Race n q (m >>= f) := by
  refine ⟨hm.1.bind fun a => (hf a).1,fun s ht hc => ?_⟩
  rcases hm.2 s ht hc with ⟨a,s₁,h₁,ht₁,hc₁,h₁'⟩ | ⟨a,s₁,h₁',hpa,hlate⟩
  · rcases (hf a).2 s₁ ht₁ hc₁ with ⟨b,s₂,h₂,ht₂,hc₂,h₂'⟩ | ⟨b,s₂,h₂',hqb,hlate₂⟩
    · exact .inl ⟨b,s₂,by rw [StateT.run_bind,h₁]; exact h₂,ht₂,hc₂,
        by rw [StateT.run_bind,h₁']; exact h₂'⟩
    · refine .inr ⟨b,s₂,by rw [StateT.run_bind,h₁']; exact h₂',hqb,fun y s'' h => ?_⟩
      obtain ⟨a',s₃,h₃,h₄⟩ := run_bind_eq_some h
      rw [h₁] at h₃
      cases h₃
      exact hlate₂ y s'' h₄
  · -- the timer has struck: the continuation passes the cancellation on, while the run without
    -- a timer, already past n, only moves further on
    obtain ⟨b,hqb,hfb⟩ := hp a hpa
    refine .inr ⟨b,s₁,by rw [StateT.run_bind,h₁']; exact hfb s₁,hqb,fun y s'' h => ?_⟩
    obtain ⟨a',s₃,h₃,h₄⟩ := run_bind_eq_some h
    exact Nat.lt_of_lt_of_le (hlate a' s₃ h₃) ((hf a').1 s₃ y s'' h₄)

theorem ite {c : Prop} [Decidable c] {m m' : LookupM α} (hm : Race n p m) (hm' : Race n p m') :
    Race n p (if c then m else m') := by
  split
  · exact hm
  · exact hm'

end Race

/-- The step lemma. Without a timer a wait ends at its deadline or never; with the timer at n it
ends the same way if the deadline comes by n, and is cancelled otherwise. -/
theorem race_waitOut (n : Nat) (limit : Timeout) :
    Race n (· = ResolveError.cancelled) (waitOut limit) := by
  refine ⟨movesForward_waitOut limit,fun s ht hc => ?_⟩
  have hidle : s.token.alarm = none := by rw [ht]; rfl
  have htimed : ({ s with token := Token.timer n } : Session).token.alarm = some n := rfl
  rcases hd : limit.deadline s.clock with _ | d
  · -- no deadline: the timer ends the wait, and without it the wait never ends
    refine .inr ⟨_,_,waitOut_timer htimed (by simp [hd]),rfl,fun y s'' h => ?_⟩
    rw [waitOut_forever hd hidle] at h
    cases h
  · by_cases hdc : d = s.clock
    · subst hdc
      exact .inl ⟨_,_,waitOut_zero hd,ht,hc,waitOut_zero hd⟩
    · by_cases hn : n < d
      · refine .inr ⟨_,_,waitOut_timer htimed (by simp [hd,hdc,hn]),rfl,fun y s'' h => ?_⟩
        rw [waitOut_timeout hd hdc (by simp [hidle])] at h
        cases h
        exact hn
      · have hdn : d ≤ n := Nat.not_lt.1 hn
        refine .inl ⟨_,{ s with clock := d },waitOut_timeout hd hdc (by simp [hidle]),ht,hdn,
          waitOut_timeout hd hdc fun n' hn' => ?_⟩
        change some n = some n' at hn'
        cases hn'
        exact hdn

theorem race_receive (n : Nat) (reply : Reply) :
    Race n (· = .error .cancelled) (receive env request reply) := by
  cases reply with
  | hang =>
    exact Race.bind (race_waitOut n _) (fun _ => Race.pure _)
      (fun e he => ⟨.error e,by rw [he],fun _ => rfl⟩)
  | fail => exact Race.pure _
  | bytes bs => exact Race.pure _
  | template t => exact Race.pure _

/-- The timer does not change what an exchange sends or which reply it takes: the two runs part
only in the wait. -/
theorem race_exchange (n : Nat) (server : NameServer) (p : Protocol) (data : List UInt8) :
    Race n (· = .error .cancelled) (exchange env server p request data) := by
  refine ⟨fun s x s' h => ?_,fun s ht hc => ?_⟩
  · cases hc : s.token.cancelled with
    | true =>
      rw [exchange_of_cancelled hc] at h
      cases h
      exact Nat.le_refl _
    | false =>
      rw [exchange_of_live hc] at h
      obtain ⟨⟨y,s₁⟩,h₁,hq⟩ := Option.map_eq_some_iff.1 h
      cases hq
      have h₂ := (@race_receive env request n _).1 _ _ _ h₁
      exact h₂
  · have hl : s.token.cancelled = false := by rw [ht]; rfl
    rw [exchange_of_live hl,exchange_of_live (s := { s with token := Token.timer n }) rfl]
    rcases (@race_receive env request n (s.network.pop server.addr).1).2
        { s with network := (s.network.pop server.addr).2, log := ⟨server,p,data⟩ :: s.log } ht hc with
      ⟨x,s',h,ht',hc',h'⟩ | ⟨x,s',h',hx,hlate⟩
    · refine .inl ⟨_,s',by rw [h]; rfl,ht',hc',?_⟩
      dsimp only at h' ⊢
      rw [h']
      rfl
    · refine .inr ⟨.error .cancelled,s',?_,rfl,fun y s'' hy => ?_⟩
      · dsimp only at h' ⊢
        rw [h',hx]
        rfl
      · obtain ⟨⟨z,s₃⟩,h₃,hq⟩ := Option.map_eq_some_iff.1 hy
        cases hq
        exact hlate z s₃ h₃

/-- An offer to the cache reads neither the token nor the clock. -/
theorem race_cacheAdd {n : Nat} {p : Unit → Prop} (key : CacheKey) (r : Response) (allow : Bool) :
    Race n p (cacheAdd key r allow) := by
  refine ⟨fun s x s' h => ?_,fun s ht hc => .inl ⟨(),_,run_cacheAdd key r allow s,ht,hc,
    run_cacheAdd key r allow _⟩⟩
  rw [run_cacheAdd] at h
  cases h
  exact Nat.le_refl _

theorem race_errorResponse {n : Nat} {p : Except ResolveError Answer → Prop} (key : CacheKey)
    (a : Answer) : Race n p (errorResponse env key a) := by
  unfold errorResponse
  extract_lets jp
  have tail : ∀ r, Race n p (jp r) := by
    intro r
    simp only [jp]
    split <;> exact Race.pure _
  split
  · exact Race.bind (race_cacheAdd (p := fun _ => False) _ _ _) tail fun _ h => h.elim
  · exact tail ()

/-- The attempts at a server: the timer reaches them only through the exchanges, and an attempt
that is cancelled ends the attempts. -/
theorem race_attempt (n : Nat) (server : NameServer) (data : List UInt8) (k : Nat) (p : Protocol)
    (last : ResolveError) (cnt : Nat) :
    Race n (fun x => x.1 = .error .cancelled) (attempt env server request data k p last cnt) := by
  induction k generalizing p last cnt with
  | zero => exact Race.pure _
  | succ k ih =>
    rw [attempt]
    refine Race.bind (race_exchange n server p data) (fun first => ?_)
      fun first hfirst => ⟨(.error .cancelled,cnt + 1),rfl,fun s => by rw [hfirst]; rfl⟩
    extract_lets jp
    have tail : ∀ x, Race n (fun x => x.1 = .error .cancelled) (jp x) := by
      rintro ⟨protocol,result⟩
      simp only [jp]
      split
      · exact Race.pure _
      · exact Race.pure _
      · exact ih _ _ _
    split
    · split
      · -- a truncated reply asked for again over TCP: a second exchange the timer may cancel
        refine Race.bind (race_exchange n server .tcp data)
          (fun _ => Race.bind (p := fun _ => False) (Race.pure _) (fun _ => tail _) fun _ h => h.elim)
          fun second hsecond => ⟨(.error .cancelled,cnt + 1),rfl,fun s => by rw [hsecond]; rfl⟩
      · exact Race.bind (p := fun _ => False) (Race.pure _) (fun _ => tail _) fun _ h => h.elim
    · exact Race.bind (p := fun _ => False) (Race.pure _) (fun _ => tail _) fun _ h => h.elim

/-- The run lemma: the walk over the servers, from the first server on, inherits the race from
the attempts at each server. -/
theorem race_askServers (n : Nat) (key : CacheKey) (data : List UInt8) :
    ∀ (servers : List NameServer) (cnt : Nat) (last : Option ResolveError) (kept : Option Answer),
      Race n (· = .error .cancelled) (askServers env request key data servers cnt last kept)
  | [], _, _, none => Race.pure _
  | [], _, _, some a => race_errorResponse key a
  | server :: rest, cnt, last, kept => by
    rw [askServers]
    refine Race.bind (race_attempt n server data _ _ _ _) (fun x => ?_)
      fun x hx => ⟨.error .cancelled,rfl,fun s => ?_⟩
    · obtain ⟨result,cnt'⟩ := x
      dsimp only
      split
      · split
        · split
          · exact Race.bind (race_cacheAdd (p := fun _ => False) _ _ _) (fun _ => Race.pure _)
              fun _ h => h.elim
          · exact Race.pure _
        · split
          · exact race_askServers n key data rest _ _ _
          · exact race_errorResponse key _
      · exact Race.pure _
      · exact race_askServers n key data rest _ _ _
    · obtain ⟨result,cnt'⟩ := x
      dsimp only at hx
      rw [hx]
      rfl

end Lookup

end DnsStub
