import Mathlib
import DnsStub.Resolve.Cache
/-!
# The cache against a store that never forgets

The response cache drops expired entries on its own: all of them when an addition finds a
multiple of 1024 entries, the one of a key when `get` finds it expired, and the one of a key
when `add` replaces it. The reference here is a map from keys to entries that drops nothing
unless asked. With a clock that never goes back, every answer of `add` and `get` is the
reference's: an entry is only ever dropped once it has expired, and an expired entry stays
expired.

The simulation `Agrees c R now` says that each key's entry in the cache is the reference's,
or is gone while the reference's has expired by `now`; it also keeps the keys of the cache
distinct. Each operation keeps it (`Agrees.add`, `Agrees.get`, `Agrees.remove`,
`Agrees.clear`), and a later moment keeps it (`Agrees.later`).

Main statement: `runOps_refines`.
-/
namespace DnsStub

/-- An operation on a cache; `add` and `get` read the clock. -/
inductive CacheOp where
  | add (now : Nat) (key : CacheKey) (r : Response) (allowFailures : Bool)
  | get (now : Nat) (key : CacheKey)
  | remove (key : CacheKey)
  | clear

/-- The moment an operation reads the clock at, if it does. -/
def CacheOp.clock? : CacheOp → Option Nat
  | .add now .. => some now
  | .get now _ => some now
  | .remove _ => none
  | .clear => none

/-- What an operation answers: whether `add` stored, what `get` found. -/
inductive CacheReply where
  | added (stored : Bool)
  | got (r : Option Response)
  | done

/-- Whether `add` stored, or `get` found a response. -/
def CacheReply.succeeded : CacheReply → Bool
  | .added stored => stored
  | .got r => r.isSome
  | .done => false

namespace ResponseCache

def step (c : ResponseCache) : CacheOp → CacheReply × ResponseCache
  | .add now key r allow => (.added (c.add now key r allow).1,(c.add now key r allow).2)
  | .get now key => (.got (c.get now key).1,(c.get now key).2)
  | .remove key => (.done,(c.remove key).2)
  | .clear => (.done,c.clear)

/-- The answers of a run of operations, and the cache after them. -/
def runOps (c : ResponseCache) : List CacheOp → List CacheReply × ResponseCache
  | [] => ([],c)
  | op :: ops =>
      let s := c.step op
      let rest := s.2.runOps ops
      (s.1 :: rest.1,rest.2)

end ResponseCache

/-- A cache that keeps every entry until it is removed or the cache is cleared. -/
structure ReferenceCache where
  policy : CachePolicy
  store : CacheKey → Option CacheEntry

namespace ReferenceCache

/-- An empty reference with the lifetime settings of the options. -/
def new (o : ResolverOptions) : ReferenceCache :=
  ⟨CachePolicy.ofOptions o,fun _ => none⟩

/-- The response of a key, if its entry has not expired. -/
def get (R : ReferenceCache) (now : Nat) (key : CacheKey) : Option Response :=
  match R.store key with
  | some e => if e.isLive now then some e.response else none
  | none => none

/-- Stores a response unless no lifetime allows it or a live entry holds the key. -/
def add (R : ReferenceCache) (now : Nat) (key : CacheKey) (r : Response) (allowFailures : Bool) :
    Bool × ReferenceCache :=
  match R.policy.lifetime r allowFailures with
  | none => (false,R)
  | some life =>
      let stored : ReferenceCache :=
        { R with store := Function.update R.store key (some ⟨r,life.deadline now⟩) }
      match R.store key with
      | some e => if e.isLive now then (false,R) else (true,stored)
      | none => (true,stored)

def remove (R : ReferenceCache) (key : CacheKey) : ReferenceCache :=
  { R with store := Function.update R.store key none }

def clear (R : ReferenceCache) : ReferenceCache :=
  { R with store := fun _ => none }

def step (R : ReferenceCache) : CacheOp → CacheReply × ReferenceCache
  | .add now key r allow => (.added (R.add now key r allow).1,(R.add now key r allow).2)
  | .get now key => (.got (R.get now key),R)
  | .remove key => (.done,R.remove key)
  | .clear => (.done,R.clear)

def runOps (R : ReferenceCache) : List CacheOp → List CacheReply × ReferenceCache
  | [] => ([],R)
  | op :: ops =>
      let s := R.step op
      let rest := s.2.runOps ops
      (s.1 :: rest.1,rest.2)

end ReferenceCache

namespace CacheEntry

theorem isLive_eq_false_of_le {e : CacheEntry} {now now' : Nat} (h : e.isLive now = false)
    (hle : now ≤ now') : e.isLive now' = false := by
  cases hx : e.expires with
  | none => simp [isLive,hx] at h
  | some t =>
      simp only [isLive,hx,decide_eq_false_iff_not,Nat.not_lt] at h ⊢
      omega

end CacheEntry

namespace ResponseCache

theorem find?_eq_none_iff {key : CacheKey} {l : List (CacheKey × CacheEntry)} :
    find? key l = none ↔ key ∉ l.map Prod.fst := by
  induction l with
  | nil => simp [find?]
  | cons p l ih =>
      obtain ⟨k,e⟩ := p
      by_cases hk : k = key
      · simp [find?,hk]
      · simp [find?,hk,ih,Ne.symm hk]

theorem find?_erase_self (key : CacheKey) (l : List (CacheKey × CacheEntry)) :
    find? key (erase key l) = none := by
  induction l with
  | nil => rfl
  | cons p l ih =>
      obtain ⟨k,e⟩ := p
      by_cases hk : k = key
      · simp [erase,hk,ih]
      · simp [erase,find?,hk,ih]

theorem find?_erase_of_ne {key k : CacheKey} (h : k ≠ key) (l : List (CacheKey × CacheEntry)) :
    find? k (erase key l) = find? k l := by
  induction l with
  | nil => rfl
  | cons p l ih =>
      obtain ⟨k',e⟩ := p
      by_cases hk : k' = key
      · subst hk
        simp [erase,find?,ih,Ne.symm h]
      · simp [erase,find?,hk,ih]

theorem erase_of_find?_eq_none {key : CacheKey} {l : List (CacheKey × CacheEntry)}
    (h : find? key l = none) : erase key l = l := by
  induction l with
  | nil => rfl
  | cons p l ih =>
      obtain ⟨k,e⟩ := p
      by_cases hk : k = key
      · simp [find?,hk] at h
      · simp only [find?,hk,if_false] at h
        simp [erase,hk,ih h]

theorem keys_erase_sublist (key : CacheKey) (l : List (CacheKey × CacheEntry)) :
    ((erase key l).map Prod.fst).Sublist (l.map Prod.fst) := by
  induction l with
  | nil => exact .slnil
  | cons p l ih =>
      obtain ⟨k,e⟩ := p
      by_cases hk : k = key
      · simpa [erase,hk] using ih.cons k
      · simpa [erase,hk] using ih.cons_cons k

theorem find?_filter_live {l : List (CacheKey × CacheEntry)} (hn : (l.map Prod.fst).Nodup)
    (key : CacheKey) (now : Nat) :
    find? key (l.filter (·.2.isLive now)) = (find? key l).filter (·.isLive now) := by
  induction l with
  | nil => rfl
  | cons p l ih =>
      obtain ⟨k,e⟩ := p
      simp only [List.map_cons,List.nodup_cons] at hn
      by_cases hk : k = key
      · subst hk
        -- a later entry of the same key would surface once this one is dropped; there is none
        have hrest : find? k l = none := find?_eq_none_iff.2 hn.1
        cases hl : e.isLive now with
        | true => simp [hl,find?,Option.filter_some]
        | false => simp [hl,find?,ih hn.2,hrest,Option.filter_some]
      · cases hl : e.isLive now <;> simp [hl,find?,hk,ih hn.2]

end ResponseCache

open ResponseCache

/-- What the cache finds for a key, against what the reference stores for it at a moment: the
same entry, or nothing where the reference's has expired. -/
def EntryAgrees (found stored : Option CacheEntry) (now : Nat) : Prop :=
  found = stored ∨ found = none ∧ ∃ e, stored = some e ∧ e.isLive now = false

namespace EntryAgrees

variable {f s : Option CacheEntry} {e : CacheEntry} {now : Nat}

theorem later (h : EntryAgrees f s now) {now' : Nat} (hle : now ≤ now') : EntryAgrees f s now' := by
  rcases h with h | ⟨hf,e,hs,hd⟩
  · exact .inl h
  · exact .inr ⟨hf,e,hs,CacheEntry.isLive_eq_false_of_le hd hle⟩

theorem eq_of_some (h : EntryAgrees (some e) s now) : s = some e := by
  rcases h with h | ⟨h,-⟩
  · exact h.symm
  · cases h

theorem dead_of_none (h : EntryAgrees none s now) (hs : s = some e) : e.isLive now = false := by
  rcases h with h | ⟨-,e',hs',hd⟩
  · rw [← h] at hs
    cases hs
  · rw [hs] at hs'
    cases hs'
    exact hd

theorem evict (h : EntryAgrees (some e) s now) (hd : e.isLive now = false) :
    EntryAgrees none s now :=
  .inr ⟨rfl,e,h.eq_of_some,hd⟩

theorem filter_live (h : EntryAgrees f s now) : EntryAgrees (f.filter (·.isLive now)) s now := by
  cases f with
  | none => exact h
  | some e =>
      cases hl : e.isLive now with
      | true => simpa [Option.filter_some,hl] using h
      | false => exact .inr ⟨by simp [Option.filter_some,hl],e,h.eq_of_some,hl⟩

end EntryAgrees

/-- The cache simulates the reference at a moment: the same policy, distinct keys, and every
key's entry agreeing. -/
structure Agrees (c : ResponseCache) (R : ReferenceCache) (now : Nat) : Prop where
  policy : c.policy = R.policy
  nodup : (c.entries.map Prod.fst).Nodup
  entry : ∀ k, EntryAgrees (find? k c.entries) (R.store k) now

namespace Agrees

variable {c : ResponseCache} {R : ReferenceCache} {now : Nat}

theorem new (o : ResolverOptions) : Agrees (ResponseCache.new o) (ReferenceCache.new o) now where
  policy := rfl
  nodup := List.nodup_nil
  entry _ := .inl rfl

theorem later (h : Agrees c R now) {now' : Nat} (hle : now ≤ now') : Agrees c R now' where
  policy := h.policy
  nodup := h.nodup
  entry k := (h.entry k).later hle

theorem sweep (h : Agrees c R now) :
    Agrees { c with entries := c.entries.filter (·.2.isLive now) } R now where
  policy := h.policy
  nodup := h.nodup.sublist (List.filter_sublist.map _)
  entry k := by
    simp only [find?_filter_live h.nodup]
    exact (h.entry k).filter_live

theorem swept (h : Agrees c R now) : Agrees { c with entries := c.swept now } R now := by
  unfold ResponseCache.swept
  split
  · exact h.sweep
  · exact h

theorem store (h : Agrees c R now) (key : CacheKey) (e : CacheEntry) :
    Agrees { c with entries := (key,e) :: erase key c.entries }
      { R with store := Function.update R.store key (some e) } now where
  policy := h.policy
  nodup := by
    simp only [List.map_cons,List.nodup_cons]
    exact ⟨find?_eq_none_iff.1 (find?_erase_self key _),h.nodup.sublist (keys_erase_sublist key _)⟩
  entry k := by
    by_cases hk : key = k
    · subst hk
      exact .inl (by simp [find?])
    · simp only [find?,hk,if_false,find?_erase_of_ne (Ne.symm hk),
        Function.update_of_ne (Ne.symm hk)]
      exact h.entry k

theorem evict (h : Agrees c R now) {key : CacheKey} {e : CacheEntry} (hf : find? key c.entries = some e)
    (hd : e.isLive now = false) : Agrees { c with entries := erase key c.entries } R now where
  policy := h.policy
  nodup := h.nodup.sublist (keys_erase_sublist key _)
  entry k := by
    by_cases hk : key = k
    · subst hk
      rw [find?_erase_self]
      exact (hf ▸ h.entry key).evict hd
    · rw [find?_erase_of_ne (Ne.symm hk)]
      exact h.entry k

theorem remove (h : Agrees c R now) (key : CacheKey) : Agrees (c.remove key).2 (R.remove key) now where
  policy := h.policy
  nodup := h.nodup.sublist (keys_erase_sublist key _)
  entry k := by
    by_cases hk : key = k
    · subst hk
      exact .inl (by simp [ResponseCache.remove,ReferenceCache.remove,find?_erase_self])
    · simp only [ResponseCache.remove,ReferenceCache.remove,find?_erase_of_ne (Ne.symm hk),
        Function.update_of_ne (Ne.symm hk)]
      exact h.entry k

theorem clear (h : Agrees c R now) : Agrees c.clear R.clear now where
  policy := h.policy
  nodup := List.nodup_nil
  entry _ := .inl rfl

theorem get (h : Agrees c R now) (key : CacheKey) :
    (c.get now key).1 = R.get now key ∧ Agrees (c.get now key).2 R now := by
  have hk := h.entry key
  unfold ResponseCache.get ReferenceCache.get
  cases hf : find? key c.entries with
  | none =>
      rw [hf] at hk
      refine ⟨?_,h⟩
      cases hs : R.store key with
      | none => rfl
      | some e => simp [hk.dead_of_none hs]
  | some e =>
      rw [hf] at hk
      rw [hk.eq_of_some]
      cases hl : e.isLive now with
      | true => simpa [hl] using h
      | false => simpa [hl] using h.evict hf hl

theorem add (h : Agrees c R now) (key : CacheKey) (r : Response) (allow : Bool) :
    (c.add now key r allow).1 = (R.add now key r allow).1 ∧
      Agrees (c.add now key r allow).2 (R.add now key r allow).2 now := by
  have hp : c.policy.lifetime r allow = R.policy.lifetime r allow := by rw [h.policy]
  unfold ResponseCache.add ReferenceCache.add
  rw [hp]
  cases hlife : R.policy.lifetime r allow with
  | none => exact ⟨rfl,h⟩
  | some life =>
      -- the sweep keeps the agreement, and the key is then looked up in the swept entries
      have hs := h.swept
      have hk := hs.entry key
      have hstore := hs.store key ⟨r,life.deadline now⟩
      simp only
      cases hf : find? key (c.swept now) with
      | some old =>
          rw [hf] at hk
          rw [hk.eq_of_some]
          cases hl : old.isLive now with
          | true => simpa [hl] using hs
          | false => simpa [hl] using hstore
      | none =>
          rw [hf] at hk
          rw [erase_of_find?_eq_none hf] at hstore
          cases hst : R.store key with
          | none => exact ⟨rfl,hstore⟩
          | some e => simpa [hk.dead_of_none hst] using hstore

/-- One operation, read at a moment no later than its own clock, keeps the agreement and answers
as the reference does; the agreement then holds at the operation's clock. -/
theorem step (h : Agrees c R now) (op : CacheOp) (hclock : ∀ t, op.clock? = some t → now ≤ t) :
    (c.step op).1 = (R.step op).1 ∧ Agrees (c.step op).2 (R.step op).2 (op.clock?.getD now) := by
  cases op with
  | add t key r allow =>
      obtain ⟨hans,hag⟩ := (h.later (hclock t rfl)).add key r allow
      exact ⟨by simp only [ResponseCache.step,ReferenceCache.step,hans],hag⟩
  | get t key =>
      obtain ⟨hans,hag⟩ := (h.later (hclock t rfl)).get key
      exact ⟨by simp only [ResponseCache.step,ReferenceCache.step,hans],hag⟩
  | remove key => exact ⟨rfl,h.remove key⟩
  | clear => exact ⟨rfl,h.clear⟩

end Agrees

theorem pairwise_clock_cons {now : Nat} {op : CacheOp} {ops : List CacheOp}
    (h : (now :: (op :: ops).filterMap CacheOp.clock?).Pairwise (· ≤ ·)) :
    (∀ t, op.clock? = some t → now ≤ t) ∧
      (op.clock?.getD now :: ops.filterMap CacheOp.clock?).Pairwise (· ≤ ·) := by
  cases hc : op.clock? with
  | none =>
      rw [List.filterMap_cons_none hc] at h
      exact ⟨fun _ ht => by simp at ht,h⟩
  | some t =>
      rw [List.filterMap_cons_some hc] at h
      obtain ⟨hle,hrest⟩ := List.pairwise_cons.1 h
      exact ⟨fun t' ht => Option.some_inj.1 ht ▸ hle t List.mem_cons_self,hrest⟩

/-- The run lemma: from an agreement at a moment no later than any clock to come, a run answers
as the reference does and ends in agreement. -/
theorem Agrees.runOps {c : ResponseCache} {R : ReferenceCache} {now : Nat} (h : Agrees c R now)
    (ops : List CacheOp) (hclock : (now :: ops.filterMap CacheOp.clock?).Pairwise (· ≤ ·)) :
    (c.runOps ops).1 = (R.runOps ops).1 ∧ ∃ t, Agrees (c.runOps ops).2 (R.runOps ops).2 t := by
  induction ops generalizing c R now with
  | nil => exact ⟨rfl,now,h⟩
  | cons op ops ih =>
      obtain ⟨hop,hrest⟩ := pairwise_clock_cons hclock
      obtain ⟨hans,hag⟩ := h.step op hop
      obtain ⟨hans',hag'⟩ := ih hag hrest
      exact ⟨by simp only [ResponseCache.runOps,ReferenceCache.runOps,hans,hans'],hag'⟩

/-- Under a clock that never goes back, a fresh cache answers every `add` and `get` as the
store that never forgets does, and it never holds two entries of one key. -/
theorem runOps_refines (o : ResolverOptions) (ops : List CacheOp)
    (hclock : (ops.filterMap CacheOp.clock?).Pairwise (· ≤ ·)) :
    ((ResponseCache.new o).runOps ops).1 = ((ReferenceCache.new o).runOps ops).1 ∧
      (((ResponseCache.new o).runOps ops).2.entries.map Prod.fst).Nodup := by
  have h0 : (0 :: ops.filterMap CacheOp.clock?).Pairwise (· ≤ ·) :=
    List.pairwise_cons.2 ⟨fun t _ => Nat.zero_le t,hclock⟩
  obtain ⟨hans,_,hag⟩ := (Agrees.new o).runOps ops h0
  exact ⟨hans,hag.nodup⟩

/-! ### Filling a cache -/

namespace ResponseCache

theorem runOps_append (c : ResponseCache) (ops₁ ops₂ : List CacheOp) :
    c.runOps (ops₁ ++ ops₂) =
      ((c.runOps ops₁).1 ++ ((c.runOps ops₁).2.runOps ops₂).1,((c.runOps ops₁).2.runOps ops₂).2) := by
  induction ops₁ generalizing c with
  | nil => rfl
  | cons op ops ih => simp only [List.cons_append,runOps,ih]

theorem swept_of_lt {c : ResponseCache} (now : Nat) (h : c.len < sweepInterval) :
    c.swept now = c.entries := by
  unfold swept
  split
  · rename_i hs
    simp only [Bool.and_eq_true,decide_eq_true_eq,beq_iff_eq] at hs
    unfold sweepInterval at h hs
    rw [Nat.mod_eq_of_lt h] at hs
    omega
  · rfl

theorem add_of_fresh {c : ResponseCache} {now : Nat} {key : CacheKey} {r : Response}
    {allow : Bool} {life : Timeout} (hlife : c.policy.lifetime r allow = some life)
    (hf : find? key c.entries = none) (hlen : c.len < sweepInterval) :
    c.add now key r allow = (true,{ c with entries := (key,⟨r,life.deadline now⟩) :: c.entries }) := by
  simp only [add,hlife,swept_of_lt now hlen,hf]

/-- Additions under distinct fresh keys that stay below the sweep interval all store, each in
front of the ones before. -/
theorem runOps_add_fresh {now : Nat} {r : Response} {allow : Bool} {life : Timeout} :
    ∀ (ks : List CacheKey) (c : ResponseCache), c.policy.lifetime r allow = some life →
      ks.Nodup → (∀ k ∈ ks, find? k c.entries = none) → c.len + ks.length ≤ sweepInterval →
      c.runOps (ks.map fun k => .add now k r allow) =
        (ks.map fun _ => .added true,
          { c with entries := (ks.reverse.map fun k => (k,⟨r,life.deadline now⟩)) ++ c.entries })
  | [], c, _, _, _, _ => rfl
  | k :: ks, c, hlife, hnd, hf, hlen => by
    obtain ⟨hk,hnd'⟩ := List.nodup_cons.1 hnd
    have hstep : c.add now k r allow =
        (true,{ c with entries := (k,⟨r,life.deadline now⟩) :: c.entries }) :=
      add_of_fresh hlife (hf k List.mem_cons_self) (by simp only [List.length_cons] at hlen; omega)
    have hf' : ∀ k' ∈ ks, find? k' ((k,⟨r,life.deadline now⟩) :: c.entries) = none := by
      intro k' hk'
      have hne : k ≠ k' := fun h => hk (h ▸ hk')
      simp only [find?,hne,if_false]
      exact hf k' (List.mem_cons_of_mem k hk')
    have hrest := @runOps_add_fresh now r allow life ks { c with entries := (k,⟨r,life.deadline now⟩) :: c.entries }
      hlife hnd' hf' (by simp only [len,List.length_cons] at hlen ⊢; omega)
    simp only [List.map_cons,runOps,step,hstep,hrest,List.reverse_cons,List.map_append,
      List.map_cons,List.map_nil,List.append_assoc,List.singleton_append]

end ResponseCache

/-- A fresh cache under the default options, filled with 1023 responses that live one second,
then: a response that lives five minutes fills it to the sweep interval; a lookup of a filler
finds it; the next addition, after the fillers have expired, sweeps them all and is refused
because the five-minute entry is live; the filler is then gone; once the five-minute entry has
expired it is replaced, and found. Both caches answer alike throughout. -/
theorem runOps_refines_replaced :
    let key : CacheKey := ⟨[[101,120]],RecordType.a,RecordClass.inet⟩
    let answer (ttl : UInt32) : Response :=
      { (default : Response) with
        answers := [ResourceRecord.new ⟨[[101,120]]⟩ RecordClass.inet ttl
          (.a (Ipv4Address.ofOctets 192 0 2 1))] }
    let filler (i : Nat) : CacheKey :=
      ⟨[[(i % 256).toUInt8,(i / 256).toUInt8]],RecordType.a,RecordClass.inet⟩
    let ops := ((List.range 1023).map filler).map (fun k => CacheOp.add 0 k (answer 1) false) ++
      [.add 0 key (answer 300) false,.get 500 (filler 0),.add 2000 key (answer 60) false,
        .get 2000 (filler 0),.add 400000 key (answer 60) false,.get 400000 key,.remove key,.clear]
    (ops.filterMap CacheOp.clock?).Pairwise (· ≤ ·) ∧
      (((ResponseCache.new .default).runOps ops).1 = ((ReferenceCache.new .default).runOps ops).1 ∧
        (((ResponseCache.new .default).runOps ops).2.entries.map Prod.fst).Nodup) ∧
      ((ResponseCache.new .default).runOps ops).1.map CacheReply.succeeded =
        List.replicate 1023 true ++ [true,true,false,false,true,true,false,false] ∧
      ((ResponseCache.new .default).runOps (ops.take 1026)).2.len = 1 := by
  intro key answer filler ops
  have hclock : (ops.filterMap CacheOp.clock?).Pairwise (· ≤ ·) := by decide +kernel
  have hnd : ((List.range 1023).map filler).Nodup := by
    refine (List.nodup_range).map_on fun i hi j hj h => ?_
    simp only [filler,CacheKey.mk.injEq,List.cons.injEq,and_true] at h
    have h₁ := congrArg UInt8.toNat h.1
    have h₂ := congrArg UInt8.toNat h.2
    simp only [Nat.toUInt8_eq,UInt8.toNat_ofNat'] at h₁ h₂
    simp only [List.mem_range] at hi hj
    omega
  have hfill := @ResponseCache.runOps_add_fresh 0 (answer 1) false (.finite 1000)
    ((List.range 1023).map filler) (ResponseCache.new .default) (by decide +kernel) hnd
    (fun _ _ => rfl) (by simp [ResponseCache.new,ResponseCache.len,ResponseCache.sweepInterval])
  refine ⟨hclock,runOps_refines .default ops hclock,?_,?_⟩
  · -- the fillers all store; the rest runs on the filled cache
    rw [show ops = _ ++ _ from rfl,ResponseCache.runOps_append,hfill]
    decide +kernel
  · rw [show ops.take 1026 =
        ((List.range 1023).map filler).map (fun k => CacheOp.add 0 k (answer 1) false) ++
          [.add 0 key (answer 300) false,.get 500 (filler 0),.add 2000 key (answer 60) false] by
          simp only [ops,List.take_append,List.length_map,List.length_range]
          rw [List.take_of_length_le (by simp)]
          rfl,
      ResponseCache.runOps_append,hfill]
    decide +kernel

end DnsStub
