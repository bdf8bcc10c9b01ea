import DnsStub.Wire.Reader
/-!
# Reads that move forward

A read advances when every success leaves the position at least one byte further on. Reads
built from primitives by sequencing inherit this, and a read that advances can be repeated
until a stop offset: each round shortens the distance to it, so the repetition ends.
-/
namespace DnsStub

namespace Reader

/-- A read that, whenever it succeeds, moves the position forward by at least one byte. -/
def Advances {α : Type} (m : ReadM α) : Prop :=
  ∀ r a r', m r = .ok a r' → r.pos < r'.pos

/-- A read that never moves the position backward when it succeeds. -/
def Forward {α : Type} (m : ReadM α) : Prop :=
  ∀ r a r', m r = .ok a r' → r.pos ≤ r'.pos

theorem Advances.forward {α : Type} {m : ReadM α} (h : Advances m) : Forward m :=
  fun r a r' hr => Nat.le_of_lt (h r a r' hr)

theorem pos_readVector {n : Nat} {r r' : Reader} {v : Vector UInt8 n}
    (h : readVector n r = .ok v r') : r'.pos = r.pos + n := by
  by_cases hn : r.pos + n ≤ r.limit
  · rw [readVector, dif_pos hn] at h
    cases h
    rfl
  · rw [readVector, dif_neg hn] at h
    cases h

theorem forward_bind {α β : Type} {m : ReadM α} {f : α → ReadM β} (hm : Forward m)
    (hf : ∀ a, Forward (f a)) : Forward (m >>= f) := by
  intro r b r' h
  simp only [bind, EStateM.bind] at h
  split at h
  · next a s hs => exact Nat.le_trans (hm _ _ _ hs) (hf a _ _ _ h)
  · cases h

theorem advances_bind_left {α β : Type} {m : ReadM α} {f : α → ReadM β} (hm : Advances m)
    (hf : ∀ a, Forward (f a)) : Advances (m >>= f) := by
  intro r b r' h
  simp only [bind, EStateM.bind] at h
  split at h
  · next a s hs => exact Nat.lt_of_lt_of_le (hm _ _ _ hs) (hf a _ _ _ h)
  · cases h

theorem advances_bind_right {α β : Type} {m : ReadM α} {f : α → ReadM β} (hm : Forward m)
    (hf : ∀ a, Advances (f a)) : Advances (m >>= f) := by
  intro r b r' h
  simp only [bind, EStateM.bind] at h
  split at h
  · next a s hs => exact Nat.lt_of_le_of_lt (hm _ _ _ hs) (hf a _ _ _ h)
  · cases h

theorem forward_pure {α : Type} (a : α) : Forward (pure a : ReadM α) := by
  intro r b r' h
  simp only [pure, EStateM.pure, EStateM.Result.ok.injEq] at h
  obtain ⟨-, rfl⟩ := h
  exact Nat.le_refl _

theorem forward_map {α β : Type} (f : α → β) {m : ReadM α} (hm : Forward m) : Forward (f <$> m) := by
  intro r b r' h
  simp only [Functor.map, EStateM.map] at h
  split at h
  · next a s hs =>
    simp only [EStateM.Result.ok.injEq] at h
    rw [← h.2]; exact hm _ _ _ hs
  · cases h

theorem advances_map {α β : Type} (f : α → β) {m : ReadM α} (hm : Advances m) : Advances (f <$> m) := by
  intro r b r' h
  simp only [Functor.map, EStateM.map] at h
  split at h
  · next a s hs =>
    simp only [EStateM.Result.ok.injEq] at h
    rw [← h.2]; exact hm _ _ _ hs
  · cases h

theorem forward_readVector (n : Nat) : Forward (readVector n) := by
  intro r v r' h; rw [pos_readVector h]; exact Nat.le_add_right _ _

theorem advances_readVector {n : Nat} (hn : 0 < n) : Advances (readVector n) := by
  intro r v r' h; rw [pos_readVector h]; omega

theorem forward_readBytes (n : Nat) : Forward (readBytes n) :=
  forward_map _ (forward_readVector n)

theorem advances_readU8 : Advances readU8 :=
  advances_bind_left (advances_readVector (by decide)) fun _ => forward_pure _

theorem advances_readU16 : Advances readU16 :=
  advances_bind_left (advances_readVector (by decide)) fun _ => forward_pure _

theorem advances_readCharacterString : Advances readCharacterString :=
  advances_bind_left advances_readU8 fun _ => forward_readBytes _

theorem forward_get : Forward (get : ReadM Reader) := by
  intro r b r' h
  cases h
  exact Nat.le_refl _

theorem advances_throw {α : Type} (e : WireError) : Advances (throw e : ReadM α) := by
  intro r b r' h
  cases h

theorem forward_throw {α : Type} (e : WireError) : Forward (throw e : ReadM α) :=
  (advances_throw e).forward

/-- Repeats an advancing read while the position is before stop, collecting the values. -/
def repeatFrom {α : Type} (step : ReadM α) (adv : Advances step) (stop : Nat) (acc : Array α)
    (r : Reader) : EStateM.Result WireError Reader (List α) :=
  if _ : r.pos < stop then
    match _ : step r with
    | .ok a r' => repeatFrom step adv stop (acc.push a) r'
    | .error e r' => .error e r'
  else .ok acc.toList r
termination_by stop - r.pos
decreasing_by have := adv _ _ _ (by assumption); omega

def repeatBefore {α : Type} (step : ReadM α) (adv : Advances step) (stop : Nat) : ReadM (List α) :=
  repeatFrom step adv stop #[]

end Reader

end DnsStub
