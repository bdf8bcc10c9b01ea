import Mathlib
import DnsStub.Resolve.Cache
/-!
# How long a response is cached

Timeouts are ordered by length, the infinite one above every finite one. This is a linear order,
taken from `WithTop ℕ`, and the two clamps of a cache policy are its `⊔` and `⊓`.

A success response lives for its smallest TTL other than an OPT record's, raised to the
minimum and then lowered to the maximum, and is not cached when that comes to zero. An error
response lives for the failure duration when failures may be cached and that duration is not
zero, whatever the clamps.

Main statements: `lifetime_eq`, the lifetime in these terms; `le_lifetime` and `lifetime_le`, a
success lifetime lies between the clamps; `lifetime_mono`, raising TTLs never shortens the time
a response is kept.
-/
namespace DnsStub

namespace Timeout

/-- The length of a timeout, the infinite one at the top. -/
def length : Timeout → WithTop ℕ
  | finite ms => ms
  | infinite => ⊤

theorem length_injective : Function.Injective length := by
  intro a b h
  cases a with
  | finite a =>
    cases b with
    | finite b => simpa [length] using h
    | infinite => simp [length] at h
  | infinite =>
    cases b with
    | finite b => simp [length] at h
    | infinite => rfl

/-- Timeouts in order of length. Scoped, so that deciding equality of timeouts elsewhere keeps
its derived instance. -/
scoped instance : LinearOrder Timeout := LinearOrder.lift' length length_injective

theorem le_iff_length {a b : Timeout} : a ≤ b ↔ a.length ≤ b.length := Iff.rfl

@[simp] theorem finite_le_finite {a b : ℕ} : finite a ≤ finite b ↔ a ≤ b := by
  simp [le_iff_length, length]

@[simp] theorem le_infinite (a : Timeout) : a ≤ infinite := by
  simp [le_iff_length, length]

theorem atMost_iff (a b : Timeout) : a.atMost b = true ↔ a ≤ b := by
  cases a <;> cases b <;> simp [atMost, le_iff_length, length]

theorem max_eq_sup (a b : Timeout) : a.max b = a ⊔ b := by
  rw [Timeout.max, max_def]
  by_cases h : a ≤ b
  · simp [h, (atMost_iff a b).2 h]
  · simp [h, mt (atMost_iff a b).1 h]

theorem min_eq_inf (a b : Timeout) : a.min b = a ⊓ b := by
  rw [Timeout.min, min_def]
  by_cases h : a ≤ b
  · simp [h, (atMost_iff a b).2 h]
  · simp [h, mt (atMost_iff a b).1 h]

end Timeout

open scoped Timeout

namespace CachePolicy

/-- A timeout raised to the minimum and then lowered to the maximum, each when it is set. -/
def clamp (p : CachePolicy) (t : Timeout) : Timeout :=
  let raised := match p.minimum with
    | some lo => t ⊔ lo
    | none => t
  match p.maximum with
  | some hi => raised ⊓ hi
  | none => raised

/-- The minimum is at most the maximum when both are set. -/
def Ordered (p : CachePolicy) : Prop :=
  ∀ lo hi, p.minimum = some lo → p.maximum = some hi → lo ≤ hi

theorem ordered_ofOptions {o : ResolverOptions} (h : o.validate = .ok ()) : (ofOptions o).Ordered := by
  intro lo hi hlo hhi
  simp only [ofOptions] at hlo hhi
  simp only [ResolverOptions.validate, hlo, hhi] at h
  split at h
  · cases h
  · split at h
    · exact (Timeout.atMost_iff lo hi).1 ‹_›
    · cases h

theorem clamp_mono (p : CachePolicy) : Monotone p.clamp := by
  intro a b hab
  -- each clamp is a join or a meet with a fixed bound, and both are monotone
  have hraise : (match p.minimum with | some lo => a ⊔ lo | none => a) ≤
      (match p.minimum with | some lo => b ⊔ lo | none => b) := by
    cases p.minimum with
    | some lo => exact sup_le_sup_right hab lo
    | none => exact hab
  unfold clamp
  cases p.maximum with
  | some hi => exact inf_le_inf_right hi hraise
  | none => exact hraise

theorem le_clamp {p : CachePolicy} (hp : p.Ordered) {lo : Timeout} (hlo : p.minimum = some lo)
    (t : Timeout) : lo ≤ p.clamp t := by
  have hraised : lo ≤ t ⊔ lo := le_sup_right
  unfold clamp
  cases hhi : p.maximum with
  | some hi => simpa [hlo] using And.intro hraised (hp lo hi hlo hhi)
  | none => simp [hlo, hraised]

theorem clamp_le {p : CachePolicy} {hi : Timeout} (hhi : p.maximum = some hi) (t : Timeout) :
    p.clamp t ≤ hi := by
  unfold clamp
  rw [hhi]
  exact inf_le_right

/-- The lifetime as a timeout, a response that is not cached counting as zero. -/
def keptFor (life : Option Timeout) : Timeout :=
  life.getD (.finite 0)

end CachePolicy

namespace Response

/-- The TTLs of the records other than OPT, in section order. -/
def ttls (r : Response) : List UInt32 :=
  (r.records.filter fun rr => rr.rtype != .opt).map (·.ttl)

theorem minTtl_eq (r : Response) : r.minTtl = r.ttls.min?.getD 0 := by
  unfold minTtl
  rw [← ttls]
  cases r.ttls with
  | nil => rfl
  | cons t ts => rfl

/-- The records of the second response are those of the first, in order, each of the same type
and with a TTL at least as large, and the response code is the same. -/
def TtlsLe (r r' : Response) : Prop :=
  r.responseCode = r'.responseCode ∧
    List.Forall₂ (fun a b => a.rtype = b.rtype ∧ a.ttl ≤ b.ttl) r.records r'.records

theorem forall₂_filter_ttl {rs rs' : List ResourceRecord}
    (h : List.Forall₂ (fun a b => a.rtype = b.rtype ∧ a.ttl ≤ b.ttl) rs rs') :
    List.Forall₂ (· ≤ ·) ((rs.filter fun rr => rr.rtype != .opt).map (·.ttl))
      ((rs'.filter fun rr => rr.rtype != .opt).map (·.ttl)) := by
  induction h with
  | nil => exact .nil
  | @cons a b as bs hab _ ih =>
    by_cases ho : a.rtype = .opt
    · simpa [ho, ← hab.1] using ih
    · simpa [ho, ← hab.1] using List.Forall₂.cons hab.2 ih

theorem forall₂_ttls {r r' : Response} (h : TtlsLe r r') : List.Forall₂ (· ≤ ·) r.ttls r'.ttls :=
  forall₂_filter_ttl h.2

theorem foldl_min_le {as bs : List UInt32} (h : List.Forall₂ (· ≤ ·) as bs) :
    ∀ {a b : UInt32}, a ≤ b → as.foldl min a ≤ bs.foldl min b := by
  induction h with
  | nil => exact fun hab => hab
  | @cons x y xs ys hxy _ ih =>
    intro a b hab
    apply ih
    rw [UInt32.le_iff_toNat_le, UInt32.toNat_min, UInt32.toNat_min]
    have := UInt32.le_iff_toNat_le.1 hab
    have := UInt32.le_iff_toNat_le.1 hxy
    omega

theorem minTtl_mono {r r' : Response} (h : TtlsLe r r') : r.minTtl ≤ r'.minTtl := by
  rw [minTtl_eq, minTtl_eq]
  -- both lists are empty, or both have a first TTL that starts the running minimum
  generalize hl : r.ttls = l
  generalize hl' : r'.ttls = l'
  have ht : List.Forall₂ (· ≤ ·) l l' := hl ▸ hl' ▸ forall₂_ttls h
  cases ht with
  | nil => exact UInt32.le_refl 0
  | cons hab hrest => exact foldl_min_le hrest hab

end Response

namespace CachePolicy

variable (p : CachePolicy) (r : Response) (allow : Bool)

/-- The lifetime of a response: for a success the smallest TTL, in milliseconds, clamped, and
none when that is zero; for an error the failure duration when failures may be kept and it is
not zero. -/
theorem lifetime_eq :
    p.lifetime r allow =
      if r.responseCode = .noError then
        let life := p.clamp (.finite ((r.ttls.min?.getD 0).toNat * 1000))
        if life = .finite 0 then none else some life
      else if allow ∧ 0 < p.failureDuration then some (.finite p.failureDuration) else none := by
  unfold lifetime
  by_cases hs : r.responseCode = .noError
  · have hsucc : r.responseCode.isSuccess = true := by simp [ResponseCode.isSuccess, hs]
    simp only [hsucc, Bool.not_true, Bool.false_eq_true, if_false, if_pos hs, Response.minTtl_eq]
    -- the model's clamps are the lattice operations of the order, one case per clamp set
    obtain ⟨lo, hi, f⟩ := p
    cases lo <;> cases hi <;> simp only [clamp, Timeout.max_eq_sup, Timeout.min_eq_inf] <;> congr
  · have hfail : r.responseCode.isSuccess = false := by simp [ResponseCode.isSuccess, hs]
    simp only [hfail, Bool.not_false, if_true, if_neg hs]
    by_cases ha : allow = true <;> by_cases hf : p.failureDuration = 0 <;> simp [ha, hf]

theorem lifetime_of_success (hs : r.responseCode = .noError) :
    p.lifetime r allow =
      if p.clamp (.finite (r.minTtl.toNat * 1000)) = .finite 0 then none
      else some (p.clamp (.finite (r.minTtl.toNat * 1000))) := by
  rw [lifetime_eq, if_pos hs, Response.minTtl_eq]

theorem le_lifetime {p : CachePolicy} (hp : p.Ordered) {r : Response} {allow : Bool}
    (hs : r.responseCode = .noError) {t lo : Timeout} (ht : p.lifetime r allow = some t)
    (hlo : p.minimum = some lo) : lo ≤ t := by
  rw [lifetime_of_success p r allow hs] at ht
  split at ht
  · cases ht
  · cases ht
    exact le_clamp hp hlo _

theorem lifetime_le {p : CachePolicy} {r : Response} {allow : Bool}
    (hs : r.responseCode = .noError) {t hi : Timeout} (ht : p.lifetime r allow = some t)
    (hhi : p.maximum = some hi) : t ≤ hi := by
  rw [lifetime_of_success p r allow hs] at ht
  split at ht
  · cases ht
  · cases ht
    exact clamp_le hhi _

theorem keptFor_lifetime_of_success (hs : r.responseCode = .noError) :
    keptFor (p.lifetime r allow) = p.clamp (.finite (r.minTtl.toNat * 1000)) := by
  rw [lifetime_of_success p r allow hs]
  split
  · next h => exact h.symm
  · rfl

theorem lifetime_mono {r r' : Response} (h : r.TtlsLe r') :
    keptFor (p.lifetime r allow) ≤ keptFor (p.lifetime r' allow) := by
  by_cases hs : r.responseCode = .noError
  · have hs' : r'.responseCode = .noError := h.1 ▸ hs
    rw [keptFor_lifetime_of_success p r allow hs, keptFor_lifetime_of_success p r' allow hs']
    apply p.clamp_mono
    have hm := Response.minTtl_mono h
    simp only [Timeout.finite_le_finite]
    have : r.minTtl.toNat ≤ r'.minTtl.toNat := UInt32.le_iff_toNat_le.1 hm
    omega
  · have hs' : ¬r'.responseCode = .noError := h.1 ▸ hs
    rw [lifetime_eq, lifetime_eq, if_neg hs, if_neg hs']

/-- How long a response is cached: the clamped smallest TTL for a success, zero not cached;
the failure duration for an error, when failures may be kept and it is not zero. With ordered
clamps a success lifetime lies between them, and raising TTLs never shortens it. -/
theorem lifetime_clamped_minTtl (hp : p.Ordered) :
    (p.lifetime r allow =
      if r.responseCode = .noError then
        let life := p.clamp (.finite ((r.ttls.min?.getD 0).toNat * 1000))
        if life = .finite 0 then none else some life
      else if allow ∧ 0 < p.failureDuration then some (.finite p.failureDuration) else none) ∧
    (∀ t, r.responseCode = .noError → p.lifetime r allow = some t →
      (∀ lo ∈ p.minimum, lo ≤ t) ∧ ∀ hi ∈ p.maximum, t ≤ hi) ∧
    ∀ r', r.TtlsLe r' → keptFor (p.lifetime r allow) ≤ keptFor (p.lifetime r' allow) :=
  ⟨lifetime_eq p r allow,
    fun _ hs ht => ⟨fun _ hlo => le_lifetime hp hs ht hlo, fun _ hhi => lifetime_le hs ht hhi⟩,
    fun _ h => lifetime_mono p allow h⟩

/-- Options with a one-minute minimum and a one-hour maximum, and a response whose answers live
300 and 30 seconds. -/
theorem lifetime_clamped_minTtl_raised :
    let o : ResolverOptions :=
      { minimumCacheTimeout := some (.finite 60000), maximumCacheTimeout := some (.finite 3600000) }
    let p := ofOptions o
    let rr := fun ttl => ResourceRecord.new ⟨[[101, 120]]⟩ .inet ttl
      (.a (Ipv4Address.ofOctets 192 0 2 1))
    let r : Response := { (default : Response) with
      responseCode := .noError, answers := [rr 300, rr 30] }
    p.Ordered ∧
      (p.lifetime r false =
        if r.responseCode = .noError then
          let life := p.clamp (.finite ((r.ttls.min?.getD 0).toNat * 1000))
          if life = .finite 0 then none else some life
        else if false = true ∧ 0 < p.failureDuration then some (.finite p.failureDuration)
        else none) ∧
      (∀ t, r.responseCode = .noError → p.lifetime r false = some t →
        (∀ lo ∈ p.minimum, lo ≤ t) ∧ ∀ hi ∈ p.maximum, t ≤ hi) ∧
      ∀ r', r.TtlsLe r' → keptFor (p.lifetime r false) ≤ keptFor (p.lifetime r' false) := by
  intro o p rr r
  have hp : p.Ordered := ordered_ofOptions rfl
  exact ⟨hp, lifetime_clamped_minTtl p r false hp⟩

end CachePolicy

end DnsStub
