import Mathlib
import DnsStub.Text.Punycode
/-!
# Decoding punycode inverts encoding

The decoder reads one variable-length integer per code point and inserts that code point; the
encoder writes one integer each time its scan meets the code point of the current round. The
two are matched step by step: while the encoder scans round `m`, having passed the prefix `pre`
of the code points, the decoder has produced the code points below `m` together with the copies
of `m` in `pre`, and its insertion index plus the encoder's delta is the number of insertion
slots between the decoder's last code point and the current one (`Scanning`). Between rounds the
same holds with every code point below the next round's (`Between`).

The decoder checks its arithmetic against 2^32 at places where the encoder does not, so a text
that encodes may fail to decode: its insertion index is the encoder's delta plus the position of
the last insertion. The decoder never produces another text, and for a text of at most 3855 code
points no check fails (`decode_encode`): the bias stays at most 215, so every weight the decoder
forms is at most 35^6 or below the integer it reads, and the index is fewer than 0x110000 - 0x80
passes over at most 3855 slots. A text of 3856 code points can fail (`decode_encode_overflow`).
-/
namespace DnsStub.Punycode

theorem digitValue_digitChar {d : Nat} (h : d < 36) : digitValue (digitChar d) = some d := by
  have key : ∀ e < 36, digitValue (digitChar e) = some e := by decide
  exact key d h

theorem digitChar_plain {d : Nat} (h : d < 36) : digitChar d ≠ '-' ∧ (digitChar d).toNat < 0x80 := by
  have key : ∀ e < 36, digitChar e ≠ '-' ∧ (digitChar e).toNat < 0x80 := by decide
  exact key d h

/-- The characters that make up the digits of an encoding. -/
def Plain (cs : List Char) : Prop := ∀ c ∈ cs, c ≠ '-' ∧ c.toNat < 0x80

theorem Plain.append {cs ds : List Char} (h₁ : Plain cs) (h₂ : Plain ds) : Plain (cs ++ ds) := by
  intro c hc
  rcases List.mem_append.1 hc with hc | hc
  · exact h₁ c hc
  · exact h₂ c hc

theorem plain_encodeDigits (bias k q : Nat) : Plain (encodeDigits bias k q) := by
  fun_induction encodeDigits bias k q with
  | case1 k q t hq =>
    have := threshold_le k bias
    simpa [Plain] using digitChar_plain (show q < 36 by omega)
  | case2 k q t hq ih =>
    have := threshold_le k bias
    have : (q - t) % (36 - t) < 36 - t := Nat.mod_lt _ (by omega)
    intro c hc
    rcases List.mem_cons.1 hc with rfl | hc
    · exact digitChar_plain (by omega)
    · exact ih c hc

theorem encodeDigits_ne_nil (bias k q : Nat) : encodeDigits bias k q ≠ [] := by
  rw [encodeDigits]
  split <;> simp

/-! ## The relation between a result and the result it reaches unless a check fails -/

/-- The result `r` is `v` or a failure, and it is `v` when `safe` holds. -/
def Yields {α : Type} (safe : Prop) (r v : Option α) : Prop :=
  (r = v ∨ r = none) ∧ (safe → r = v)

namespace Yields

variable {α : Type} {safe safe' : Prop} {r v u : Option α}

theorem of_eq (h : r = v) : Yields safe r v := ⟨.inl h, fun _ => h⟩

theorem fail (h : ¬ safe) : Yields safe none v := ⟨.inr rfl, fun hs => absurd hs h⟩

theorem mono (h : Yields safe r v) (hs : safe' → safe) : Yields safe' r v :=
  ⟨h.1, fun h' => h.2 (hs h')⟩

theorem trans (h₁ : Yields safe r v) (h₂ : Yields safe v u) : Yields safe r u := by
  refine ⟨?_, fun hs => (h₁.2 hs).trans (h₂.2 hs)⟩
  rcases h₁.1 with rfl | rfl
  · exact h₂.1
  · exact .inr rfl

end Yields

/-! ## The bias -/

theorem wordBound_lt_adaptRange : wordBound < 456 * 35 ^ 5 := by
  unfold wordBound
  norm_num

theorem adaptShare_lt (delta : Nat) : 36 * delta / (delta + 38) < 36 :=
  (Nat.div_lt_iff_lt_mul (by omega)).2 (by omega)

theorem div_lt_adaptRange {delta j : Nat} (h : delta < 456 * 35 ^ (j + 1)) :
    delta / 35 < 456 * 35 ^ j := by
  rw [Nat.div_lt_iff_lt_mul (by omega)]
  rw [Nat.pow_succ, ← Nat.mul_assoc] at h
  exact h

/-- Below 456 * 35^j the loop divides at most j times, adding 36 each time. -/
theorem adaptLoop_le : ∀ (j delta k : Nat), delta < 456 * 35 ^ j →
    adaptLoop delta k ≤ k + 36 * j + 35
  | 0, delta, k, h => by
    rw [adaptLoop, if_neg (by omega)]
    have := adaptShare_lt delta
    omega
  | j + 1, delta, k, h => by
    rw [adaptLoop]
    split
    · have := adaptLoop_le j (delta / 35) (k + 36) (div_lt_adaptRange h)
      omega
    · have := adaptShare_lt delta
      omega

theorem adaptInput_le (delta numPoints : Nat) (first : Bool) :
    delta / (if first then 700 else 2) + delta / (if first then 700 else 2) / numPoints ≤ delta := by
  have := Nat.div_le_self (delta / (if first then 700 else 2)) numPoints
  cases first <;> simp only [Bool.false_eq_true, if_true, if_false] at this ⊢ <;> omega

theorem adapt_le {delta : Nat} (numPoints : Nat) (first : Bool) (h : delta < wordBound) :
    adapt delta numPoints first ≤ 215 := by
  have := adaptInput_le delta numPoints first
  exact adaptLoop_le 5 _ 0 (by have := wordBound_lt_adaptRange; omega)

/-! ## One integer -/

/-- While the position is below 252 the weight is at most 35 to the number of digits read; from
252 on, with a bias at most 215, every threshold is 26. -/
theorem weight_lt_of_continue {bias k q w : Nat} (hb : bias ≤ 215)
    (hw : k < 252 → w * 35 ≤ 35 ^ (k / 36)) (hq : threshold k bias ≤ q) (hi : q * w < wordBound) :
    w * (36 - threshold k bias) < wordBound := by
  have ht₁ := one_le_threshold k bias
  by_cases hk : k < 252
  · -- at most six digits in: the weight is at most 35^6
    have hpow : 35 ^ (k / 36) ≤ 35 ^ 6 := Nat.pow_le_pow_right (by omega) (by omega)
    have : w * (36 - threshold k bias) ≤ w * 35 := Nat.mul_le_mul_left w (by omega)
    unfold wordBound
    have := hw hk
    norm_num at hpow
    omega
  · -- the threshold is 26, so the digit itself is at least 26 times the weight
    have ht : threshold k bias = 26 := by unfold threshold; split <;> (try split) <;> omega
    rw [ht] at hq ⊢
    have : w * 26 ≤ q * w := by rw [Nat.mul_comm w]; exact Nat.mul_le_mul_right w hq
    omega

/-- Reading the digits of `q` adds `q` times the weight to the index, or fails. With a bias at
most 215 it cannot fail while `q * w + i` stays below 2^32: the index only grows towards it, and
a weight the reader forms is either at most 35^6 or at most the part of `q` already read. -/
theorem decodeDigits_encodeDigits (bias k q w i : Nat) (rest : List Char) (hb : bias ≤ 215)
    (hw : k < 252 → w * 35 ≤ 35 ^ (k / 36)) :
    Yields (q * w + i < wordBound)
      (decodeDigits bias (encodeDigits bias k q ++ rest) k w i) (some (q * w + i, rest)) := by
  fun_induction encodeDigits bias k q generalizing w i with
  | case1 k q t hq =>
    have ht : t ≤ 26 := threshold_le k bias
    rw [List.singleton_append, decodeDigits, digitValue_digitChar (by omega)]
    simp only [← show t = threshold k bias from rfl, if_pos hq]
    by_cases hb : wordBound ≤ q * w + i
    · rw [if_pos hb]
      exact .fail (by omega)
    · rw [if_neg hb]
      exact .of_eq rfl
  | case2 k q t hq ih =>
    have ht₁ : 1 ≤ t := one_le_threshold k bias
    have ht₂ : t ≤ 26 := threshold_le k bias
    -- the digit is t plus the remainder; the quotient is carried by the next digits
    have hr : (q - t) % (36 - t) < 36 - t := Nat.mod_lt _ (by omega)
    have hsplit : q * w = (q - t) / (36 - t) * (w * (36 - t)) + (t + (q - t) % (36 - t)) * w := by
      have hq' : q = (q - t) / (36 - t) * (36 - t) + (q - t) % (36 - t) + t := by
        have := Nat.div_add_mod' (q - t) (36 - t)
        omega
      conv => lhs; rw [hq']
      ring
    have hdigit : (t + (q - t) % (36 - t)) * w ≤ q * w := by rw [hsplit]; omega
    rw [List.cons_append, decodeDigits, digitValue_digitChar (by omega)]
    simp only [← show t = threshold k bias from rfl,
      if_neg (show ¬ t + (q - t) % (36 - t) < t by omega)]
    by_cases hb' : wordBound ≤ (t + (q - t) % (36 - t)) * w + i
    · rw [if_pos hb']
      exact .fail (by omega)
    · rw [if_neg hb']
      by_cases hm : wordBound ≤ w * (36 - t)
      · rw [if_pos hm]
        refine .fail fun hs => ?_
        have hwl : w * (36 - t) < wordBound :=
          weight_lt_of_continue hb hw (Nat.not_lt.1 hq) (by omega)
        omega
      · have hv : (q - t) / (36 - t) * (w * (36 - t)) + ((t + (q - t) % (36 - t)) * w + i) =
            q * w + i := by omega
        -- the next weight is at most 35 times this one
        have hw' : k + 36 < 252 → w * (36 - t) * 35 ≤ 35 ^ ((k + 36) / 36) := by
          intro hk
          have h₁ : w * (36 - t) ≤ w * 35 := Nat.mul_le_mul_left w (by omega)
          have h₂ := hw (by omega)
          rw [show (k + 36) / 36 = k / 36 + 1 by omega, Nat.pow_succ]
          exact Nat.mul_le_mul_right 35 (Nat.le_trans h₁ h₂)
        rw [if_neg hm, ← hv]
        exact (ih _ _ hw').mono fun _ => by omega

theorem decodeDigits_encodeDigits_one {bias : Nat} (hb : bias ≤ 215) (delta i : Nat)
    (rest : List Char) :
    Yields (delta + i < wordBound)
      (decodeDigits bias (encodeDigits bias 36 delta ++ rest) 36 1 i) (some (delta + i, rest)) := by
  simpa only [Nat.mul_one] using
    decodeDigits_encodeDigits bias 36 delta 1 i rest hb fun _ => by norm_num

theorem decodeDigits_lt (bias : Nat) :
    ∀ (l : List Char) (k w i i' : Nat) (rest : List Char),
      decodeDigits bias l k w i = some (i', rest) → i' < wordBound
  | [], _, _, _, _, _, h => by simp [decodeDigits] at h
  | c :: l, k, w, i, i', rest, h => by
    rw [decodeDigits] at h
    split at h
    · simp at h
    · simp only at h
      split at h
      · simp at h
      · split at h
        · cases h
          omega
        · split at h
          · simp at h
          · exact decodeDigits_lt bias l _ _ _ i' rest h

/-! ## The decoder's loop -/

/-- The state of the decoder between two integers. -/
structure DecodeState where
  bias : Nat
  n : Nat
  i : Nat
  out : List Char

/-- The decoder run from a state on the digits left. -/
def DecodeState.run (d : DecodeState) (digits : List Char) : Option (List Char) :=
  decodeLoop d.bias d.n d.i d.out digits

theorem DecodeState.run_nil (d : DecodeState) : d.run [] = some d.out := by
  rw [DecodeState.run, decodeLoop]
  rfl

theorem decodeLoop_of_none {bias n i : Nat} {out digits : List Char} (hne : digits ≠ [])
    (h : decodeDigits bias digits 36 1 i = none) : decodeLoop bias n i out digits = none := by
  rw [decodeLoop, if_neg (by simpa using hne)]
  split
  · rfl
  · simp_all

theorem decodeLoop_of_some {bias n i i' : Nat} {out digits rest : List Char} (hne : digits ≠ [])
    (h : decodeDigits bias digits 36 1 i = some (i', rest)) :
    decodeLoop bias n i out digits =
      if wordBound ≤ n + i' / (out.length + 1) ∨ ¬ (n + i' / (out.length + 1)).isValidChar then none
      else decodeLoop (adapt (i' - i) (out.length + 1) (i == 0)) (n + i' / (out.length + 1))
        (i' % (out.length + 1) + 1)
        (out.take (i' % (out.length + 1)) ++ Char.ofNat (n + i' / (out.length + 1)) ::
          out.drop (i' % (out.length + 1))) rest := by
  rw [decodeLoop, if_neg (by simpa using hne)]
  split
  · simp_all
  · rename_i heq
    rw [h] at heq
    cases heq
    rfl

/-- One integer read by the decoder: when the index it reaches, `i + delta`, is `pos` past
`m - n` full passes over the `out.length + 1` insertion slots, the decoder inserts `m` at
`pos`. -/
theorem run_encodeDigits {d : DecodeState} {delta m pos : Nat} (rest : List Char)
    (hb : d.bias ≤ 215) (hrel : d.i + delta = (m - d.n) * (d.out.length + 1) + pos)
    (hpos : pos ≤ d.out.length) (hnm : d.n ≤ m) (hm : m.isValidChar) :
    Yields (delta + d.i < wordBound) (d.run (encodeDigits d.bias 36 delta ++ rest))
      (DecodeState.run ⟨adapt delta (d.out.length + 1) (d.i == 0), m, pos + 1,
        d.out.take pos ++ Char.ofNat m :: d.out.drop pos⟩ rest) := by
  have hne : encodeDigits d.bias 36 delta ++ rest ≠ [] := by
    simp [encodeDigits_ne_nil]
  have hdd := decodeDigits_encodeDigits_one hb delta d.i rest
  rcases hdd.1 with h | h
  · -- the integer is read: it passes m - n times over the slots and stops at pos
    have hdiv : (delta + d.i) / (d.out.length + 1) = m - d.n := by
      rw [show delta + d.i = pos + (d.out.length + 1) * (m - d.n) by rw [Nat.mul_comm]; omega,
        Nat.add_mul_div_left _ _ (by omega), Nat.div_eq_of_lt (by omega), Nat.zero_add]
    have hmod : (delta + d.i) % (d.out.length + 1) = pos := by
      rw [show delta + d.i = pos + (d.out.length + 1) * (m - d.n) by rw [Nat.mul_comm]; omega,
        Nat.add_mul_mod_self_left, Nat.mod_eq_of_lt (by omega)]
    have hmw : m < wordBound := by
      rcases hm with hm | hm <;> (unfold wordBound; omega)
    apply Yields.of_eq
    rw [DecodeState.run, decodeLoop_of_some hne h, hdiv, hmod, Nat.add_sub_cancel' hnm,
      if_neg (by simp [hm]; omega), Nat.add_sub_cancel]
    rfl
  · rw [DecodeState.run, decodeLoop_of_none hne h]
    apply Yields.fail
    intro hs
    have := hdd.2 hs
    rw [h] at this
    cases this

/-! ## The rounds of the encoder against the decoder -/

theorem mem_insertSorted {x y : Nat} {l : List Nat} : x ∈ insertSorted y l ↔ x = y ∨ x ∈ l := by
  induction l with
  | nil => simp [insertSorted]
  | cons z zs ih =>
    rw [insertSorted]
    split
    · simp
    · split
      · subst_vars; simp
      · simp [ih, or_left_comm]

theorem pairwise_insertSorted (y : Nat) {l : List Nat} (h : l.Pairwise (· < ·)) :
    (insertSorted y l).Pairwise (· < ·) := by
  induction l with
  | nil => simp [insertSorted]
  | cons z zs ih =>
    obtain ⟨hz, hzs⟩ := List.pairwise_cons.1 h
    rw [insertSorted]
    split
    · rename_i hyz
      exact List.pairwise_cons.2 ⟨fun a ha => by
        rcases List.mem_cons.1 ha with rfl | ha
        · exact hyz
        · exact Nat.lt_trans hyz (hz a ha), h⟩
    · split
      · exact h
      · refine List.pairwise_cons.2 ⟨fun a ha => ?_, ih hzs⟩
        rcases mem_insertSorted.1 ha with rfl | ha
        · omega
        · exact hz a ha

theorem mem_sortedDistinct {x : Nat} {l : List Nat} : x ∈ sortedDistinct l ↔ x ∈ l := by
  induction l with
  | nil => simp [sortedDistinct]
  | cons y ys ih => simp [sortedDistinct, mem_insertSorted, ih]

theorem pairwise_sortedDistinct (l : List Nat) : (sortedDistinct l).Pairwise (· < ·) := by
  induction l with
  | nil => simp [sortedDistinct]
  | cons y ys ih => exact pairwise_insertSorted y ih

theorem encodeStep_self (b m : Nat) (st : EncodeState) :
    encodeStep b m st m =
      some
        { out := st.out ++ encodeDigits st.bias 36 st.delta, delta := 0,
          bias := adapt st.delta (st.handled + 1) (st.handled == b), handled := st.handled + 1 } := by
  rw [encodeStep, if_neg (Nat.lt_irrefl m), if_pos rfl]

theorem encodeStep_of_gt {b m c : Nat} (st : EncodeState) (hc : m < c) : encodeStep b m st c = some st := by
  rw [encodeStep, if_neg (Nat.not_lt.2 (Nat.le_of_lt hc)), if_neg (Nat.ne_of_gt hc)]

section Simulation

variable (s : List Char) (b : Nat)

/-- The encoder in round `m`, having scanned the code points `pre` of `s` and with `post` still
to scan, against the decoder that has read what the encoder has written. -/
structure Scanning (m : Nat) (pre post : List Nat) (st : EncodeState) (d : DecodeState) : Prop where
  split : pre ++ post = s.map Char.toNat
  out_eq : d.out = (pre.filter (· ≤ m) ++ post.filter (· < m)).map Char.ofNat
  handled_eq : st.handled = (pre.filter (· ≤ m)).length + (post.filter (· < m)).length
  bias_eq : d.bias = st.bias
  n_le : d.n ≤ m
  index_eq : d.i + st.delta = (m - d.n) * (st.handled + 1) + (pre.filter (· ≤ m)).length
  first : d.i = 0 ↔ st.handled = b
  basic_le : b ≤ st.handled
  delta_lt : st.delta < wordBound
  bias_le : st.bias ≤ 215
  low_le : 0x80 ≤ d.n

/-- The encoder between two rounds, with the rounds `R` to go and `n` the least code point not
yet handled, against the decoder. -/
structure Between (n : Nat) (R : List Nat) (st : EncodeState) (d : DecodeState) : Prop where
  out_eq : d.out = ((s.map Char.toNat).filter (· < n)).map Char.ofNat
  handled_eq : st.handled = ((s.map Char.toNat).filter (· < n)).length
  bias_eq : d.bias = st.bias
  n_le : d.n ≤ n
  index_eq : d.i + st.delta = (n - d.n) * (st.handled + 1)
  first : d.i = 0 ↔ st.handled = b
  basic_le : b ≤ st.handled
  bias_le : st.bias ≤ 215
  low_le : 0x80 ≤ d.n
  sorted : R.Pairwise (· < ·)
  above : ∀ r ∈ R, n ≤ r
  covers : ∀ c ∈ s.map Char.toNat, n ≤ c → c ∈ R

variable {s b}

theorem Scanning.below {m c : Nat} {pre post : List Nat} {st : EncodeState} {d : DecodeState}
    (h : Scanning s b m pre (c :: post) st d) (hc : c < m) (hd : st.delta + 1 < wordBound) :
    Scanning s b m (pre ++ [c]) post { st with delta := st.delta + 1 } d where
  split := by rw [List.append_assoc, List.singleton_append]; exact h.split
  out_eq := by rw [h.out_eq]; simp [hc, Nat.le_of_lt hc]
  handled_eq := by rw [h.handled_eq]; simp [hc, Nat.le_of_lt hc]; omega
  bias_eq := h.bias_eq
  n_le := h.n_le
  index_eq := by
    have := h.index_eq
    simp only [List.filter_append, List.filter_cons, Nat.le_of_lt hc, decide_true, if_true,
      List.filter_nil, List.length_append, List.length_singleton] at this ⊢
    omega
  first := h.first
  basic_le := h.basic_le
  delta_lt := hd
  bias_le := h.bias_le
  low_le := h.low_le

theorem Scanning.above {m c : Nat} {pre post : List Nat} {st : EncodeState} {d : DecodeState}
    (h : Scanning s b m pre (c :: post) st d) (hc : m < c) :
    Scanning s b m (pre ++ [c]) post st d where
  split := by rw [List.append_assoc, List.singleton_append]; exact h.split
  out_eq := by rw [h.out_eq]; simp [Nat.not_le.2 hc, Nat.not_lt.2 (Nat.le_of_lt hc)]
  handled_eq := by rw [h.handled_eq]; simp [Nat.not_le.2 hc, Nat.not_lt.2 (Nat.le_of_lt hc)]
  bias_eq := h.bias_eq
  n_le := h.n_le
  index_eq := by rw [h.index_eq]; simp [Nat.not_le.2 hc]
  first := h.first
  basic_le := h.basic_le
  delta_lt := h.delta_lt
  bias_le := h.bias_le
  low_le := h.low_le

theorem Scanning.length_out {m : Nat} {pre post : List Nat} {st : EncodeState} {d : DecodeState}
    (h : Scanning s b m pre post st d) : d.out.length = st.handled := by
  rw [h.out_eq, h.handled_eq]
  simp

/-- The encoder meets `m` and writes its delta; the decoder reads it and inserts `m`. -/
theorem Scanning.emit {m : Nat} {pre post : List Nat} {st : EncodeState} {d : DecodeState}
    (h : Scanning s b m pre (m :: post) st d) :
    Scanning s b m (pre ++ [m]) post
      { out := st.out ++ encodeDigits st.bias 36 st.delta, delta := 0,
        bias := adapt st.delta (st.handled + 1) (st.handled == b), handled := st.handled + 1 }
      ⟨adapt st.delta (d.out.length + 1) (d.i == 0), m, (pre.filter (· ≤ m)).length + 1,
        d.out.take (pre.filter (· ≤ m)).length ++ Char.ofNat m ::
          d.out.drop (pre.filter (· ≤ m)).length⟩ where
  split := by rw [List.append_assoc, List.singleton_append]; exact h.split
  out_eq := by
    rw [h.out_eq]
    simp
  handled_eq := by rw [h.handled_eq]; simp; omega
  bias_eq := by
    have hb : (d.i == 0) = (st.handled == b) := by
      simp only [Bool.beq_eq_decide_eq, decide_eq_decide]
      exact h.first
    rw [h.length_out, hb]
  n_le := Nat.le_refl m
  index_eq := by simp
  first := by have := h.basic_le; dsimp only; omega
  basic_le := Nat.le_succ_of_le h.basic_le
  delta_lt := by show 0 < wordBound; unfold wordBound; omega
  bias_le := adapt_le _ _ h.delta_lt
  low_le := Nat.le_trans h.low_le h.n_le

/-- At a code point of `s`, the decoder's index stays below 2^32 when `s` has at most 3855 code
points: it is fewer than 0x110000 - 0x80 passes over at most 3855 slots, and a position. -/
theorem Scanning.safe {m : Nat} {pre post : List Nat} {st : EncodeState} {d : DecodeState}
    (h : Scanning s b m pre (m :: post) st d) (hs : s.length ≤ 3855) :
    st.delta + d.i < wordBound := by
  have hm : m < 0x110000 := by
    have hmem : m ∈ s.map Char.toNat := h.split ▸ List.mem_append_right pre List.mem_cons_self
    obtain ⟨c, -, rfl⟩ := List.mem_map.1 hmem
    rcases c.valid with hc | hc <;> (simp only [Char.toNat] at *; omega)
  have hlen : st.handled + 1 ≤ s.length := by
    have := congrArg List.length h.split
    have h₁ := List.length_filter_le (· ≤ m) pre
    have h₂ := List.length_filter_le (· < m) post
    have hB : (m :: post).filter (· < m) = post.filter (· < m) := by simp
    simp only [List.length_append, List.length_cons, List.length_map] at this
    rw [h.handled_eq, hB]
    omega
  have hpos : (pre.filter (· ≤ m)).length ≤ st.handled := by rw [h.handled_eq]; omega
  have hprod : (m - d.n) * (st.handled + 1) ≤ (0x10FFFF - 0x80) * 3855 :=
    Nat.mul_le_mul (by have := h.low_le; omega) (by omega)
  have := h.index_eq
  unfold wordBound
  omega

theorem Between.start {n m : Nat} {R : List Nat} {st : EncodeState} {d : DecodeState}
    (h : Between s b n (m :: R) st d) (hd : (m - n) * (st.handled + 1) + st.delta < wordBound) :
    Scanning s b m [] (s.map Char.toNat) { st with delta := (m - n) * (st.handled + 1) + st.delta } d := by
  have hnm : n ≤ m := h.above m List.mem_cons_self
  have hgap : (s.map Char.toNat).filter (· < n) = (s.map Char.toNat).filter (· < m) := by
    refine List.filter_congr fun c hc => ?_
    by_cases hcn : n ≤ c
    · have hcm : m ≤ c := by
        rcases List.mem_cons.1 (h.covers c hc hcn) with rfl | hr
        · exact Nat.le_refl c
        · exact Nat.le_of_lt (List.rel_of_pairwise_cons h.sorted hr)
      simp [Nat.not_lt.2 hcn, Nat.not_lt.2 hcm]
    · simp [Nat.lt_of_not_le hcn, Nat.lt_of_lt_of_le (Nat.lt_of_not_le hcn) hnm]
  have hsum : (m - n) * (st.handled + 1) + (n - d.n) * (st.handled + 1) =
      (m - d.n) * (st.handled + 1) := by
    rw [← Nat.add_mul]
    have := h.n_le
    congr 1
    omega
  exact {
    split := List.nil_append _
    out_eq := by rw [h.out_eq, hgap]; simp
    handled_eq := by rw [h.handled_eq, hgap]; simp
    bias_eq := h.bias_eq
    n_le := Nat.le_trans h.n_le hnm
    index_eq := by have := h.index_eq; simp only [List.filter_nil, List.length_nil]; omega
    first := h.first
    basic_le := h.basic_le
    delta_lt := hd
    bias_le := h.bias_le
    low_le := h.low_le }

theorem Between.next {n m : Nat} {R : List Nat} {st₀ st : EncodeState} {d₀ d : DecodeState}
    (h₀ : Between s b n (m :: R) st₀ d₀) (h : Scanning s b m (s.map Char.toNat) [] st d) :
    Between s b (m + 1) R { st with delta := st.delta + 1 } d := by
  have hup : (s.map Char.toNat).filter (· ≤ m) = (s.map Char.toNat).filter (· < m + 1) :=
    List.filter_congr fun c _ => by simp only [Nat.lt_add_one_iff]
  obtain ⟨hlt, hsorted⟩ := List.pairwise_cons.1 h₀.sorted
  exact {
    out_eq := by rw [h.out_eq, ← hup]; simp
    handled_eq := by rw [h.handled_eq, ← hup]; simp
    bias_eq := h.bias_eq
    n_le := Nat.le_succ_of_le h.n_le
    index_eq := by
      have hi := h.index_eq
      have hh := h.handled_eq
      have hn := h.n_le
      simp only [List.filter_nil, List.length_nil, Nat.add_zero] at hh
      rw [show m + 1 - d.n = (m - d.n) + 1 by omega, Nat.succ_mul]
      simp only
      omega
    first := h.first
    basic_le := h.basic_le
    bias_le := h.bias_le
    low_le := h.low_le
    sorted := hsorted
    above := fun r hr => hlt r hr
    covers := fun c hc hmc => by
      rcases List.mem_cons.1 (h₀.covers c hc (by have := h₀.above m List.mem_cons_self; omega))
        with rfl | hr
      · omega
      · exact hr }

theorem Between.filter_all {n : Nat} {st : EncodeState} {d : DecodeState}
    (h : Between s b n [] st d) : (s.map Char.toNat).filter (· < n) = s.map Char.toNat :=
  List.filter_eq_self.2 fun c hc => by
    have := h.covers c hc
    simp only [List.not_mem_nil, imp_false, Nat.not_le] at this
    simpa using this

theorem Between.out_done {n : Nat} {st : EncodeState} {d : DecodeState}
    (h : Between s b n [] st d) : d.out = s := by
  rw [h.out_eq, h.filter_all]
  simp [List.map_map, Function.comp_def, Char.ofNat_toNat]

theorem Between.handled_done {n : Nat} {st : EncodeState} {d : DecodeState}
    (h : Between s b n [] st d) : st.handled = s.length := by
  rw [h.handled_eq, h.filter_all, List.length_map]

/-- One round: the digits the encoder writes take the decoder from the state that matches the
encoder before the scan to the one that matches it after. -/
theorem scan_simulates {m : Nat} :
    ∀ (post pre : List Nat) (st st' : EncodeState) (d : DecodeState),
      Scanning s b m pre post st d → post.foldlM (encodeStep b m) st = some st' →
      ∃ new d', st'.out = st.out ++ new ∧ Plain new ∧ st'.handled ≤ st.handled + new.length ∧
        Scanning s b m (s.map Char.toNat) [] st' d' ∧
        ∀ rest, Yields (s.length ≤ 3855) (d.run (new ++ rest)) (d'.run rest)
  | [], pre, st, st', d, h, hfold => by
    cases hfold
    have hpre : pre = s.map Char.toNat := by simpa using h.split
    subst hpre
    exact ⟨[], d, by simp, by simp [Plain], by simp, h, fun rest => .of_eq rfl⟩
  | c :: post, pre, st, st', d, h, hfold => by
    rw [List.foldlM_cons] at hfold
    obtain ⟨st₁, h₁, hrest⟩ := Option.bind_eq_some_iff.1 hfold
    rcases Nat.lt_trichotomy c m with hc | rfl | hc
    · -- a smaller code point: one more slot
      unfold encodeStep at h₁
      rw [if_pos hc] at h₁
      split at h₁
      · cases h₁
      rename_i hd
      cases h₁
      obtain ⟨new, d', hout, hplain, hcount, h', hrun⟩ :=
        scan_simulates post _ _ st' d (h.below hc (Nat.lt_of_not_le hd)) hrest
      exact ⟨new, d', hout, hplain, hcount, h', hrun⟩
    · -- the round's code point: the encoder writes the delta, the decoder inserts c
      rw [encodeStep_self] at h₁
      cases h₁
      obtain ⟨new, d', hout, hplain, hcount, h', hrun⟩ := scan_simulates post _ _ st' _ h.emit hrest
      refine ⟨encodeDigits st.bias 36 st.delta ++ new, d', by rw [hout, List.append_assoc], ?_, ?_,
        h', fun rest => ?_⟩
      · exact (plain_encodeDigits _ _ _).append hplain
      · have := List.length_pos_iff.2 (encodeDigits_ne_nil st.bias 36 st.delta)
        simp only [List.length_append] at hcount ⊢
        omega
      · have hvalid : c.isValidChar := by
          have hmem : c ∈ s.map Char.toNat := h.split ▸ List.mem_append_right pre List.mem_cons_self
          obtain ⟨ch, -, rfl⟩ := List.mem_map.1 hmem
          exact ch.valid
        have hpos : (pre.filter (· ≤ c)).length ≤ d.out.length := by
          rw [h.length_out, h.handled_eq]; omega
        have hrel : d.i + st.delta = (c - d.n) * (d.out.length + 1) + (pre.filter (· ≤ c)).length := by
          rw [h.length_out]; exact h.index_eq
        have hstep := run_encodeDigits (new ++ rest) (h.bias_eq ▸ h.bias_le) hrel hpos h.n_le hvalid
        rw [h.bias_eq] at hstep
        rw [List.append_assoc]
        exact (hstep.mono h.safe).trans (hrun rest)
    · -- a larger code point waits for its own round
      rw [encodeStep_of_gt st hc] at h₁
      cases h₁
      exact scan_simulates post _ _ st' d (h.above hc) hrest

/-- All rounds: the digits of the remaining rounds take the decoder to the whole text. -/
theorem rounds_simulate :
    ∀ (R : List Nat) (n : Nat) (st st' : EncodeState) (d : DecodeState),
      Between s b n R st d → encodeRounds (s.map Char.toNat) b R n st = some st' →
      ∃ (new : List Char) (d' : DecodeState), st'.out = st.out ++ new ∧ Plain new ∧
        s.length ≤ st.handled + new.length ∧ d'.out = s ∧
        ∀ rest, Yields (s.length ≤ 3855) (d.run (new ++ rest)) (d'.run rest)
  | [], n, st, st', d, h, hr => by
    cases hr
    exact ⟨[], d, by simp, by simp [Plain], by simp [h.handled_done], h.out_done,
      fun rest => .of_eq rfl⟩
  | m :: R, n, st, st', d, h, hr => by
    rw [encodeRounds] at hr
    split at hr
    · cases hr
    · rename_i hd
      split at hr
      · cases hr
      · rename_i st₁ hfold
        obtain ⟨new₁, d₁, hout₁, hplain₁, hcount₁, h₁, hrun₁⟩ :=
          scan_simulates _ _ _ _ d (h.start (Nat.lt_of_not_le hd)) hfold
        obtain ⟨new₂, d₂, hout₂, hplain₂, hcount₂, hdone, hrun₂⟩ :=
          rounds_simulate R (m + 1) _ st' d₁ (h.next h₁) hr
        refine ⟨new₁ ++ new₂, d₂, ?_, hplain₁.append hplain₂, ?_, hdone, fun rest => ?_⟩
        · rw [hout₂, hout₁, List.append_assoc]
        · simp only [List.length_append] at hcount₁ hcount₂ ⊢
          omega
        · rw [List.append_assoc]
          exact (hrun₁ _).trans (hrun₂ rest)

end Simulation

/-! ## The whole text -/

theorem splitLastHyphen_of_plain {ext : List Char} (h : Plain ext) : splitLastHyphen ext = ([], ext) := by
  have hspan : ext.reverse.span (· ≠ '-') = (ext.reverse, []) := by
    rw [List.span_eq_takeWhile_dropWhile, List.takeWhile_eq_self_iff.2, List.dropWhile_eq_nil_iff.2]
    all_goals intro c hc; simpa using (h c (List.mem_reverse.1 hc)).1
  rw [splitLastHyphen, hspan]

theorem splitLastHyphen_append {basic ext : List Char} (h : Plain ext) :
    splitLastHyphen (basic ++ '-' :: ext) = (basic, ext) := by
  have hall : ∀ c ∈ ext.reverse, decide (c ≠ '-') = true := by
    intro c hc; simpa using (h c (List.mem_reverse.1 hc)).1
  have hspan : (basic ++ '-' :: ext).reverse.span (· ≠ '-') = (ext.reverse, '-' :: basic.reverse) := by
    rw [List.reverse_append, List.reverse_cons, List.append_assoc, List.singleton_append,
      List.span_eq_takeWhile_dropWhile, List.takeWhile_append_of_pos hall,
      List.dropWhile_append_of_pos hall]
    simp
  rw [splitLastHyphen, hspan]
  simp

/-- The encoding of a text: its basic code points, a hyphen if there are any, and digits that take
the decoder from the basic code points to the text, or to a failure; at least one digit per other
code point. -/
theorem encode_spec {s p : List Char} (h : encode s = some p) :
    ∃ new, p = basicPart s ++ (if (basicPart s).isEmpty then [] else ['-']) ++ new ∧ Plain new ∧
      s.length ≤ (basicPart s).length + new.length ∧
      Yields (s.length ≤ 3855) (DecodeState.run ⟨72, 0x80, 0, basicPart s⟩ new) (some s) := by
  dsimp only [encode] at h
  split at h
  · cases h
  · rename_i st hrounds
    cases h
    have hbasic : basicPart s = ((s.map Char.toNat).filter (· < 0x80)).map Char.ofNat := by
      simp [basicPart, List.filter_map, List.map_map, Function.comp_def, Char.ofNat_toNat]
    have hstart : Between s (basicPart s).length 0x80
        (sortedDistinct ((s.map Char.toNat).filter fun c => 0x80 ≤ c)) ⟨[], 0, 72, (basicPart s).length⟩
        ⟨72, 0x80, 0, basicPart s⟩ := {
      out_eq := hbasic
      handled_eq := by rw [hbasic, List.length_map]
      bias_eq := rfl
      n_le := Nat.le_refl _
      index_eq := by simp
      first := by simp
      basic_le := Nat.le_refl _
      bias_le := by show 72 ≤ 215; omega
      low_le := Nat.le_refl _
      sorted := pairwise_sortedDistinct _
      above := fun r hr => by simpa using (List.mem_filter.1 (mem_sortedDistinct.1 hr)).2
      covers := fun c hc h80 => mem_sortedDistinct.2 (List.mem_filter.2 ⟨hc, by simpa using h80⟩) }
    obtain ⟨new, d', hout, hplain, hcount, hdone, hrun⟩ := rounds_simulate _ _ _ _ _ hstart hrounds
    have hfinal := hrun []
    rw [List.append_nil, DecodeState.run_nil, hdone] at hfinal
    simp only [List.nil_append] at hout
    exact ⟨new, by rw [hout], hplain, hcount, hfinal⟩

/-- Decoding the encoding of a text gives the text back or fails, and it cannot fail for a
text of at most 3855 code points. -/
theorem decode_encode {s p : List Char} (h : encode s = some p) :
    Yields (s.length ≤ 3855) (decode p) (some s) := by
  obtain ⟨new, rfl, hplain, -, hrun⟩ := encode_spec h
  -- the digits hold no hyphen, so the decoder splits the text where the encoder joined it
  have hsplit : splitLastHyphen (basicPart s ++ (if (basicPart s).isEmpty then [] else ['-']) ++
      new) = (basicPart s, new) := by
    by_cases hb : (basicPart s).isEmpty
    · rw [List.isEmpty_iff.1 hb]
      simpa using splitLastHyphen_of_plain hplain
    · rw [if_neg hb, List.append_assoc, List.singleton_append]
      exact splitLastHyphen_append hplain
  have hascii : (basicPart s).all (·.toNat < 0x80) = true := by
    simp [basicPart, List.all_filter]
  simp only [decode, hsplit, hascii, if_true]
  exact hrun

theorem encode_length {s p : List Char} (h : encode s = some p) : s.length ≤ p.length := by
  obtain ⟨new, rfl, -, hcount, -⟩ := encode_spec h
  simp only [List.length_append]
  omega

theorem encode_ascii {s p : List Char} (h : encode s = some p) : ∀ c ∈ p, c.toNat < 0x80 := by
  obtain ⟨new, rfl, hplain, -, -⟩ := encode_spec h
  intro c hc
  rcases List.mem_append.1 hc with hc | hc
  · rcases List.mem_append.1 hc with hc | hc
    · simpa using (List.mem_filter.1 hc).2
    · split at hc
      · cases hc
      · rw [List.mem_singleton.1 hc]
        decide
  · exact (hplain c hc).2

/-! ## A text whose encoding does not decode -/

theorem foldlM_encodeStep_below {b m : Nat} :
    ∀ (l : List Nat) (st : EncodeState), (∀ c ∈ l, c < m) → st.delta + l.length < wordBound →
      l.foldlM (encodeStep b m) st = some { st with delta := st.delta + l.length }
  | [], st, _, _ => by simp
  | c :: l, st, hl, hb => by
    have hc := hl c List.mem_cons_self
    have hst : encodeStep b m st c = some { st with delta := st.delta + 1 } := by
      simp only [List.length_cons] at hb
      rw [encodeStep, if_pos hc, if_neg (by omega)]
    rw [List.foldlM_cons, hst, Option.bind_eq_bind, Option.bind_some,
      foldlM_encodeStep_below l _ (fun x hx => hl x (List.mem_cons_of_mem c hx))
        (by simp only [List.length_cons] at hb ⊢; omega)]
    simp only [List.length_cons]
    congr 2
    omega

theorem run_encodeDigits_overflow {d : DecodeState} {delta : Nat} (rest : List Char)
    (hb : d.bias ≤ 215) (h : wordBound ≤ delta + d.i) :
    d.run (encodeDigits d.bias 36 delta ++ rest) = none := by
  have hne : encodeDigits d.bias 36 delta ++ rest ≠ [] := by simp [encodeDigits_ne_nil]
  have hdd := decodeDigits_encodeDigits_one hb delta d.i rest
  rcases hdd.1 with h' | h'
  · exact absurd (decodeDigits_lt _ _ _ _ _ _ _ h') (by omega)
  · rw [DecodeState.run, decodeLoop_of_none hne h']

section Overflow

/-- The code point U+10FF71, then 3854 times "a", then U+0080: the first round inserts U+0080
after the letters, and the second must then pass 1113840 times over 3856 slots. -/
private def longText : List Char := [Char.ofNat 0x10FF71] ++ List.replicate 3854 'a' ++ [Char.ofNat 0x80]

private theorem bind_some_state (x : EncodeState) (f : EncodeState → Option EncodeState) :
    (some x >>= f) = f x := rfl

private theorem longText_encode :
    encode longText = some (List.replicate 3854 'a' ++ ['-'] ++
      (encodeDigits 72 36 3854 ++ encodeDigits (adapt 3854 3855 true) 36 4294967041)) := by
  have hcps : longText.map Char.toNat = [1113969] ++ List.replicate 3854 97 ++ [128] := by
    rw [longText, List.map_append, List.map_append, List.map_replicate]
    rfl
  have hbasic : basicPart longText = List.replicate 3854 'a' := by
    have h₁ : (Char.ofNat 0x10FF71).toNat = 1113969 := by decide
    have h₂ : (Char.ofNat 0x80).toNat = 128 := by decide
    have h₃ : 'a'.toNat = 97 := rfl
    rw [longText, basicPart, List.filter_append, List.filter_append, List.filter_replicate]
    simp only [List.filter_cons, List.filter_nil, h₁, h₂, h₃, Nat.reduceLT, decide_true,
      decide_false, Bool.false_eq_true, reduceIte, List.nil_append, List.append_nil]
  have hrounds : sortedDistinct (([1113969] ++ List.replicate 3854 97 ++ [128]).filter
      fun c => 0x80 ≤ c) = [128, 1113969] := by
    rw [List.filter_append, List.filter_append, List.filter_replicate]
    simp only [List.filter_cons, List.filter_nil, Nat.reduceLeDiff, decide_true, decide_false,
      Bool.false_eq_true, reduceIte, List.nil_append, List.append_nil, List.cons_append]
    rfl
  have hletters : ∀ m, 97 < m → ∀ c ∈ List.replicate 3854 97, c < m := fun m hm c hc => by
    rw [List.eq_of_mem_replicate hc]; exact hm
  -- round 128: the letters are counted, then U+0080 is written with delta 3854
  have hround₁ : ([1113969] ++ List.replicate 3854 97 ++ [128]).foldlM (encodeStep 3854 128)
      ⟨[], 0, 72, 3854⟩ = some ⟨encodeDigits 72 36 3854, 0, adapt 3854 3855 true, 3855⟩ := by
    have hrep := foldlM_encodeStep_below (b := 3854) (List.replicate 3854 97) ⟨[], 0, 72, 3854⟩
      (hletters 128 (by decide)) (by rw [List.length_replicate]; unfold wordBound; dsimp only; omega)
    rw [List.length_replicate] at hrep
    have e₁ : [1113969].foldlM (encodeStep 3854 128) ⟨[], 0, 72, 3854⟩ =
        some ⟨[], 0, 72, 3854⟩ := rfl
    rw [List.foldlM_append, List.foldlM_append, e₁, bind_some_state, hrep, bind_some_state,
      List.foldlM_cons, encodeStep_self, bind_some_state, List.foldlM_nil]
    simp only [Option.pure_def, Nat.zero_add, List.nil_append, Nat.reduceAdd, beq_self_eq_true]
  -- round U+10FF71: its delta 1113840 * 3856 + 1 is written first, then the rest is counted
  have hround₂ : ([1113969] ++ List.replicate 3854 97 ++ [128]).foldlM (encodeStep 3854 1113969)
      ⟨encodeDigits 72 36 3854, 4294967041, adapt 3854 3855 true, 3855⟩ =
      some ⟨encodeDigits 72 36 3854 ++ encodeDigits (adapt 3854 3855 true) 36 4294967041, 3855,
        adapt 4294967041 3856 false, 3856⟩ := by
    have e₁ : [1113969].foldlM (encodeStep 3854 1113969)
        ⟨encodeDigits 72 36 3854, 4294967041, adapt 3854 3855 true, 3855⟩ =
        some ⟨encodeDigits 72 36 3854 ++ encodeDigits (adapt 3854 3855 true) 36 4294967041, 0,
          adapt 4294967041 3856 false, 3856⟩ := by
      rw [List.foldlM_cons, encodeStep_self, bind_some_state, List.foldlM_nil]
      rfl
    have hrep := foldlM_encodeStep_below (b := 3854) (List.replicate 3854 97)
      ⟨encodeDigits 72 36 3854 ++ encodeDigits (adapt 3854 3855 true) 36 4294967041, 0,
        adapt 4294967041 3856 false, 3856⟩
      (hletters 1113969 (by decide)) (by rw [List.length_replicate]; unfold wordBound; dsimp only; omega)
    rw [List.length_replicate] at hrep
    have e₃ : [128].foldlM (encodeStep 3854 1113969)
        ⟨encodeDigits 72 36 3854 ++ encodeDigits (adapt 3854 3855 true) 36 4294967041, 0 + 3854,
          adapt 4294967041 3856 false, 3856⟩ =
        some ⟨encodeDigits 72 36 3854 ++ encodeDigits (adapt 3854 3855 true) 36 4294967041, 3855,
          adapt 4294967041 3856 false, 3856⟩ := rfl
    rw [List.foldlM_append, List.foldlM_append, e₁, bind_some_state, hrep, bind_some_state]
    exact e₃
  have hrun : ∀ cps : List Nat,
      cps.foldlM (encodeStep 3854 128) ⟨[], 0, 72, 3854⟩ =
        some ⟨encodeDigits 72 36 3854, 0, adapt 3854 3855 true, 3855⟩ →
      cps.foldlM (encodeStep 3854 1113969)
          ⟨encodeDigits 72 36 3854, 4294967041, adapt 3854 3855 true, 3855⟩ =
        some ⟨encodeDigits 72 36 3854 ++ encodeDigits (adapt 3854 3855 true) 36 4294967041, 3855,
          adapt 4294967041 3856 false, 3856⟩ →
      encodeRounds cps 3854 [128, 1113969] 128 ⟨[], 0, 72, 3854⟩ =
        some ⟨encodeDigits 72 36 3854 ++ encodeDigits (adapt 3854 3855 true) 36 4294967041, 3856,
          adapt 4294967041 3856 false, 3856⟩ := by
    intro cps h₁ h₂
    simp only [encodeRounds, Nat.reduceSub, Nat.reduceMul, Nat.reduceAdd, Nat.zero_mul,
      Nat.add_zero, Nat.zero_add, h₁, h₂]
    simp [wordBound]
  rw [encode]
  rw [hbasic, hcps, hrounds, List.length_replicate, hrun _ hround₁ hround₂, List.isEmpty_replicate,
    if_neg (by decide)]

/-- A text that encodes but whose encoding does not decode. The second integer the encoder writes,
1113840 * 3856 + 1, is below 2^32; the decoder adds it to its index 3855 after inserting U+0080,
and the sum passes 2^32. -/
theorem decode_encode_overflow :
    ∃ p, encode ([Char.ofNat 0x10FF71] ++ List.replicate 3854 'a' ++ [Char.ofNat 0x80]) = some p ∧
      decode p = none := by
  refine ⟨_, longText_encode, ?_⟩
  have hplain : Plain (encodeDigits 72 36 3854 ++ encodeDigits (adapt 3854 3855 true) 36 4294967041) :=
    (plain_encodeDigits _ _ _).append (plain_encodeDigits _ _ _)
  have hascii : (List.replicate 3854 'a').all (·.toNat < 0x80) = true :=
    List.all_eq_true.2 fun c hc => by rw [List.eq_of_mem_replicate hc]; decide
  -- the first integer inserts U+0080 after the letters
  have hfirst := (@run_encodeDigits ⟨72, 128, 0, List.replicate 3854 'a'⟩ 3854 128 3854
    (encodeDigits (adapt 3854 3855 true) 36 4294967041) (by decide)
    (by simp only [List.length_replicate]) (by simp only [List.length_replicate]; omega)
    (Nat.le_refl 128) (.inl (by omega))).2 (by unfold wordBound; dsimp only; omega)
  simp only [List.length_replicate, Nat.reduceAdd] at hfirst
  -- the second one passes 2^32
  have hsecond := @run_encodeDigits_overflow
    ⟨adapt 3854 3855 true, 128, 3855, (List.replicate 3854 'a').take 3854 ++
      Char.ofNat 128 :: (List.replicate 3854 'a').drop 3854⟩ 4294967041 []
    (adapt_le _ _ (by unfold wordBound; omega)) (by unfold wordBound; dsimp only; omega)
  rw [List.append_nil] at hsecond
  rw [decode, List.append_assoc, List.singleton_append, splitLastHyphen_append hplain]
  simp only [hascii, if_true]
  exact (hfirst.trans hsecond : _)

end Overflow

end DnsStub.Punycode
