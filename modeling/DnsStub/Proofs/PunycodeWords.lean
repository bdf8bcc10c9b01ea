import DnsStub.Proofs.PunycodeRoundTrip
import DnsStub.Text.Punycode.Words
/-!
# The punycode arithmetic fits its words

Run over 32-bit words (`DnsStub.Text.Punycode.Words`), encoding and decoding a text of fewer than
2^31 code points never fault: no unchecked operation wraps, divides by zero, casts a value that
does not fit or inserts past the end, and each run computes what the conversion over numbers
computes. The encoder's search for the next code point always finds one, and the encoder stops
early only where a checked computation of delta overflows; the decoder only where a checked
operation overflows or its input is no punycode.

The bounds that carry this: the bias stays at most 215, since delta is a word and each division
by 35 adds 36; a digit string of a word has at most ten digits, so the digit position stays small;
in the encoder delta is at most the length of the text after every round, and the number of code
points handled is the number below the round's code point; in the decoder the output and the
digits left are together shorter than the text.

Main statement: `Punycode.wordRuns_never_fault`.
-/
namespace DnsStub.Punycode

section Monad
variable {α β : Type}

@[simp] theorem throw_bind_stop (e : Stop) (f : α → Except Stop β) :
    (throw e >>= f : Except Stop β) = throw e :=
  rfl

end Monad

/-! ## One operation -/

namespace Word
variable {a b : Nat}

@[simp] theorem add_of_lt (h : a + b < wordBound) : add a b = pure (a + b) := if_pos h
@[simp] theorem sub_of_le (h : b ≤ a) : sub a b = pure (a - b) := if_pos h
@[simp] theorem mul_of_lt (h : a * b < wordBound) : mul a b = pure (a * b) := if_pos h
@[simp] theorem div_of_pos (h : 0 < b) : div a b = pure (a / b) := if_pos h
@[simp] theorem rem_of_pos (h : 0 < b) : rem a b = pure (a % b) := if_pos h
@[simp] theorem checkedAdd_of_lt (h : a + b < wordBound) : checkedAdd a b = pure (a + b) := if_pos h
@[simp] theorem checkedMul_of_lt (h : a * b < wordBound) : checkedMul a b = pure (a * b) := if_pos h
@[simp] theorem ofLength_of_lt (h : a < wordBound) : ofLength a = pure a := if_pos h
@[simp] theorem toByte_of_lt (h : a < 256) : toByte a = pure a := if_pos h
@[simp] theorem addByte_of_lt (h : a + b < 256) : addByte a b = pure (a + b) := if_pos h

@[simp] theorem toChar_of_valid (h : a.isValidChar) : toChar a = pure (Char.ofNat a) := if_pos h

theorem toChar_of_not_valid (h : ¬ a.isValidChar) : toChar a = throw .invalid := if_neg h

@[simp] theorem insertAt_of_le {out : List Char} {c : Char} (h : a ≤ out.length) :
    insertAt out a c = pure (out.take a ++ c :: out.drop a) :=
  if_pos h

theorem checkedAdd_of_le (h : wordBound ≤ a + b) : checkedAdd a b = throw .overflow :=
  if_neg (Nat.not_lt.2 h)

theorem checkedMul_of_le (h : wordBound ≤ a * b) : checkedMul a b = throw .overflow :=
  if_neg (Nat.not_lt.2 h)

/-- A product and then a sum, each checked: the conversion refuses exactly where their exact
value leaves the word. -/
theorem checkedMul_checkedAdd_bind {α : Type} (c : Nat) (f : Nat → Except Stop α) :
    (checkedMul a b >>= fun p => checkedAdd p c >>= f) =
      if wordBound ≤ a * b + c then throw .overflow else f (a * b + c) := by
  by_cases h₁ : wordBound ≤ a * b
  · rw [checkedMul_of_le h₁, throw_bind_stop, if_pos (by omega)]
  · rw [checkedMul_of_lt (by omega), pure_bind]
    by_cases h₂ : wordBound ≤ a * b + c
    · rw [checkedAdd_of_le h₂, throw_bind_stop, if_pos h₂]
    · rw [checkedAdd_of_lt (by omega), pure_bind, if_neg h₂]

end Word

/-! ## The bias, over words -/

theorem adaptLoopWords_eq : ∀ (j delta k : Nat), delta < 456 * 35 ^ j →
    k + 36 * j + 35 < wordBound → adaptLoopWords delta k = pure (adaptLoop delta k)
  | 0, delta, k, h, hk => by
    have := adaptShare_lt delta
    rw [adaptLoopWords, adaptLoop, if_neg (by omega), if_neg (by omega)]
    simp (disch := (unfold wordBound at *; omega)) only [Word.mul_of_lt, Word.add_of_lt,
      Word.div_of_pos, pure_bind]
  | j + 1, delta, k, h, hk => by
    rw [adaptLoopWords, adaptLoop]
    split
    · rw [Word.add_of_lt (by omega), pure_bind]
      exact adaptLoopWords_eq j (delta / 35) (k + 36) (div_lt_adaptRange h) (by omega)
    · have := adaptShare_lt delta
      simp (disch := (unfold wordBound at *; omega)) only [Word.mul_of_lt, Word.add_of_lt,
        Word.div_of_pos, pure_bind]

theorem adaptWords_eq {delta numPoints : Nat} (first : Bool) (h : delta < wordBound)
    (hn : 0 < numPoints) : adaptWords delta numPoints first = pure (adapt delta numPoints first) := by
  have := adaptInput_le delta numPoints first
  rw [adaptWords, Word.div_of_pos hn, pure_bind, Word.add_of_lt (by omega), pure_bind]
  exact adaptLoopWords_eq 5 _ 0 (by have := wordBound_lt_adaptRange; omega)
    (by unfold wordBound; omega)

/-! ## One integer -/

theorem thresholdWords_eq {k bias : Nat} (h : bias + 26 < wordBound) :
    thresholdWords k bias = pure (threshold k bias) := by
  unfold thresholdWords threshold
  split
  · rfl
  · rw [Word.add_of_lt h, pure_bind]
    split
    · rfl
    · exact Word.sub_of_le (by omega)

theorem digitCharWords_eq {d : Nat} (h : d < 36) : digitCharWords d = pure (digitChar d) := by
  unfold digitCharWords digitChar
  split
  · simp (disch := omega) only [Word.toByte_of_lt, Word.addByte_of_lt, pure_bind]
  · simp (disch := omega) only [Word.sub_of_le, Word.toByte_of_lt, Word.addByte_of_lt, pure_bind]
    rw [show 48 + (d - 26) = 22 + d by omega]

/-- The digits over words are the digits over numbers while the position stays clear of the
bound: below 10^j the loop writes at most j digits after the first, each at least ten times
smaller than the last. -/
theorem encodeDigitsWords_eq {bias : Nat} (hb : bias ≤ 215) (k q : Nat) :
    ∀ j, q < 10 ^ j → k + 36 * j < wordBound →
      encodeDigitsWords bias k q = pure (encodeDigits bias k q) := by
  have ht : ∀ k, thresholdWords k bias = pure (threshold k bias) := fun _ =>
    thresholdWords_eq (by unfold wordBound; omega)
  fun_induction encodeDigits bias k q with
  | case1 k q t hq =>
    intro j _ _
    have := threshold_le k bias
    rw [encodeDigitsWords, ht, pure_bind, if_pos hq, digitCharWords_eq (by omega), pure_bind]
  | case2 k q t hq ih =>
    intro j hj hk
    have ht₁ := one_le_threshold k bias
    have ht₂ := threshold_le k bias
    -- q is at least 1, so it has a digit after the first only if j is positive
    obtain ⟨j, rfl⟩ : ∃ j', j = j' + 1 := by
      cases j with
      | zero => simp only [Nat.pow_zero] at hj; omega
      | succ j => exact ⟨j, rfl⟩
    have hq' : (q - t) / (36 - t) < 10 ^ j := by
      have h₁ : (q - t) / (36 - t) ≤ (q - t) / 10 := Nat.div_le_div_left (by omega) (by omega)
      have h₂ : (q - t) / 10 < 10 ^ j := by
        rw [Nat.div_lt_iff_lt_mul (by omega), ← Nat.pow_succ]
        omega
      omega
    have hmod : (q - t) % (36 - t) < 36 - t := Nat.mod_lt _ (by omega)
    rw [encodeDigitsWords, ht, pure_bind, if_neg hq, ← show t = threshold k bias from rfl]
    simp (disch := omega) only [Word.sub_of_le, Word.rem_of_pos, Word.div_of_pos, pure_bind]
    rw [Word.add_of_lt (by unfold wordBound; omega), pure_bind, digitCharWords_eq (by omega),
      pure_bind, if_pos (by omega), ih j hq' (by omega), pure_bind]

/-! ## The encoder -/

theorem length_filter_lt_succ (l : List Nat) (m : Nat) :
    (l.filter (· < m + 1)).length = (l.filter (· < m)).length + (l.filter (· = m)).length := by
  induction l with
  | nil => rfl
  | cons c l ih =>
    simp only [List.filter_cons]
    rcases Nat.lt_trichotomy c m with hc | rfl | hc
    · simp only [hc, Nat.lt_succ_of_lt hc, Nat.ne_of_lt hc, decide_true,
        decide_false, if_true, Bool.false_eq_true, if_false, List.length_cons, ih]
      omega
    · simp only [Nat.lt_succ_self, Nat.lt_irrefl, decide_true, decide_false,
        if_true, Bool.false_eq_true, if_false, List.length_cons, ih]
      omega
    · simp only [Nat.not_lt.2 (Nat.succ_le_of_lt hc), Nat.not_lt.2 (Nat.le_of_lt hc),
        Nat.ne_of_gt hc, decide_false, Bool.false_eq_true, if_false, ih]

section Encoder
variable {cps : List Nat} {b : Nat}

/-- The encoder in the round for m, having scanned pre with post still to scan: it has handled
the code points below m and the copies of m in pre, its delta is a word, and once it has met m
its delta counts at most the code points scanned since. -/
structure Scan (cps : List Nat) (m : Nat) (pre post : List Nat) (st : EncodeState) : Prop where
  split : pre ++ post = cps
  handled_eq : st.handled = (cps.filter (· < m)).length + (pre.filter (· = m)).length
  delta_lt : st.delta < wordBound
  delta_le : m ∈ pre → st.delta + 1 ≤ pre.length
  bias_le : st.bias ≤ 215

/-- The encoder between rounds, with R the rounds to go: it has handled the code points below n,
R holds exactly the code points at or above n, ascending, and delta is at most the length. -/
structure Pending (cps : List Nat) (n : Nat) (R : List Nat) (st : EncodeState) : Prop where
  handled_eq : st.handled = (cps.filter (· < n)).length
  sorted : R.Pairwise (· < ·)
  above : ∀ r ∈ R, n ≤ r
  covers : ∀ c ∈ cps, n ≤ c → c ∈ R
  mem : ∀ r ∈ R, r ∈ cps
  delta_le : st.delta ≤ cps.length
  bias_le : st.bias ≤ 215

theorem Scan.below {m c : Nat} {pre post : List Nat} {st : EncodeState}
    (h : Scan cps m pre (c :: post) st) (hc : c < m) (hd : st.delta + 1 < wordBound) :
    Scan cps m (pre ++ [c]) post { st with delta := st.delta + 1 } where
  split := by rw [List.append_assoc, List.singleton_append]; exact h.split
  handled_eq := by rw [h.handled_eq]; simp [Nat.ne_of_lt hc]
  delta_lt := hd
  delta_le := fun hm => by
    have := h.delta_le (by simpa [Nat.ne_of_gt hc] using hm)
    simp only [List.length_append, List.length_singleton]
    omega
  bias_le := h.bias_le

theorem Scan.above {m c : Nat} {pre post : List Nat} {st : EncodeState}
    (h : Scan cps m pre (c :: post) st) (hc : m < c) : Scan cps m (pre ++ [c]) post st where
  split := by rw [List.append_assoc, List.singleton_append]; exact h.split
  handled_eq := by rw [h.handled_eq]; simp [Nat.ne_of_gt hc]
  delta_lt := h.delta_lt
  delta_le := fun hm => by
    have := h.delta_le (by simpa [Nat.ne_of_lt hc] using hm)
    simp only [List.length_append, List.length_singleton]
    omega
  bias_le := h.bias_le

theorem Scan.handled_lt {m : Nat} {pre post : List Nat} {st : EncodeState}
    (h : Scan cps m pre (m :: post) st) : st.handled < cps.length := by
  have hcount : (cps.filter (· = m)).length = (pre.filter (· = m)).length + 1 +
      (post.filter (· = m)).length := by
    rw [← h.split]
    simp only [List.filter_append, decide_true, List.filter_cons_of_pos, List.length_append,
      List.length_cons]
    omega
  have := length_filter_lt_succ cps m
  have := List.length_filter_le (· < m + 1) cps
  rw [h.handled_eq]
  omega

theorem Pending.filter_lt_eq {n m : Nat} {R : List Nat} {st : EncodeState}
    (h : Pending cps n (m :: R) st) : cps.filter (· < n) = cps.filter (· < m) := by
  have hnm : n ≤ m := h.above m List.mem_cons_self
  refine List.filter_congr fun c hc => ?_
  by_cases hcn : n ≤ c
  · have hcm : m ≤ c := by
      rcases List.mem_cons.1 (h.covers c hc hcn) with rfl | hr
      · exact Nat.le_refl c
      · exact Nat.le_of_lt (List.rel_of_pairwise_cons h.sorted hr)
    simp [Nat.not_lt.2 hcn, Nat.not_lt.2 hcm]
  · simp [Nat.lt_of_not_le hcn, Nat.lt_of_lt_of_le (Nat.lt_of_not_le hcn) hnm]

theorem Pending.min?_eq {n m : Nat} {R : List Nat} {st : EncodeState}
    (h : Pending cps n (m :: R) st) : (cps.filter (n ≤ ·)).min? = some m := by
  rw [List.min?_eq_some_iff]
  refine ⟨List.mem_filter.2 ⟨h.mem m List.mem_cons_self, by simpa using h.above m List.mem_cons_self⟩,
    fun c hc => ?_⟩
  obtain ⟨hc, hnc⟩ := List.mem_filter.1 hc
  rcases List.mem_cons.1 (h.covers c hc (by simpa using hnc)) with rfl | hr
  · exact Nat.le_refl c
  · exact Nat.le_of_lt (List.rel_of_pairwise_cons h.sorted hr)

theorem Pending.next {n m : Nat} {R : List Nat} {st st₁ : EncodeState}
    (h : Pending cps n (m :: R) st) (h₁ : Scan cps m cps [] st₁) :
    Pending cps (m + 1) R { st₁ with delta := st₁.delta + 1 } where
  handled_eq := by
    rw [h₁.handled_eq, length_filter_lt_succ]
  sorted := (List.pairwise_cons.1 h.sorted).2
  above := fun r hr => (List.pairwise_cons.1 h.sorted).1 r hr
  covers := fun c hc hmc => by
    rcases List.mem_cons.1 (h.covers c hc (by have := h.above m List.mem_cons_self; omega))
      with rfl | hr
    · omega
    · exact hr
  mem := fun r hr => h.mem r (List.mem_cons_of_mem m hr)
  delta_le := h₁.delta_le (h.mem m List.mem_cons_self)
  bias_le := h₁.bias_le

variable (hlen : cps.length < 2 ^ 31)
include hlen

theorem scan_step {m c : Nat} {pre post : List Nat} {st : EncodeState}
    (h : Scan cps m pre (c :: post) st) :
    encodeStepWords b m st c = (encodeStep b m st c).elim (throw .overflow) pure ∧
      ∀ st', encodeStep b m st c = some st' → Scan cps m (pre ++ [c]) post st' := by
  rcases Nat.lt_trichotomy c m with hc | rfl | hc
  · -- one more slot; the count is checked against the bound
    by_cases hd : wordBound ≤ st.delta + 1
    · have e : encodeStep b m st c = none := by rw [encodeStep, if_pos hc, if_pos hd]
      rw [e, encodeStepWords, if_pos hc, Word.checkedAdd_of_le hd, throw_bind_stop]
      exact ⟨rfl, fun _ h' => by cases h'⟩
    · have e : encodeStep b m st c = some { st with delta := st.delta + 1 } := by
        rw [encodeStep, if_pos hc, if_neg hd]
      rw [e, encodeStepWords, if_pos hc, Word.checkedAdd_of_lt (by omega), pure_bind]
      refine ⟨rfl, fun st' h' => ?_⟩
      cases h'
      exact h.below hc (by omega)
  · -- the round's code point: its integer is written and the bias adapts
    have hh := h.handled_lt
    have hdigits := encodeDigitsWords_eq h.bias_le 36 st.delta 10
      (Nat.lt_trans h.delta_lt (by unfold wordBound; norm_num)) (by unfold wordBound; omega)
    rw [encodeStep_self, encodeStepWords, if_neg (Nat.lt_irrefl c), if_pos rfl, hdigits, pure_bind,
      Word.add_of_lt (by unfold wordBound; omega), pure_bind,
      adaptWords_eq _ h.delta_lt (Nat.add_one_pos _), pure_bind, pure_bind]
    refine ⟨rfl, fun st' h' => ?_⟩
    cases h'
    exact {
      split := by rw [List.append_assoc, List.singleton_append]; exact h.split
      handled_eq := by
        rw [h.handled_eq]
        simp only [List.filter_append, decide_true, List.filter_cons_of_pos, List.filter_nil,
          List.length_append, List.length_cons, List.length_nil, zero_add]
        omega
      delta_lt := by show 0 < wordBound; unfold wordBound; omega
      delta_le := fun _ => by simp
      bias_le := adapt_le _ _ h.delta_lt }
  · rw [encodeStep_of_gt st hc, encodeStepWords, if_neg (by omega), if_neg (by omega)]
    refine ⟨rfl, fun st' h' => ?_⟩
    cases h'
    exact h.above hc

/-- The scan of one round: over words as over numbers, and after it every code point is
scanned. -/
theorem scan_run {m : Nat} : ∀ (post pre : List Nat) (st : EncodeState), Scan cps m pre post st →
    post.foldlM (encodeStepWords b m) st = (post.foldlM (encodeStep b m) st).elim (throw .overflow) pure ∧
      ∀ st', post.foldlM (encodeStep b m) st = some st' → Scan cps m cps [] st'
  | [], pre, st, h => by
    have hpre : pre = cps := by simpa using h.split
    subst hpre
    refine ⟨rfl, fun st' h' => ?_⟩
    cases h'
    exact h
  | c :: post, pre, st, h => by
    obtain ⟨hw, hscan⟩ := scan_step hlen (b := b) h
    rw [List.foldlM_cons, List.foldlM_cons, hw]
    cases hs : encodeStep b m st c with
    | none => exact ⟨rfl, fun _ h' => by cases h'⟩
    | some st₁ =>
      rw [Option.elim_some, pure_bind, Option.bind_eq_bind, Option.bind_some]
      exact scan_run post (pre ++ [c]) st₁ (hscan st₁ hs)

/-- The rounds over words are the rounds over numbers: the search finds each round's code point,
and only the checked computation of delta can stop them. -/
theorem rounds_run (hcp : ∀ c ∈ cps, c < 0x110000) : ∀ (R : List Nat) (n : Nat) (st : EncodeState),
    Pending cps n R st →
      encodeLoopWords cps b n st = (encodeRounds cps b R n st).elim (throw .overflow) pure
  | [], n, st, h => by
    -- every code point is below n, so every one is handled
    have hall : cps.filter (· < n) = cps := List.filter_eq_self.2 fun c hc => by
      have := h.covers c hc
      simp only [List.not_mem_nil, imp_false, Nat.not_le] at this
      simpa using this
    rw [encodeLoopWords, if_neg (by rw [h.handled_eq, hall]; omega)]
    rfl
  | m :: R, n, st, h => by
    have hm : m ∈ cps := h.mem m List.mem_cons_self
    have hnm : n ≤ m := h.above m List.mem_cons_self
    have hlt : st.handled < cps.length := by
      rw [h.handled_eq]
      exact List.length_filter_lt_length_iff_exists.2 ⟨m, hm, by simpa using hnm⟩
    rw [encodeLoopWords, if_pos hlt]
    split
    · next hmin => rw [h.min?_eq] at hmin; cases hmin
    · next m' hmin =>
      rw [h.min?_eq] at hmin
      cases hmin
      rw [Word.sub_of_le hnm, pure_bind, Word.add_of_lt (by unfold wordBound; omega), pure_bind,
        encodeRounds]
      -- the slots from n up to m are checked, then their sum with delta
      rw [Word.checkedMul_checkedAdd_bind]
      by_cases hadd : wordBound ≤ (m - n) * (st.handled + 1) + st.delta
      · rw [if_pos hadd, if_pos hadd]
        rfl
      rw [if_neg hadd, if_neg hadd]
      have hscan : Scan cps m [] cps { st with delta := (m - n) * (st.handled + 1) + st.delta } :=
        { split := List.nil_append _
          handled_eq := by rw [h.handled_eq, h.filter_lt_eq]; simp
          delta_lt := Nat.lt_of_not_le hadd
          delta_le := fun h' => by cases h'
          bias_le := h.bias_le }
      obtain ⟨hw, hnext⟩ := scan_run hlen (b := b) cps [] _ hscan
      rw [hw]
      cases hf : cps.foldlM (encodeStep b m)
          { st with delta := (m - n) * (st.handled + 1) + st.delta } with
      | none => rfl
      | some st₁ =>
        have h₁ := hnext st₁ hf
        have hd := h₁.delta_le hm
        have hm' := hcp m hm
        rw [Option.elim_some, pure_bind, Word.add_of_lt (by unfold wordBound; omega), pure_bind,
          if_pos (by unfold wordBound; omega)]
        exact rounds_run hcp R (m + 1) _ (h.next h₁)

end Encoder

/-! ## The decoder -/

/-- The run over words gives what the run over numbers gives, and where that gives nothing it
stops by a checked overflow or by refusing its input, never by a fault. -/
def Agrees {α : Type} (x : Except Stop α) (o : Option α) : Prop :=
  x.toOption = o ∧ ∀ e, x = .error e → e = .overflow ∨ e = .invalid

namespace Agrees
variable {α β : Type}

protected theorem pure (a : α) : Agrees (pure a : Except Stop α) (some a) :=
  ⟨rfl, fun _ h => by cases h⟩

theorem overflow : Agrees (throw .overflow : Except Stop α) none :=
  ⟨rfl, fun _ h => by cases h; exact .inl rfl⟩

theorem invalid : Agrees (throw .invalid : Except Stop α) none :=
  ⟨rfl, fun _ h => by cases h; exact .inr rfl⟩

theorem eq_ok_of {x : Except Stop α} {o : Option α} {a : α} (h : Agrees x o) (ho : o = some a) :
    x = .ok a := by
  subst ho
  cases x with
  | error e => cases h.1
  | ok a' => cases h.1; rfl

end Agrees

theorem decodeDigits_le (bias : Nat) :
    ∀ (l : List Char) (k w i i' : Nat) (rest : List Char),
      decodeDigits bias l k w i = some (i', rest) → i ≤ i'
  | [], _, _, _, _, _, h => by cases h
  | c :: l, k, w, i, i', rest, h => by
    rw [decodeDigits] at h
    split at h
    · cases h
    · simp only at h
      split at h
      · cases h
      · split at h
        · cases h
          omega
        · split at h
          · cases h
          · have := decodeDigits_le bias l _ _ _ i' rest h
            omega

theorem lt_ten_of_pow_lt {n : Nat} (h : 10 ^ n < wordBound) : n < 10 := by
  by_contra hn
  have hp : 10 ^ 10 ≤ 10 ^ n := Nat.pow_le_pow_right (by norm_num) (by omega)
  norm_num at hp
  unfold wordBound at h
  omega

/-- One integer over words as over numbers. The position is 36 times one more than the number of
digits read, and the weight is at least ten to that number; a weight is a word, so the position
stays small. -/
theorem decodeDigitsWords_agrees {bias : Nat} (hb : bias ≤ 215) :
    ∀ (l : List Char) (j w i : Nat), 10 ^ j ≤ w →
      Agrees (decodeDigitsWords bias l (36 * (j + 1)) w i) (decodeDigits bias l (36 * (j + 1)) w i)
  | [], _, _, _, _ => Agrees.invalid
  | c :: l, j, w, i, hw => by
    rw [decodeDigitsWords, decodeDigits]
    cases hd : digitValue c with
    | none => exact Agrees.invalid
    | some d =>
      dsimp only
      have ht₁ := one_le_threshold (36 * (j + 1)) bias
      have ht₂ := threshold_le (36 * (j + 1)) bias
      rw [Word.checkedMul_checkedAdd_bind]
      by_cases h₂ : wordBound ≤ d * w + i
      · rw [if_pos h₂, if_pos h₂]
        exact Agrees.overflow
      rw [if_neg h₂, if_neg h₂, thresholdWords_eq (by unfold wordBound; omega), pure_bind]
      by_cases hdt : d < threshold (36 * (j + 1)) bias
      · rw [if_pos hdt, if_pos hdt]
        exact Agrees.pure _
      rw [if_neg hdt, if_neg hdt, Word.sub_of_le (by omega), pure_bind]
      by_cases h₃ : wordBound ≤ w * (36 - threshold (36 * (j + 1)) bias)
      · rw [Word.checkedMul_of_le h₃, throw_bind_stop, if_pos h₃]
        exact Agrees.overflow
      have hw' : 10 ^ (j + 1) ≤ w * (36 - threshold (36 * (j + 1)) bias) := by
        rw [Nat.pow_succ]
        exact Nat.mul_le_mul hw (by omega)
      have hj := lt_ten_of_pow_lt (Nat.lt_of_le_of_lt hw' (Nat.lt_of_not_le h₃))
      rw [Word.checkedMul_of_lt (by omega), pure_bind, if_neg h₃,
        Word.add_of_lt (by unfold wordBound; omega), pure_bind,
        show 36 * (j + 1) + 36 = 36 * (j + 1 + 1) by omega]
      exact decodeDigitsWords_agrees hb l (j + 1) _ _ hw'

theorem decodeDigitsWords_agrees_first {bias : Nat} (hb : bias ≤ 215) (l : List Char) (i : Nat) :
    Agrees (decodeDigitsWords bias l 36 1 i) (decodeDigits bias l 36 1 i) := by
  simpa using decodeDigitsWords_agrees hb l 0 1 i (by simp)

/-- Once its integer is read, a step of the decoder's loop over words finds the length, the
distance the index moved and the new bias without fault, and goes on with the checked addition
to the code point. -/
theorem decodeLoopWords_of_ok {bias n i i' : Nat} {out digits rest : List Char}
    (hne : ¬ digits.isEmpty = true) (hd : decodeDigitsWords bias digits 36 1 i = .ok (i', rest))
    (hii : i ≤ i') (hi' : i' < wordBound) (hl : out.length + 1 < wordBound) :
    decodeLoopWords bias n i out digits = (do
      let n' ← Word.checkedAdd n (i' / (out.length + 1))
      let pos ← Word.rem i' (out.length + 1)
      let c ← Word.toChar n'
      let out' ← Word.insertAt out pos c
      decodeLoopWords (adapt (i' - i) (out.length + 1) (i == 0)) n' (← Word.add pos 1) out' rest) := by
  rw [decodeLoopWords, if_neg hne]
  split
  · next e he => rw [hd] at he; cases he
  · next i'' rest' he =>
    rw [hd] at he
    cases he
    rw [Word.ofLength_of_lt (by omega), pure_bind, Word.add_of_lt hl, pure_bind, Word.sub_of_le hii,
      pure_bind, adaptWords_eq _ (by omega) (Nat.add_one_pos _), pure_bind, Word.div_of_pos (Nat.add_one_pos _),
      pure_bind]

/-- The decoder's loop over words as over numbers, while the output and the digits left are
together shorter than 2^31. -/
theorem decodeLoopWords_agrees (bias n i : Nat) (out digits : List Char) :
    bias ≤ 215 → out.length + digits.length < 2 ^ 31 →
      Agrees (decodeLoopWords bias n i out digits) (decodeLoop bias n i out digits) := by
  fun_induction decodeLoop bias n i out digits with
  | case1 bias n i out digits hne =>
    intro _ _
    rw [decodeLoopWords, if_pos hne]
    exact Agrees.pure _
  | case2 bias n i out digits hne hd =>
    -- the integer is refused over numbers, so over words it stops the same way
    intro hb _
    have ha := decodeDigitsWords_agrees_first hb digits i
    rw [hd] at ha
    rw [decodeLoopWords, if_neg hne]
    split
    · next e he => exact ⟨rfl, fun e' h' => by cases h'; exact ha.2 e he⟩
    · next i' rest he => rw [he] at ha; cases ha.1
  | case3 bias n i out digits hne i' rest hd len n' hn =>
    -- the code point leaves its word, or is no character
    intro hb hl
    have hl' : rest.length < digits.length := decodeDigits_length bias digits 36 1 i (i', rest) hd
    rw [decodeLoopWords_of_ok hne (decodeDigitsWords_agrees_first hb digits i |>.eq_ok_of hd)
      (decodeDigits_le bias digits 36 1 i i' rest hd) (decodeDigits_lt bias digits 36 1 i i' rest hd)
      (by unfold wordBound; omega)]
    rcases Nat.lt_or_ge (n + i' / (out.length + 1)) wordBound with hw | hw
    · have hv : ¬ (n + i' / (out.length + 1)).isValidChar := by
        rcases hn with hn | hn
        · exact absurd hn (Nat.not_le.2 hw)
        · exact hn
      rw [Word.checkedAdd_of_lt hw, pure_bind, Word.rem_of_pos (Nat.add_one_pos _), pure_bind,
        Word.toChar_of_not_valid hv, throw_bind_stop]
      exact Agrees.invalid
    · rw [Word.checkedAdd_of_le hw, throw_bind_stop]
      exact Agrees.overflow
  | case4 bias n i out digits hne i' rest hd len n' hn pos ih =>
    intro hb hl
    have hl' : rest.length < digits.length := decodeDigits_length bias digits 36 1 i (i', rest) hd
    have hi' := decodeDigits_lt bias digits 36 1 i i' rest hd
    have hpos : i' % (out.length + 1) < out.length + 1 := Nat.mod_lt _ (Nat.add_one_pos _)
    have hw : n + i' / (out.length + 1) < wordBound := Nat.lt_of_not_le (not_or.1 hn).1
    have hv : (n + i' / (out.length + 1)).isValidChar := not_not.1 (not_or.1 hn).2
    rw [decodeLoopWords_of_ok hne (decodeDigitsWords_agrees_first hb digits i |>.eq_ok_of hd)
      (decodeDigits_le bias digits 36 1 i i' rest hd) hi' (by unfold wordBound; omega),
      Word.checkedAdd_of_lt hw, pure_bind, Word.rem_of_pos (Nat.add_one_pos _), pure_bind,
      Word.toChar_of_valid hv, pure_bind, Word.insertAt_of_le (by omega), pure_bind,
      Word.add_of_lt (by unfold wordBound; omega), pure_bind]
    refine ih (adapt_le _ _ (by omega)) ?_
    simp only [List.length_append, List.length_take, List.length_cons, List.length_drop, pos, len]
    omega

theorem splitLastHyphen_length (cs : List Char) :
    (splitLastHyphen cs).1.length + (splitLastHyphen cs).2.length ≤ cs.length := by
  have hspan : ∀ a r, cs.reverse.span (· ≠ '-') = (a, r) → a.length + r.length = cs.length := by
    intro a r h
    rw [List.span_eq_takeWhile_dropWhile, Prod.mk.injEq] at h
    rw [← h.1, ← h.2, ← List.length_append, List.takeWhile_append_dropWhile, List.length_reverse]
  unfold splitLastHyphen
  split
  · next a x r h =>
    have := hspan a (x :: r) h
    simp only [List.length_reverse, List.length_cons] at this ⊢
    omega
  · simp

theorem decodeWords_agrees {input : List Char} (h : input.length < 2 ^ 31) :
    Agrees (decodeWords input) (decode input) := by
  have hsplit := splitLastHyphen_length input
  unfold decodeWords decode
  rcases hs : splitLastHyphen input with ⟨basic, extended⟩
  rw [hs] at hsplit
  dsimp only
  by_cases hb : basic.all (·.toNat < 0x80) = true
  · rw [if_pos hb, if_pos hb]
    exact decodeLoopWords_agrees 72 0x80 0 basic extended (by norm_num) (by simp only at hsplit; omega)
  · rw [if_neg hb, if_neg hb]
    exact Agrees.invalid

theorem toNat_lt_codeSpace (c : Char) : c.toNat < 0x110000 := by
  rcases c.valid with hc | hc <;> (simp only [Char.toNat] at *; omega)

theorem separator_eq (l : List Char) :
    (if 0 < l.length then ['-'] else []) = (if l.isEmpty then [] else ['-']) := by
  cases l <;> simp

/-- Encoding over words as over numbers: the search for the next code point always finds one,
and the run stops early only where a checked computation of delta overflows. -/
theorem encodeWords_eq {input : List Char} (h : input.length < 2 ^ 31) :
    encodeWords input = (encode input).elim (throw .overflow) pure := by
  have hcp : ∀ c ∈ input.map Char.toNat, c < 0x110000 := by
    intro c hc
    obtain ⟨ch, -, rfl⟩ := List.mem_map.1 hc
    exact toNat_lt_codeSpace ch
  have hbasic : (basicPart input).length = ((input.map Char.toNat).filter (· < 0x80)).length := by
    simp [basicPart, List.filter_map, Function.comp_def]
  -- before the first round: the basic code points are handled, every other one is a round
  have hstart : Pending (input.map Char.toNat) 0x80
      (sortedDistinct ((input.map Char.toNat).filter fun c => 0x80 ≤ c))
      ⟨[], 0, 72, (basicPart input).length⟩ := {
    handled_eq := hbasic
    sorted := pairwise_sortedDistinct _
    above := fun r hr => by simpa using (List.mem_filter.1 (mem_sortedDistinct.1 hr)).2
    covers := fun c hc h80 => mem_sortedDistinct.2 (List.mem_filter.2 ⟨hc, by simpa using h80⟩)
    mem := fun r hr => (List.mem_filter.1 (mem_sortedDistinct.1 hr)).1
    delta_le := Nat.zero_le _
    bias_le := by norm_num }
  have hb : (basicPart input).length < wordBound := by
    have := List.length_filter_le (fun c => decide (c.toNat < 0x80)) input
    unfold wordBound
    simp only [basicPart] at this ⊢
    omega
  dsimp only [encodeWords, encode]
  rw [Word.ofLength_of_lt hb, pure_bind,
    rounds_run (by simpa using h) hcp _ _ _ hstart]
  cases encodeRounds (input.map Char.toNat) (basicPart input).length
    (sortedDistinct ((input.map Char.toNat).filter fun c => 0x80 ≤ c)) 0x80
    ⟨[], 0, 72, (basicPart input).length⟩ with
  | none => rfl
  | some st => rw [Option.elim_some, pure_bind, separator_eq]; rfl

/-- Over 32-bit words that fault wherever an unchecked operation would leave them, encoding and
decoding a text of fewer than 2^31 code points never fault and compute what the conversions over
numbers compute. Encoding stops early only where a checked computation of delta overflows, so its
search for the next code point always finds one; decoding stops early only where a checked
operation overflows or its input is no punycode. Both runs end: every loop of them has a measure. -/
theorem wordRuns_never_fault (input : List Char) (h : input.length < 2 ^ 31) :
    encodeWords input = (encode input).elim (throw .overflow) pure ∧
      (decodeWords input).toOption = decode input ∧
      ∀ e, decodeWords input = .error e → e = .overflow ∨ e = .invalid :=
  ⟨encodeWords_eq h, (decodeWords_agrees h).1, (decodeWords_agrees h).2⟩

/-- "bücher" encodes and decodes over words as over numbers. -/
theorem wordRuns_never_fault_bucher :
    let s := ['b', 'ü', 'c', 'h', 'e', 'r']
    s.length < 2 ^ 31 ∧ encodeWords s = (encode s).elim (throw .overflow) pure ∧
      (decodeWords s).toOption = decode s := by
  intro s
  have h : s.length < 2 ^ 31 := by decide
  have hw := wordRuns_never_fault s h
  exact ⟨h, hw.1, hw.2.1⟩

end DnsStub.Punycode
