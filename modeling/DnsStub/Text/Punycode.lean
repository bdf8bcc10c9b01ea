/-!
# Punycode

The bootstring encoding of RFC 3492 with its parameters for domain labels, without the
"xn--" prefix, which belongs to names. All arithmetic stays below 2^32: a step whose result
would reach that bound makes the whole conversion fail.

The decoder adapts its bias as the first step does whenever the index it starts a code point
from is zero, and it does not check that its output would encode back to its input.

Every loop ends by a measure: the bias loop divides by 35, a digit string ends because its
value shrinks, the encoder walks the sorted non-basic code points once, and the decoder
consumes at least one input character per code point.
-/
namespace DnsStub.Punycode

/-- Results of the arithmetic must stay below this bound, 2^32. -/
def wordBound : Nat := 4294967296

/-- The character of a digit value below 36: 0 to 25 are a to z, 26 to 35 are 0 to 9. -/
def digitChar (d : Nat) : Char :=
  if d < 26 then Char.ofNat (97 + d) else Char.ofNat (22 + d)

/-- The value of a digit character; capital letters count as small ones. -/
def digitValue (c : Char) : Option Nat :=
  let n := c.toNat
  if 97 ≤ n ∧ n ≤ 122 then some (n - 97)
  else if 65 ≤ n ∧ n ≤ 90 then some (n - 65)
  else if 48 ≤ n ∧ n ≤ 57 then some (n - 22)
  else none

/-- The threshold of the digit at position k. -/
def threshold (k bias : Nat) : Nat :=
  if k ≤ bias then 1 else if bias + 26 ≤ k then 26 else k - bias

theorem one_le_threshold (k bias : Nat) : 1 ≤ threshold k bias := by
  unfold threshold; split <;> (try split) <;> omega

theorem threshold_le (k bias : Nat) : threshold k bias ≤ 26 := by
  unfold threshold; split <;> (try split) <;> omega

/-- Divides delta by 35 until it is at most 455, adding 36 to k each time, then adds the final
share of delta. -/
def adaptLoop (delta k : Nat) : Nat :=
  if 455 < delta then adaptLoop (delta / 35) (k + 36) else k + 36 * delta / (delta + 38)
termination_by delta
decreasing_by exact Nat.div_lt_self (by omega) (by omega)

/-- The bias after a code point; the first adaptation damps by 700, later ones by 2. -/
def adapt (delta numPoints : Nat) (first : Bool) : Nat :=
  let d := delta / (if first then 700 else 2)
  adaptLoop (d + d / numPoints) 0

/-- The digits of a variable-length integer, least significant first. -/
def encodeDigits (bias k q : Nat) : List Char :=
  let t := threshold k bias
  if q < t then [digitChar q]
  else digitChar (t + (q - t) % (36 - t)) :: encodeDigits bias (k + 36) ((q - t) / (36 - t))
termination_by q
decreasing_by
  have h1 := one_le_threshold k bias
  have h2 := threshold_le k bias
  exact Nat.lt_of_le_of_lt (Nat.div_le_self _ _) (by omega)

/-- Inserts into an ascending list without duplicates. -/
def insertSorted (x : Nat) : List Nat → List Nat
  | [] => [x]
  | y :: ys => if x < y then x :: y :: ys else if x = y then y :: ys else y :: insertSorted x ys

/-- The distinct values of a list, ascending. -/
def sortedDistinct : List Nat → List Nat
  | [] => []
  | x :: xs => insertSorted x (sortedDistinct xs)

/-- The encoder's state: digits written so far, the running delta, the bias and the number of
code points handled. -/
structure EncodeState where
  out : List Char
  delta : Nat
  bias : Nat
  handled : Nat

/-- Looks at one code point during the round for the code point m; b is the number of basic
code points. -/
def encodeStep (b m : Nat) (st : EncodeState) (c : Nat) : Option EncodeState :=
  if c < m then
    if wordBound ≤ st.delta + 1 then none else some { st with delta := st.delta + 1 }
  else if c = m then
    some { out := st.out ++ encodeDigits st.bias 36 st.delta, delta := 0,
           bias := adapt st.delta (st.handled + 1) (st.handled == b), handled := st.handled + 1 }
  else some st

/-- One round per non-basic code point m, ascending; n is the smallest code point not yet
handled. -/
def encodeRounds (cps : List Nat) (b : Nat) : List Nat → Nat → EncodeState → Option EncodeState
  | [], _, st => some st
  | m :: rest, n, st =>
    let delta := (m - n) * (st.handled + 1) + st.delta
    if wordBound ≤ delta then none
    else match cps.foldlM (encodeStep b m) { st with delta := delta } with
      | none => none
      | some st' => encodeRounds cps b rest (m + 1) { st' with delta := st'.delta + 1 }

/-- The basic code points of a text, those below 128. -/
def basicPart (input : List Char) : List Char :=
  input.filter fun c => c.toNat < 0x80

/-- Encodes a text: its basic code points, a hyphen if there are any, then the digits of the
others. -/
def encode (input : List Char) : Option (List Char) :=
  let basic := basicPart input
  let cps := input.map Char.toNat
  let rounds := sortedDistinct (cps.filter fun c => 0x80 ≤ c)
  match encodeRounds cps basic.length rounds 0x80 ⟨[], 0, 72, basic.length⟩ with
  | none => none
  | some st => some (basic ++ (if basic.isEmpty then [] else ['-']) ++ st.out)

/-- Reads one variable-length integer and adds it, times the weight w, to i. Yields the new i
and the characters after the integer. -/
def decodeDigits (bias : Nat) : List Char → Nat → Nat → Nat → Option (Nat × List Char)
  | [], _, _, _ => none
  | c :: rest, k, w, i =>
    match digitValue c with
    | none => none
    | some d =>
      let i' := d * w + i
      let t := threshold k bias
      if wordBound ≤ i' then none
      else if d < t then some (i', rest)
      else if wordBound ≤ w * (36 - t) then none
      else decodeDigits bias rest (k + 36) (w * (36 - t)) i'

/-- Reading an integer consumes at least one character. -/
theorem decodeDigits_length (bias : Nat) :
    ∀ (l : List Char) (k w i : Nat) (r : Nat × List Char),
      decodeDigits bias l k w i = some r → r.2.length < l.length
  | [], _, _, _, _, h => by simp [decodeDigits] at h
  | c :: rest, k, w, i, r, h => by
    rw [decodeDigits] at h
    split at h
    · simp at h
    · simp only at h
      split at h
      · simp at h
      · split at h
        · rw [← Option.some.inj h]; simp
        · split at h
          · simp at h
          · have := decodeDigits_length bias rest _ _ _ r h
            simp only [List.length_cons]; omega

/-- Inserts one code point per integer read; i is the insertion index carried between
integers and n the code point. -/
def decodeLoop (bias n i : Nat) (out digits : List Char) : Option (List Char) :=
  if digits.isEmpty then some out
  else match _ : decodeDigits bias digits 36 1 i with
    | none => none
    | some (i', rest) =>
      let len := out.length + 1
      let n' := n + i' / len
      if wordBound ≤ n' ∨ ¬ n'.isValidChar then none
      else
        let pos := i' % len
        decodeLoop (adapt (i' - i) len (i == 0)) n' (pos + 1)
          (out.take pos ++ Char.ofNat n' :: out.drop pos) rest
termination_by digits.length
decreasing_by exact decodeDigits_length bias digits 36 1 i (i', rest) (by assumption)

/-- The text before the last hyphen and the text after it; without a hyphen, everything is
after it. -/
def splitLastHyphen (cs : List Char) : List Char × List Char :=
  match cs.reverse.span (· ≠ '-') with
  | (afterRev, _ :: beforeRev) => (beforeRev.reverse, afterRev.reverse)
  | (_, []) => ([], cs)

/-- Decodes the punycode form of a label. -/
def decode (input : List Char) : Option (List Char) :=
  let (basic, extended) := splitLastHyphen input
  if basic.all (·.toNat < 0x80) then decodeLoop 72 0x80 0 basic extended else none

end DnsStub.Punycode
