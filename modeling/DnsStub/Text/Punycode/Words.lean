import DnsStub.Text.Punycode
/-!
# Punycode over 32-bit words

The conversions of `DnsStub.Text.Punycode` compute with numbers and check only what the
conversions themselves check: the steps whose overflow makes them refuse their input. Here the
same conversions run step by step as a machine with 32-bit words runs them, one operation at a
time. A checked operation that overflows ends the run with `Stop.overflow`, where the conversion
refuses; every other operation faults (`Stop.fault`) where its exact result does not fit its
word: an addition, subtraction or multiplication that would wrap, a division or remainder by
zero, a length or a byte cast to a word too small for it, an insertion past the end of the
output. The encoder's search for the next code point ends the run with `Stop.noCodePoint` when it
finds none.

A word is modelled by its value, so each operation is its exact arithmetic guarded by the bound
of its word; every value a run computes is then below that bound.

Every loop ends by a measure, the encoder's two loops because they fault before their counter
leaves its word: the digit loop adds 36 to its position each time, the outer loop moves past the
code point it found.
-/
namespace DnsStub.Punycode

/-- Why a run over words ends without a result. -/
inductive Stop where
  /-- An unchecked operation would leave its word. -/
  | fault
  /-- A checked operation overflows, and the conversion refuses its input. -/
  | overflow
  /-- The encoder finds no code point at or above the one it looks for. -/
  | noCodePoint
  /-- The text is no punycode: a non-basic character before the last hyphen, a character that is
  no digit, digits that end inside an integer, or a value that is no character. -/
  | invalid
  deriving DecidableEq, Repr

namespace Word

/-- An addition of words, which faults where it would wrap. -/
def add (a b : Nat) : Except Stop Nat :=
  if a + b < wordBound then pure (a + b) else throw .fault

/-- A subtraction of words, which faults where it would wrap below zero. -/
def sub (a b : Nat) : Except Stop Nat :=
  if b ≤ a then pure (a - b) else throw .fault

/-- A multiplication of words, which faults where it would wrap. -/
def mul (a b : Nat) : Except Stop Nat :=
  if a * b < wordBound then pure (a * b) else throw .fault

/-- A division of words, which faults on a zero divisor. -/
def div (a b : Nat) : Except Stop Nat :=
  if 0 < b then pure (a / b) else throw .fault

/-- A remainder of words, which faults on a zero divisor. -/
def rem (a b : Nat) : Except Stop Nat :=
  if 0 < b then pure (a % b) else throw .fault

/-- An addition the conversion checks: it refuses where the sum would wrap. -/
def checkedAdd (a b : Nat) : Except Stop Nat :=
  if a + b < wordBound then pure (a + b) else throw .overflow

/-- A multiplication the conversion checks: it refuses where the product would wrap. -/
def checkedMul (a b : Nat) : Except Stop Nat :=
  if a * b < wordBound then pure (a * b) else throw .overflow

def ofLength (n : Nat) : Except Stop Nat :=
  if n < wordBound then pure n else throw .fault

def toByte (a : Nat) : Except Stop Nat :=
  if a < 256 then pure a else throw .fault

/-- An addition of bytes, which faults where it would wrap. -/
def addByte (a b : Nat) : Except Stop Nat :=
  if a + b < 256 then pure (a + b) else throw .fault

/-- The character of a word; a word that is no character makes the conversion refuse. -/
def toChar (n : Nat) : Except Stop Char :=
  if n.isValidChar then pure (Char.ofNat n) else throw .invalid

/-- Inserts into the output at a position, which faults past its end. -/
def insertAt (out : List Char) (pos : Nat) (c : Char) : Except Stop (List Char) :=
  if pos ≤ out.length then pure (out.take pos ++ c :: out.drop pos) else throw .fault

end Word

/-- The threshold of the digit at position k. -/
def thresholdWords (k bias : Nat) : Except Stop Nat :=
  if k ≤ bias then pure 1
  else do
    let top ← Word.add bias 26
    if top ≤ k then pure 26 else Word.sub k bias

/-- Divides delta by 35 until it is at most 455, adding 36 to k each time, then adds the final
share of delta. -/
def adaptLoopWords (delta k : Nat) : Except Stop Nat :=
  if 455 < delta then do
    let k ← Word.add k 36
    adaptLoopWords (delta / 35) k
  else do
    let share ← Word.div (← Word.mul 36 delta) (← Word.add delta 38)
    Word.add k share
termination_by delta
decreasing_by exact Nat.div_lt_self (by omega) (by omega)

/-- The bias after a code point; the first adaptation damps by 700, later ones by 2. -/
def adaptWords (delta numPoints : Nat) (first : Bool) : Except Stop Nat := do
  let d := delta / (if first then 700 else 2)
  let d ← Word.add d (← Word.div d numPoints)
  adaptLoopWords d 0

/-- The character of a digit value: a letter from a, or a decimal digit from 0 after the 26
letters. -/
def digitCharWords (d : Nat) : Except Stop Char :=
  if d < 26 then do
    let b ← Word.addByte 97 (← Word.toByte d)
    pure (Char.ofNat b)
  else do
    let b ← Word.addByte 48 (← Word.toByte (← Word.sub d 26))
    pure (Char.ofNat b)

/-- The digits of a variable-length integer, least significant first. -/
def encodeDigitsWords (bias k q : Nat) : Except Stop (List Char) := do
  let t ← thresholdWords k bias
  if q < t then
    let d ← digitCharWords q
    pure [d]
  else
    let base ← Word.sub 36 t
    let d ← digitCharWords (← Word.add t (← Word.rem (← Word.sub q t) base))
    let q ← Word.div (← Word.sub q t) base
    -- the position moves on by 36, within its word
    if k + 36 < wordBound then
      let rest ← encodeDigitsWords bias (k + 36) q
      pure (d :: rest)
    else throw .fault
termination_by wordBound - k
decreasing_by omega

/-- Looks at one code point during the round for the code point m; b is the number of basic
code points. -/
def encodeStepWords (b m : Nat) (st : EncodeState) (c : Nat) : Except Stop EncodeState :=
  if c < m then do
    let delta ← Word.checkedAdd st.delta 1
    pure { st with delta }
  else if c = m then do
    let digits ← encodeDigitsWords st.bias 36 st.delta
    let bias ← adaptWords st.delta (← Word.add st.handled 1) (st.handled == b)
    let handled ← Word.add st.handled 1
    pure { out := st.out ++ digits, delta := 0, bias, handled }
  else pure st

/-- A code point found by the search is at or above the code point searched from. -/
theorem le_of_min?_filter {cps : List Nat} {n m : Nat} (h : (cps.filter (n ≤ ·)).min? = some m) :
    n ≤ m := by
  have hm := List.mem_filter.1 (List.min?_mem h)
  simpa using hm.2

/-- While code points remain unhandled, the round for the least code point m at or above n:
delta moves on by the slots from n up to m, the scan writes m's integers, and the next round
searches from m + 1. -/
def encodeLoopWords (cps : List Nat) (b n : Nat) (st : EncodeState) : Except Stop EncodeState :=
  if st.handled < cps.length then
    match hm : (cps.filter (n ≤ ·)).min? with
    | none => throw .noCodePoint
    | some m => do
      let slots ← Word.checkedMul (← Word.sub m n) (← Word.add st.handled 1)
      let delta ← Word.checkedAdd slots st.delta
      let st ← cps.foldlM (encodeStepWords b m) { st with delta }
      let delta ← Word.add st.delta 1
      if m + 1 < wordBound then encodeLoopWords cps b (m + 1) { st with delta }
      else throw .fault
  else pure st
termination_by wordBound - n
decreasing_by
  have := le_of_min?_filter hm
  omega

/-- Encodes a text: its basic code points, a hyphen if there are any, then the digits of the
others. -/
def encodeWords (input : List Char) : Except Stop (List Char) := do
  let basic := basicPart input
  let b ← Word.ofLength basic.length
  let st ← encodeLoopWords (input.map Char.toNat) b 0x80 ⟨[], 0, 72, b⟩
  pure (basic ++ (if 0 < b then ['-'] else []) ++ st.out)

/-- Reads one variable-length integer and adds it, times the weight w, to i. Yields the new i
and the characters after the integer. -/
def decodeDigitsWords (bias : Nat) : List Char → Nat → Nat → Nat → Except Stop (Nat × List Char)
  | [], _, _, _ => throw .invalid
  | c :: rest, k, w, i =>
    match digitValue c with
    | none => throw .invalid
    | some d => do
      let i ← Word.checkedAdd (← Word.checkedMul d w) i
      let t ← thresholdWords k bias
      if d < t then pure (i, rest)
      else do
        let w ← Word.checkedMul w (← Word.sub 36 t)
        let k ← Word.add k 36
        decodeDigitsWords bias rest k w i

/-- Reading an integer consumes at least one character. -/
theorem decodeDigitsWords_length (bias : Nat) :
    ∀ (l : List Char) (k w i : Nat) (r : Nat × List Char),
      decodeDigitsWords bias l k w i = .ok r → r.2.length < l.length
  | [], _, _, _, _, h => by cases h
  | c :: rest, k, w, i, r, h => by
    rw [decodeDigitsWords] at h
    split at h
    · cases h
    · simp only [bind, Except.bind, pure, Except.pure] at h
      repeat' split at h
      all_goals first
        | (cases h; done)
        | (cases h; simp)
        | (simp only [List.length_cons]
           have := decodeDigitsWords_length bias rest _ _ _ r h
           omega)

/-- Inserts one code point per integer read; i is the insertion index carried between integers
and n the code point. -/
def decodeLoopWords (bias n i : Nat) (out digits : List Char) : Except Stop (List Char) :=
  if digits.isEmpty then pure out
  else match _ : decodeDigitsWords bias digits 36 1 i with
    | .error e => throw e
    | .ok (i', rest) => do
      let len ← Word.add (← Word.ofLength out.length) 1
      let bias' ← adaptWords (← Word.sub i' i) len (i == 0)
      let n' ← Word.checkedAdd n (← Word.div i' len)
      let pos ← Word.rem i' len
      let c ← Word.toChar n'
      let out' ← Word.insertAt out pos c
      decodeLoopWords bias' n' (← Word.add pos 1) out' rest
termination_by digits.length
decreasing_by exact decodeDigitsWords_length bias digits 36 1 i (i', rest) (by assumption)

/-- Decodes the punycode form of a label. -/
def decodeWords (input : List Char) : Except Stop (List Char) :=
  let (basic, extended) := splitLastHyphen input
  if basic.all (·.toNat < 0x80) then decodeLoopWords 72 0x80 0 basic extended
  else throw .invalid

end DnsStub.Punycode
