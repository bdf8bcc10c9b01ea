import DnsStub.Name.Basic
import DnsStub.Text.Utf8
import DnsStub.Text.Lowercase
import DnsStub.Text.Punycode
/-!
# Names as text

The presentation form of a name: every label followed by a dot, the root alone as a dot.
A label byte is written as it is from 0x21 to 0x7e, after a backslash if it is one of
. \ " ( ) ; @ $, and as a backslash and three decimal digits otherwise.

The Unicode form shows a label in ASCII-compatible encoding, "xn--" and punycode, as the
text it decodes to; other labels as in the presentation form.

Reading text, a label holding a character outside ASCII is lowercased by the Unicode rules and
stored as "xn--" followed by its punycode. Escapes are a backslash with three decimal digits for
a byte of at most 255, or a backslash with any other character for that character.
-/
namespace DnsStub

namespace Name

/-- The presentation text of one label byte. -/
def escapeByte (b : UInt8) : List Char :=
  let c := Char.ofNat b.toNat
  if c = '.' ∨ c = '\\' ∨ c = '"' ∨ c = '(' ∨ c = ')' ∨ c = ';' ∨ c = '@' ∨ c = '$' then
    ['\\', c]
  else if 0x21 ≤ b ∧ b ≤ 0x7E then [c]
  else
    let n := b.toNat
    ['\\', Char.ofNat (48 + n / 100), Char.ofNat (48 + n / 10 % 10), Char.ofNat (48 + n % 10)]

def escapeLabel (l : List UInt8) : List Char :=
  l.flatMap escapeByte

/-- The prefix that marks a label in ASCII-compatible encoding. -/
def acePrefix : List UInt8 := [0x78, 0x6E, 0x2D, 0x2D]

/-- The text of a label in ASCII-compatible encoding: longer than the prefix, starting with it
in any ASCII case, all ASCII, with a rest that decodes as punycode. -/
def aceText? (l : List UInt8) : Option (List Char) :=
  if acePrefix.length < l.length ∧ Ascii.lowerBytes (l.take 4) = acePrefix ∧ l.all (· < 0x80) then
    Punycode.decode ((l.drop 4).map fun b => Char.ofNat b.toNat)
  else none

/-- Every label, written by the given function, followed by a dot; the root is a dot. -/
def render (n : Name) (f : List UInt8 → List Char) : String :=
  if n.labels.isEmpty then "."
  else String.ofList (n.labels.flatMap fun l => f l ++ ['.'])

/-- The presentation form. -/
def display (n : Name) : String :=
  n.render escapeLabel

/-- The Unicode form: labels in ASCII-compatible encoding shown decoded. -/
def unicodeDisplay (n : Name) : String :=
  n.render fun l => (aceText? l).getD (escapeLabel l)

instance : ToString Name := ⟨display⟩

/-- A label being read from text: its bytes, and whether a character outside ASCII was in it. -/
structure RawLabel where
  bytes : List UInt8
  unicode : Bool

/-- Adds a character to the label being read. -/
def RawLabel.pushChar (raw : RawLabel) (c : Char) : RawLabel :=
  if c.toNat < 0x80 then { raw with bytes := raw.bytes ++ [c.toNat.toUInt8] }
  else { bytes := raw.bytes ++ Utf8.encodeChar c, unicode := true }

/-- The wire bytes of a label read from text. A label that held a character outside ASCII must
be valid UTF-8; it is lowercased and put into ASCII-compatible encoding. -/
def RawLabel.finish (raw : RawLabel) : Except WireError (List UInt8) :=
  if !raw.unicode then .ok raw.bytes
  else match Utf8.decode raw.bytes with
    | none => .error .invalidEscape
    | some cs => match Punycode.encode (Lowercase.lower cs) with
      | none => .error .invalidPunycode
      | some p => .ok (acePrefix ++ p.map fun c => c.toNat.toUInt8)

/-- The value of a decimal digit character. -/
def digitValue (c : Char) : Nat :=
  c.toNat - 48

/-- Reads labels from the rest of a text, given the label being read and the labels done. -/
def scanText : List Char → RawLabel → List (List UInt8) → Except WireError (List (List UInt8))
  | [], raw, done =>
    if raw.bytes.isEmpty then .ok done.reverse
    else match raw.finish with
      | .error e => .error e
      | .ok l => .ok (l :: done).reverse
  | '.' :: rest, raw, done =>
    if raw.bytes.isEmpty then .error .emptyLabel
    else match raw.finish with
      | .error e => .error e
      | .ok l => scanText rest ⟨[], false⟩ (l :: done)
  | '\\' :: d :: rest, raw, done =>
    if d.isDigit then
      match rest with
      | d1 :: d2 :: rest' =>
        if d1.isDigit ∧ d2.isDigit then
          let v := digitValue d * 100 + digitValue d1 * 10 + digitValue d2
          if 255 < v then .error .invalidEscape
          else scanText rest' { raw with bytes := raw.bytes ++ [v.toUInt8] } done
        else .error .invalidEscape
      | _ => .error .invalidEscape
    else scanText rest (raw.pushChar d) done
  | ['\\'], _, _ => .error .invalidEscape
  | c :: rest, raw, done => scanText rest (raw.pushChar c) done

/-- Reads a name from its presentation text. A final dot is optional; the empty text and "."
are the root. The length limits are checked last. -/
def parse (text : String) : Except WireError Name :=
  if text = "" ∨ text = "." then .ok root
  else match scanText text.toList ⟨[], false⟩ [] with
    | .error e => .error e
    | .ok ls => ofLabels ls

end Name

end DnsStub
