import DnsStub.Text.CaseData
/-!
# Unicode lowercase

The full lowercase of a text: each character takes its lowercase mapping, U+0130 becomes
"i" followed by U+0307, and a capital sigma becomes final sigma exactly when, skipping
case-ignorable characters, a cased character precedes it and no cased character follows it.
-/
namespace DnsStub.Lowercase

/-- The code point lies in one of the ranges. -/
def inRanges (rs : List (Nat × Nat)) (c : Nat) : Bool :=
  rs.any fun r => r.1 ≤ c && c ≤ r.2

def isCased (c : Char) : Bool :=
  inRanges CaseData.cased c.toNat

def isCaseIgnorable (c : Char) : Bool :=
  inRanges CaseData.caseIgnorable c.toNat

/-- The one-character lowercase of a character; a character without one maps to itself. -/
def simple (c : Char) : Char :=
  let n := c.toNat
  match CaseData.lowerRuns.find? fun r => r.1 ≤ n && n ≤ r.2.1 && (n - r.1) % r.2.2.1 == 0 with
  | some r => Char.ofNat (r.2.2.2 + (n - r.1))
  | none => c

/-- The lowercase of a character outside any context. -/
def ofChar (c : Char) : List Char :=
  if c.toNat = 0x130 then ['i', Char.ofNat 0x307] else [simple c]

/-- The first character that is not case-ignorable is cased. -/
def casedAfterIgnorable (cs : List Char) : Bool :=
  match cs.dropWhile isCaseIgnorable with
  | c :: _ => isCased c
  | [] => false

/-- A capital sigma between the reversed text before it and the text after it ends a word. -/
def isFinalSigma (before after : List Char) : Bool :=
  casedAfterIgnorable before && !casedAfterIgnorable after

/-- Lowercases the rest of a text; the text already passed is kept reversed for the
final-sigma rule. -/
def lowerFrom : List Char → List Char → List Char
  | _, [] => []
  | before, c :: after =>
    let here :=
      if c.toNat = 0x3A3 then
        [if isFinalSigma before after then Char.ofNat 0x3C2 else Char.ofNat 0x3C3]
      else ofChar c
    here ++ lowerFrom (c :: before) after

/-- The full lowercase of a text. -/
def lower (cs : List Char) : List Char :=
  lowerFrom [] cs

end DnsStub.Lowercase
