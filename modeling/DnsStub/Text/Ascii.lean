/-!
# ASCII text

Domain names compare and fold letters by ASCII case only: a byte or character outside ASCII
is never changed. Main statement: folding is idempotent.

Bytes are written as two lowercase hexadecimal digits, the form used for raw RDATA fields and
for the byte in an unknown-label error.
-/
namespace DnsStub.Ascii

/-- Folds an ASCII capital letter to its small letter and keeps every other byte. -/
def lowerByte (b : UInt8) : UInt8 :=
  if 65 ≤ b ∧ b ≤ 90 then b + 32 else b

/-- Folds every ASCII capital letter of a byte string. -/
def lowerBytes (bs : List UInt8) : List UInt8 :=
  bs.map lowerByte

/-- Two byte strings agree ignoring ASCII case. -/
def bytesEqIgnoreCase (a b : List UInt8) : Bool :=
  lowerBytes a == lowerBytes b

/-- Two texts agree ignoring ASCII case; characters outside ASCII must match exactly. -/
def eqIgnoreCase (a b : String) : Bool :=
  a.toList.map Char.toLower == b.toList.map Char.toLower

theorem lowerByte_lowerByte (b : UInt8) : lowerByte (lowerByte b) = lowerByte b := by
  unfold lowerByte
  by_cases h : 65 ≤ b ∧ b ≤ 90
  · have hn : ¬ (65 ≤ b + 32 ∧ b + 32 ≤ 90) := by
      obtain ⟨h1, h2⟩ := h
      simp only [UInt8.le_iff_toNat_le, UInt8.toNat_add] at h1 h2 ⊢
      have : (65 : UInt8).toNat = 65 := rfl
      have : (90 : UInt8).toNat = 90 := rfl
      have : (32 : UInt8).toNat = 32 := rfl
      omega
    simp [h, hn]
  · simp [h]

@[simp] theorem lowerBytes_lowerBytes (bs : List UInt8) :
    lowerBytes (lowerBytes bs) = lowerBytes bs := by
  simp [lowerBytes, Function.comp_def, lowerByte_lowerByte]

end DnsStub.Ascii

namespace DnsStub.Hex

/-- The lowercase hexadecimal digit of a number below sixteen. -/
def digit (n : Nat) : Char :=
  if n < 10 then Char.ofNat (48 + n) else Char.ofNat (87 + n)

/-- A byte as exactly two lowercase hexadecimal digits. -/
def ofByte (b : UInt8) : String :=
  String.ofList [digit (b.toNat / 16), digit (b.toNat % 16)]

/-- A byte string as lowercase hexadecimal, two digits per byte. -/
def encode (bs : List UInt8) : String :=
  String.join (bs.map ofByte)

/-- A number in lowercase hexadecimal without leading zeros; zero is written "0". -/
def ofNat (n : Nat) : String :=
  String.ofList (Nat.toDigits 16 n)

end DnsStub.Hex
