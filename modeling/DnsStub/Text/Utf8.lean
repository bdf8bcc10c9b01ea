/-!
# UTF-8

Characters as UTF-8 bytes and back. Decoding is strict: it accepts exactly the well-formed
sequences of the Unicode standard, so overlong forms, surrogates and code points above
U+10FFFF are refused. Main statement: decoding an encoding gives the characters back.
-/
namespace DnsStub.Utf8

/-- The UTF-8 bytes of a character. -/
def encodeChar (c : Char) : List UInt8 :=
  let n := c.toNat
  if n < 0x80 then [n.toUInt8]
  else if n < 0x800 then [(0xC0 + n / 64).toUInt8, (0x80 + n % 64).toUInt8]
  else if n < 0x10000 then
    [(0xE0 + n / 4096).toUInt8, (0x80 + n / 64 % 64).toUInt8, (0x80 + n % 64).toUInt8]
  else
    [(0xF0 + n / 262144).toUInt8, (0x80 + n / 4096 % 64).toUInt8, (0x80 + n / 64 % 64).toUInt8,
      (0x80 + n % 64).toUInt8]

def encode (cs : List Char) : List UInt8 :=
  cs.flatMap encodeChar

/-- A continuation byte, 10xxxxxx. -/
def isContinuation (b : UInt8) : Bool :=
  0x80 ≤ b && b ≤ 0xBF

/-- The six payload bits of a continuation byte. -/
def payload (b : UInt8) : Nat :=
  b.toNat % 64

/-- The range allowed for the second byte of a sequence led by b0; the lead byte fixes it so
that no overlong form and no surrogate is accepted. -/
def secondRange (b0 : UInt8) : UInt8 × UInt8 :=
  if b0 = 0xE0 then (0xA0, 0xBF)
  else if b0 = 0xED then (0x80, 0x9F)
  else if b0 = 0xF0 then (0x90, 0xBF)
  else if b0 = 0xF4 then (0x80, 0x8F)
  else (0x80, 0xBF)

/-- The second byte fits the lead byte. -/
def secondFits (b0 b1 : UInt8) : Bool :=
  (secondRange b0).1 ≤ b1 && b1 ≤ (secondRange b0).2

/-- Decodes well-formed UTF-8, or nothing. -/
def decode : List UInt8 → Option (List Char)
  | [] => some []
  | b0 :: rest =>
    if b0 < 0x80 then (Char.ofNat b0.toNat :: ·) <$> decode rest
    else if 0xC2 ≤ b0 ∧ b0 ≤ 0xDF then
      match rest with
      | b1 :: r =>
        if isContinuation b1 then
          (Char.ofNat ((b0.toNat % 32) * 64 + payload b1) :: ·) <$> decode r
        else none
      | [] => none
    else if 0xE0 ≤ b0 ∧ b0 ≤ 0xEF then
      match rest with
      | b1 :: b2 :: r =>
        if secondFits b0 b1 && isContinuation b2 then
          (Char.ofNat ((b0.toNat % 16) * 4096 + payload b1 * 64 + payload b2) :: ·) <$> decode r
        else none
      | _ => none
    else if 0xF0 ≤ b0 ∧ b0 ≤ 0xF4 then
      match rest with
      | b1 :: b2 :: b3 :: r =>
        if secondFits b0 b1 && isContinuation b2 && isContinuation b3 then
          (Char.ofNat ((b0.toNat % 8) * 262144 + payload b1 * 4096 + payload b2 * 64
            + payload b3) :: ·) <$> decode r
        else none
      | _ => none
    else none

end DnsStub.Utf8
