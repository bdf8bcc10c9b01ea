/-!
# Network byte order

Sixteen- and thirty-two-bit words as bytes, most significant byte first, and edits of a byte
buffer that keep its length.
-/
namespace DnsStub.BigEndian

/-- The word of two bytes, the first one most significant. -/
def toUInt16 (hi lo : UInt8) : UInt16 :=
  hi.toUInt16 <<< 8 ||| lo.toUInt16

/-- The word of four bytes, the first one most significant. -/
def toUInt32 (b0 b1 b2 b3 : UInt8) : UInt32 :=
  b0.toUInt32 <<< 24 ||| b1.toUInt32 <<< 16 ||| b2.toUInt32 <<< 8 ||| b3.toUInt32

/-- The two bytes of a word, most significant first. -/
def ofUInt16 (v : UInt16) : List UInt8 :=
  [(v >>> 8).toUInt8, v.toUInt8]

/-- The four bytes of a word, most significant first. -/
def ofUInt32 (v : UInt32) : List UInt8 :=
  [(v >>> 24).toUInt8, (v >>> 16).toUInt8, (v >>> 8).toUInt8, v.toUInt8]

/-- Replaces the byte at an index; an index past the end changes nothing. -/
def setByte (buf : ByteArray) (i : Nat) (b : UInt8) : ByteArray :=
  buf.set! i b

@[simp] theorem size_setByte (buf : ByteArray) (i : Nat) (b : UInt8) :
    (setByte buf i b).size = buf.size :=
  ByteArray.size_set! buf i b

/-- The byte at an index, zero past the end. -/
def byteAt (buf : ByteArray) (i : Nat) : UInt8 :=
  buf[i]?.getD 0

def getUInt16 (buf : ByteArray) (offset : Nat) : UInt16 :=
  toUInt16 (byteAt buf offset) (byteAt buf (offset + 1))

/-- Overwrites the word at an offset, in network order. -/
def setUInt16 (buf : ByteArray) (offset : Nat) (v : UInt16) : ByteArray :=
  setByte (setByte buf offset (v >>> 8).toUInt8) (offset + 1) v.toUInt8

@[simp] theorem size_setUInt16 (buf : ByteArray) (offset : Nat) (v : UInt16) :
    (setUInt16 buf offset v).size = buf.size := by
  simp [setUInt16]

end DnsStub.BigEndian
