import DnsStub.Wire.Error
import DnsStub.Wire.BigEndian
/-!
# Writing a message

A writer is a zero-filled buffer with a cursor: the bytes before the cursor are the ones
written. A write copies its bytes into the buffer at the cursor and moves the cursor past them.
A write that does not fit first grows the buffer by the larger of the shortfall and the
buffer's own length; an explicit extension grows it by a given amount. Growing copies the
buffer into a fresh zeroed one of the new length and leaves the cursor where it was.
-/
namespace DnsStub

/-- Copies bytes over a buffer from an offset on, one byte at a time; a byte past the end of
the buffer is dropped. -/
def copyInto : List UInt8 → ByteArray → Nat → ByteArray
  | [], dest, _ => dest
  | b :: bs, dest, i => copyInto bs (BigEndian.setByte dest i b) (i + 1)

@[simp] theorem size_copyInto (src : List UInt8) (dest : ByteArray) (i : Nat) :
    (copyInto src dest i).size = dest.size := by
  induction src generalizing dest i with
  | nil => rfl
  | cons b bs ih => rw [copyInto, ih, BigEndian.size_setByte]

/-- A buffer of n zero bytes. -/
def zeros (n : Nat) : ByteArray :=
  ⟨Array.replicate n 0⟩

@[simp] theorem size_zeros (n : Nat) : (zeros n).size = n :=
  Array.size_replicate

/-- A buffer and a cursor into it. -/
structure Writer where
  buf : ByteArray
  pos : Nat
  pos_le : pos ≤ buf.size

namespace Writer

/-- An empty writer over a zeroed buffer of the given length. -/
def withCapacity (c : Nat) : Writer :=
  ⟨zeros c, 0, Nat.zero_le _⟩

/-- An empty writer with the default capacity of 512 bytes. -/
def new : Writer :=
  withCapacity 512

/-- Where the next byte goes. -/
def position (w : Writer) : Nat :=
  w.pos

/-- The length of the buffer, written or not. -/
def capacity (w : Writer) : Nat :=
  w.buf.size

/-- The written bytes. -/
def toList (w : Writer) : List UInt8 :=
  w.buf.data.toList.take w.pos

/-- The written bytes, as a slice of the buffer. -/
def bytes (w : Writer) : ByteArray :=
  w.buf.extract 0 w.pos

/-- The first n written bytes, or all of them if fewer are written. -/
def front (w : Writer) (n : Nat) : ByteArray :=
  w.buf.extract 0 (min n w.pos)

/-- Copies bytes into the buffer at an offset; the cursor stays. -/
def copyAt (w : Writer) (src : List UInt8) (offset : Nat) : Writer :=
  ⟨copyInto src w.buf offset, w.pos, by rw [size_copyInto]; exact w.pos_le⟩

/-- Grows the buffer by n zero bytes: a zeroed buffer of the new length receives a copy of the
old one. -/
def extend (w : Writer) (n : Nat) : Writer :=
  ⟨copyInto w.buf.data.toList (zeros (w.buf.size + n)) 0, w.pos, by
    rw [size_copyInto, size_zeros]
    exact Nat.le_trans w.pos_le (Nat.le_add_right _ _)⟩

theorem size_extend (w : Writer) (n : Nat) : (w.extend n).buf.size = w.buf.size + n := by
  simp only [extend, size_copyInto, size_zeros]

/-- Makes room for len more bytes at the cursor. -/
def reserve (w : Writer) (len : Nat) : Writer :=
  if w.buf.size < w.pos + len then w.extend (max (w.pos + len - w.buf.size) w.buf.size) else w

/-- After making room, the bytes fit at the cursor. -/
theorem le_capacity_reserve (w : Writer) (len : Nat) :
    (w.reserve len).pos + len ≤ (w.reserve len).buf.size := by
  unfold reserve
  split
  · rw [size_extend]
    show w.pos + len ≤ w.buf.size + max (w.pos + len - w.buf.size) w.buf.size
    omega
  · omega

/-- Appends bytes at the cursor, growing the buffer if they do not fit. -/
def writeBytes (w : Writer) (bs : List UInt8) : Writer :=
  let r := w.reserve bs.length
  ⟨copyInto bs r.buf r.pos, r.pos + bs.length, by
    rw [size_copyInto]
    exact le_capacity_reserve w bs.length⟩

def writeU8 (w : Writer) (v : UInt8) : Writer :=
  w.writeBytes [v]

def writeU16 (w : Writer) (v : UInt16) : Writer :=
  w.writeBytes (BigEndian.ofUInt16 v)

def writeU32 (w : Writer) (v : UInt32) : Writer :=
  w.writeBytes (BigEndian.ofUInt32 v)

/-- Rewrites the first n written bytes in place. -/
def editFront (w : Writer) (n : Nat) (f : ByteArray → ByteArray) : Writer :=
  w.copyAt (f (w.front n)).toList 0

/-- Overwrites the two bytes at an offset with a word, in network order. Callers patch bytes
already written; the buffer does not check it. -/
def writeU16At (w : Writer) (offset : Nat) (v : UInt16) : Writer :=
  w.copyAt (BigEndian.ofUInt16 v) offset

/-- A length byte followed by the data; data longer than 255 bytes is refused and nothing is
written. -/
def writeCharacterString (w : Writer) (data : List UInt8) : Except WireError Writer :=
  if data.length > 255 then .error (.characterStringTooLong data.length)
  else .ok ((w.writeU8 data.length.toUInt8).writeBytes data)

end Writer

end DnsStub
