import DnsStub.Wire.Error
import DnsStub.Wire.BigEndian
import DnsStub.Net.Address
/-!
# Reading a message

A reader is a cursor over a whole received message. It always sees every byte, so that
compression pointers can reach any earlier offset, but reads stop at a limit, the end of the
message unless narrowed. The invariant position ≤ limit ≤ size is part of the type.

A read runs in ReadM: it yields a value or an error, and in both cases the reader as it is
afterwards. Every primitive read checks its bounds before it moves, so a failing primitive leaves
the reader as it was; a read built from several primitives keeps what its first steps consumed.
-/
namespace DnsStub

/-- A cursor over a message with a read limit. -/
structure Reader where
  data : ByteArray
  pos : Nat
  limit : Nat
  pos_le_limit : pos ≤ limit
  limit_le_size : limit ≤ data.size

/-- A read from a message: a value or an error, and the reader afterwards in either case. -/
abbrev ReadM := EStateM WireError Reader

namespace Reader

/-- A reader at the start of a message, limited by its end. -/
def new (data : ByteArray) : Reader :=
  ⟨data, 0, data.size, Nat.zero_le _, Nat.le_refl _⟩

/-- Bytes left before the limit. -/
def remaining (r : Reader) : Nat :=
  r.limit - r.pos

def isEmpty (r : Reader) : Bool :=
  r.remaining == 0

/-- The failure of a read of needed bytes at an offset. -/
def eof {α : Type} (offset needed : Nat) : ReadM α :=
  throw (.unexpectedEof offset needed)

/-- Confines reads to offsets before the new limit and yields the previous one. The new limit
may not pass the end of the message nor fall before the position. -/
def setLimit (l : Nat) : ReadM Nat := fun r =>
  if h : l ≤ r.data.size ∧ r.pos ≤ l then
    .ok r.limit { r with limit := l, pos_le_limit := h.2, limit_le_size := h.1 }
  else .error (.unexpectedEof r.pos (l - r.pos)) r

/-- Moves to an absolute offset, at most the limit. -/
def seek (p : Nat) : ReadM Unit := fun r =>
  if h : p ≤ r.limit then
    .ok () { r with pos := p, pos_le_limit := h }
  else .error (.unexpectedEof p 0) r

/-- Reads the next n bytes. -/
def readVector (n : Nat) : ReadM (Vector UInt8 n) := fun r =>
  if h : r.pos + n ≤ r.limit then
    .ok (Vector.ofFn fun i => r.data.get (r.pos + i.val)
        (Nat.lt_of_lt_of_le (Nat.lt_of_lt_of_le (Nat.add_lt_add_left i.isLt _) h) r.limit_le_size))
      { r with pos := r.pos + n, pos_le_limit := h }
  else .error (.unexpectedEof r.pos n) r

def readBytes (n : Nat) : ReadM (List UInt8) :=
  (·.toList) <$> readVector n

def skip (n : Nat) : ReadM Unit := fun r =>
  if h : r.pos + n ≤ r.limit then
    .ok () { r with pos := r.pos + n, pos_le_limit := h }
  else .error (.unexpectedEof r.pos n) r

def readU8 : ReadM UInt8 := do
  let v ← readVector 1
  pure v[0]

def readU16 : ReadM UInt16 := do
  let v ← readVector 2
  pure (BigEndian.toUInt16 v[0] v[1])

def readU32 : ReadM UInt32 := do
  let v ← readVector 4
  pure (BigEndian.toUInt32 v[0] v[1] v[2] v[3])

/-- A length byte and then exactly that many bytes. When the bytes are missing, the length byte
stays consumed. -/
def readCharacterString : ReadM (List UInt8) := do
  let len ← readU8
  readBytes len.toNat

def readIpv4 : ReadM Ipv4Address :=
  Ipv4Address.mk <$> readVector 4

def readIpv6 : ReadM Ipv6Address :=
  Ipv6Address.mk <$> readVector 16

/-- Reads everything up to an absolute offset, which may not lie before the position. -/
def readUntil (stop : Nat) : ReadM (List UInt8) := do
  let r ← get
  if stop < r.pos then eof r.pos 0 else readBytes (stop - r.pos)

/-- Reads everything up to an absolute offset, or nothing when the position is already there
or past it. -/
def readUpTo (stop : Nat) : ReadM (List UInt8) := do
  let r ← get
  if stop ≤ r.pos then pure [] else readBytes (stop - r.pos)

end Reader

end DnsStub
