import DnsStub.Wire.Progress
import DnsStub.Wire.Writer
import DnsStub.Registry
/-!
# Type bitmaps

The set of types an NSEC or NSEC3 record covers, written as windows: a window number, the
length of its bitmap, and the bitmap, whose bits stand for the 256 types of the window in
order, most significant bit first. Windows are written in ascending order, each one only up to
its last non-zero byte.

Reading refuses a window with fewer than two header bytes before the end, a length of zero
or over 32, or a bitmap running past the end, with the offset of the window.
-/
namespace DnsStub

namespace TypeBitmap

/-- The longest bitmap of a window. -/
def maxWindowLength : Nat := 32

/-- The types whose bits are set in a window's bitmap, in bit order. -/
def typesOfWindow (window : UInt8) (bytes : List UInt8) : List RecordType :=
  (List.range bytes.length).flatMap fun i =>
    (List.range 8).filterMap fun bit =>
      if (bytes.getD i 0).toNat.testBit (7 - bit) then
        some ⟨(window.toNat * 256 + i * 8 + bit).toUInt16⟩
      else none

/-- Reads one window before the stop offset. -/
def readWindow (stop : Nat) : ReadM (List RecordType) :=
  get >>= fun r =>
    if stop - r.pos < 2 then throw (.invalidTypeBitmap r.pos)
    else Reader.readU8 >>= fun window => Reader.readU8 >>= fun len => get >>= fun r' =>
      if len = 0 ∨ maxWindowLength < len.toNat ∨ stop < r'.pos + len.toNat then
        throw (.invalidTypeBitmap r.pos)
      else typesOfWindow window <$> Reader.readBytes len.toNat

theorem advances_readWindow (stop : Nat) : Reader.Advances (readWindow stop) := by
  unfold readWindow
  refine Reader.advances_bind_right Reader.forward_get fun r => ?_
  split
  · exact Reader.advances_throw _
  · refine Reader.advances_bind_left Reader.advances_readU8 fun _ => ?_
    refine Reader.forward_bind Reader.advances_readU8.forward fun _ => ?_
    refine Reader.forward_bind Reader.forward_get fun _ => ?_
    split
    · exact Reader.forward_throw _
    · exact Reader.forward_map _ (Reader.forward_readBytes _)

/-- Reads windows up to the stop offset. -/
def read (stop : Nat) : ReadM (List RecordType) :=
  List.flatten <$> Reader.repeatBefore (readWindow stop) (advances_readWindow stop) stop

/-- The bitmap of one window: bit (low type) set for each type of the window. -/
def windowBitmap (window : Nat) (types : List RecordType) : List UInt8 :=
  let lows := (types.filter fun t => t.code.toNat / 256 = window).map fun t => t.code.toNat % 256
  (List.range maxWindowLength).map fun i =>
    ((List.range 8).foldl (fun acc bit => if lows.contains (i * 8 + bit) then acc + (0x80 >>> bit)
      else acc) 0).toUInt8

/-- The bitmap cut after its last non-zero byte. -/
def trimmed (bitmap : List UInt8) : List UInt8 :=
  (bitmap.reverse.dropWhile (· = 0)).reverse

/-- The windows used by the types, ascending. -/
def windows (types : List RecordType) : List Nat :=
  (List.range 256).filter fun w => types.any fun t => t.code.toNat / 256 = w

/-- Writes the windows of a set of types, each as one byte, one byte and the bitmap. -/
def write (types : List RecordType) (w : Writer) : Writer :=
  (windows types).foldl (fun w win =>
    let bm := trimmed (windowBitmap win types)
    ((w.writeU8 win.toUInt8).writeU8 bm.length.toUInt8).writeBytes bm) w

end TypeBitmap

end DnsStub
