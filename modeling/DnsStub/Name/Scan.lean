import DnsStub.Name.Basic
import DnsStub.Wire.Reader
/-!
# Reading names from a message

A name in a message is a run of labels ended by a zero byte or by a compression pointer to an
earlier offset where the rest of the name is written. Reading follows the pointers:

* until the first pointer, reads stop at the reader's limit; after it, at the end of the
  message;
* a pointer must go strictly before the segment, the run of labels, that holds it;
* at most 127 pointers are followed;
* the wire length so far plus the final zero byte may not pass 255.

The reader ends after the first pointer if there was one, else after the zero byte. A failed
read leaves the reader as it was.
-/
namespace DnsStub

namespace Name

/-- The labels of the name at pos and the offset after its own encoding. The segment is the
offset the current run of labels started at; resume is set once a pointer was followed. -/
def scanFrom (data : ByteArray) (limit start : Nat) (hlimit : limit ≤ data.size)
    (pos segment : Nat) (resume : Option Nat) (hops wireLen : Nat) (done : Array (List UInt8)) :
    Except WireError (Array (List UInt8) × Nat) :=
  let bound := if resume.isNone then limit else data.size
  have hbound : bound ≤ data.size := by
    simp only [bound]; split
    · exact hlimit
    · exact Nat.le_refl _
  if hp : pos < bound then
    have hpos : pos < data.size := Nat.lt_of_lt_of_le hp hbound
    let byte := data[pos]
    if byte = 0 then .ok (done, resume.getD (pos + 1))
    else if byte &&& 0xC0 = 0xC0 then
      if h2 : bound < pos + 2 then .error (.unexpectedEof pos 2)
      else
        let low := data[pos + 1]
        let target := (BigEndian.toUInt16 (byte &&& 0x3F) low).toNat
        if data.size ≤ target then .error (.unexpectedEof target 1)
        else if segment ≤ target then .error (.invalidPointer pos target)
        else if hh : 127 < hops + 1 then .error (.tooManyPointers start)
        else scanFrom data limit start hlimit target target (some (resume.getD (pos + 2)))
          (hops + 1) wireLen done
    else if byte &&& 0xC0 = 0 then
      let len := byte.toNat
      if he : bound < pos + 1 + len then .error (.unexpectedEof (pos + 1) len)
      else
        let total := wireLen + len + 1
        if maxWireLength < total + 1 then .error (.nameTooLong (total + 1))
        else
          let label := List.ofFn fun (i : Fin len) =>
            data[pos + 1 + i.val]
          scanFrom data limit start hlimit (pos + 1 + len) segment resume hops total
            (done.push label)
    else .error (.unknownLabelFormat pos byte)
  else .error (.unexpectedEof pos 1)
termination_by (128 - hops, data.size - pos)
decreasing_by
  all_goals first
    | (apply Prod.Lex.left; omega)
    | (apply Prod.Lex.right; omega)

end Name

namespace Reader

/-- Reads a possibly compressed name at the position. -/
def readName : ReadM Name := fun r =>
  match Name.scanFrom r.data r.limit r.pos r.limit_le_size r.pos r.pos none 0 0 #[] with
  | .error e => .error e r
  | .ok (labels, next) =>
    match seek next r with
    | .ok () r' => .ok ⟨labels.toList⟩ r'
    | .error e _ => .error e r

end Reader

end DnsStub
