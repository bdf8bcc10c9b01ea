import DnsStub.Proofs.NameReading
import DnsStub.Record.Info
/-!
# What a writer holds

A writer's written bytes as a list. A copy into the buffer is the bytes before the offset, the
copied ones, then the bytes after them (`toList_copyInto`), and growing appends zeros
(`Writer.buf_extend`). So every write appends its bytes to the written ones, a word written over
two written bytes replaces them in place, and an edit of the first bytes keeps the rest. Names and
questions append their uncompressed wire form.

Main statements: `Writer.toList_writeBytes` and the lemmas after it, one per write,
`Writer.toList_writeU16At` and `Writer.toList_editFront`.
-/
namespace DnsStub

theorem byteArray_toList_loop (bs : ByteArray) (i : Nat) (acc : List UInt8) :
    ByteArray.toList.loop bs i acc = acc.reverse ++ bs.data.toList.drop i := by
  fun_induction ByteArray.toList.loop bs i acc with
  | case1 i acc hlt ih =>
      rw [ih]
      have hi : i < bs.data.toList.length := by simpa using hlt
      have hget : bs.get! i = bs.data.toList[i] := by
        simp only [ByteArray.get!,Array.getElem_toList]
        exact getElem!_pos bs.data i (by simpa using hlt)
      rw [List.drop_eq_getElem_cons hi,hget]
      simp
  | case2 i acc hge =>
      have hle : bs.data.toList.length ≤ i := by simpa using hge
      simp [List.drop_eq_nil_of_le hle]

theorem byteArray_toList (bs : ByteArray) : bs.toList = bs.data.toList := by
  rw [ByteArray.toList,byteArray_toList_loop]
  simp

namespace BigEndian

theorem toList_setByte (buf : ByteArray) (i : Nat) (b : UInt8) :
    (setByte buf i b).data.toList = buf.data.toList.set i b := by
  simp [setByte,ByteArray.set!,Array.toList_setIfInBounds]

theorem byteAt_eq (buf : ByteArray) (i : Nat) : byteAt buf i = buf.data.toList.getD i 0 := by
  simp [byteAt,List.getD_eq_getElem?_getD]
  rfl

theorem toList_setUInt16 (buf : ByteArray) (offset : Nat) (v : UInt16) :
    (setUInt16 buf offset v).data.toList =
      (buf.data.toList.set offset (v >>> 8).toUInt8).set (offset + 1) v.toUInt8 := by
  simp only [setUInt16,toList_setByte]

end BigEndian

/-- A copy within the buffer: the bytes before the offset stay, the copied ones follow, then the
bytes after them. -/
theorem toList_copyInto {src : List UInt8} {dest : ByteArray} {i : Nat}
    (h : i + src.length ≤ dest.size) :
    (copyInto src dest i).data.toList =
      dest.data.toList.take i ++ src ++ dest.data.toList.drop (i + src.length) := by
  -- induction on the copied bytes: each one is stored, and the rest are copied from the next offset
  induction src generalizing dest i with
  | nil => simp [copyInto]
  | cons b bs ih =>
      have hi : i < dest.data.toList.length := by
        simp only [List.length_cons,ByteArray.size] at h
        simp only [Array.length_toList]
        omega
      rw [copyInto,ih (by simp only [List.length_cons] at h; rw [BigEndian.size_setByte]; omega),
        BigEndian.toList_setByte,List.take_add_one,List.take_set_of_le (Nat.le_refl i),
        List.getElem?_set_self hi,List.drop_set_of_lt (by omega : i < i + 1 + bs.length),
        show i + 1 + bs.length = i + (b :: bs).length by simp only [List.length_cons]; omega]
      simp

namespace Writer

theorem toList_new : new.toList = [] :=
  List.take_zero

theorem position_eq (w : Writer) : w.position = w.toList.length := by
  simp [position,toList,w.pos_le]

theorem buf_extend (w : Writer) (n : Nat) :
    (w.extend n).buf.data.toList = w.buf.data.toList ++ List.replicate n 0 := by
  rw [extend,toList_copyInto (by simp)]
  simp [zeros,List.drop_replicate]

@[simp] theorem pos_extend (w : Writer) (n : Nat) : (w.extend n).pos = w.pos := rfl

@[simp] theorem toList_extend (w : Writer) (n : Nat) : (w.extend n).toList = w.toList := by
  rw [toList,buf_extend,pos_extend,List.take_append_of_le_length (by simpa using w.pos_le),toList]

@[simp] theorem pos_reserve (w : Writer) (len : Nat) : (w.reserve len).pos = w.pos := by
  unfold reserve
  split <;> rfl

@[simp] theorem toList_reserve (w : Writer) (len : Nat) : (w.reserve len).toList = w.toList := by
  unfold reserve
  split
  · exact toList_extend w _
  · rfl

theorem toList_copyAt (w : Writer) {src : List UInt8} {offset : Nat}
    (h : offset + src.length ≤ w.pos) :
    (w.copyAt src offset).toList = w.toList.take offset ++ src ++ w.toList.drop (offset + src.length) := by
  have hbuf := w.pos_le
  simp only [copyAt,toList]
  rw [toList_copyInto (by omega)]
  simp only [List.take_take,List.drop_take,List.take_append,List.length_append,List.length_take,
    Array.length_toList,ByteArray.size_data]
  rw [Nat.min_eq_right (by omega : offset ≤ w.pos),Nat.min_eq_left (by omega : offset ≤ w.buf.size),
    Nat.min_eq_left (by omega : offset ≤ w.pos),
    List.take_of_length_le (by omega : src.length ≤ w.pos - offset)]

@[simp] theorem toList_writeBytes (w : Writer) (bs : List UInt8) :
    (w.writeBytes bs).toList = w.toList ++ bs := by
  have hroom := le_capacity_reserve w bs.length
  have hlen : ((w.reserve bs.length).buf.data.toList.take (w.reserve bs.length).pos ++ bs).length =
      (w.reserve bs.length).pos + bs.length := by
    have := (w.reserve bs.length).pos_le
    simp only [List.length_append,List.length_take,Array.length_toList,ByteArray.size_data]
    omega
  rw [← toList_reserve w bs.length,writeBytes,toList]
  simp only
  rw [toList_copyInto hroom,List.take_left' hlen,toList]

@[simp] theorem toList_writeU8 (w : Writer) (v : UInt8) : (w.writeU8 v).toList = w.toList ++ [v] :=
  toList_writeBytes w [v]

@[simp] theorem toList_writeU16 (w : Writer) (v : UInt16) :
    (w.writeU16 v).toList = w.toList ++ BigEndian.ofUInt16 v :=
  toList_writeBytes w _

@[simp] theorem toList_writeU32 (w : Writer) (v : UInt32) :
    (w.writeU32 v).toList = w.toList ++ BigEndian.ofUInt32 v :=
  toList_writeBytes w _

theorem front_eq {w : Writer} {pre rest : List UInt8} (h : w.toList = pre ++ rest) :
    w.front pre.length = pre.toByteArray := by
  have hle : pre.length ≤ w.pos := by
    have := position_eq w
    rw [h] at this
    simp only [position,List.length_append] at this
    omega
  have htake : w.buf.data.toList.take pre.length = pre := by
    have := congrArg (List.take pre.length) h
    rwa [toList,List.take_take,Nat.min_eq_left hle,List.take_left] at this
  apply ByteArray.ext
  rw [front,Nat.min_eq_left hle,ByteArray.data_extract,List.data_toByteArray]
  apply Array.ext'
  simp [htake]

theorem toList_editFront {w : Writer} {pre rest : List UInt8} (h : w.toList = pre ++ rest)
    (f : ByteArray → ByteArray) (hf : (f pre.toByteArray).size = pre.length) :
    (w.editFront pre.length f).toList = (f pre.toByteArray).data.toList ++ rest := by
  have hlen : (f pre.toByteArray).toList.length = pre.length := by
    rw [byteArray_toList,Array.length_toList,ByteArray.size_data,hf]
  have hle : 0 + (f pre.toByteArray).toList.length ≤ w.pos := by
    have := position_eq w
    rw [h] at this
    simp only [position,List.length_append] at this
    omega
  rw [editFront,front_eq h,toList_copyAt w hle,h,hlen,Nat.zero_add,List.take_zero,List.nil_append,
    List.drop_left,byteArray_toList]

theorem toList_writeU16At {w : Writer} {pre post : List UInt8} {a b : UInt8}
    (h : w.toList = pre ++ a :: b :: post) (v : UInt16) :
    (w.writeU16At pre.length v).toList = pre ++ BigEndian.ofUInt16 v ++ post := by
  have hpos : pre.length + (BigEndian.ofUInt16 v).length ≤ w.pos := by
    have := position_eq w
    rw [h] at this
    simp only [position,List.length_append,List.length_cons] at this
    simp [BigEndian.ofUInt16]
    omega
  rw [writeU16At,toList_copyAt w hpos,h]
  simp [BigEndian.ofUInt16]

theorem writeCharacterString_eq_ok {w w' : Writer} {s : List UInt8}
    (h : w.writeCharacterString s = .ok w') : s.length ≤ 255 ∧ w'.toList = w.toList ++ s.length.toUInt8 :: s := by
  unfold writeCharacterString at h
  split at h
  · cases h
  · cases h
    exact ⟨by omega,by simp⟩

end Writer

@[simp] theorem Name.toList_writeTo (n : Name) (w : Writer) :
    (n.writeTo w).toList = w.toList ++ n.toWire := by
  -- the labels are written by a left fold; the accumulator is any writer
  suffices h : ∀ (ls : List (List UInt8)) (w : Writer),
      (ls.foldl (fun w l => (w.writeU8 l.length.toUInt8).writeBytes l) w).toList =
        w.toList ++ Name.labelBytes ls by
    simp [Name.writeTo,h,Name.toWire_eq]
  intro ls
  induction ls with
  | nil => simp
  | cons l ls ih => intro w; simp [ih]

/-- The wire form of a question: its name uncompressed, then type and class. -/
def Question.toWire (q : Question) : List UInt8 :=
  q.qname.toWire ++ BigEndian.ofUInt16 q.qtype.code ++ BigEndian.ofUInt16 q.qclass.code

@[simp] theorem Question.toList_writeTo (q : Question) (w : Writer) :
    (q.writeTo w).toList = w.toList ++ q.toWire := by
  simp [Question.writeTo,Question.toWire]

end DnsStub
