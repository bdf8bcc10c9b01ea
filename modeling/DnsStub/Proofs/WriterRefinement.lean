import DnsStub.Proofs.Writing
/-!
# A writer against a list of bytes

The reference a writer is measured against is a tape: the bytes written so far and a capacity
(`Writer.Tape`). A write appends its bytes, most significant first for a word, and when they do
not fit raises the capacity to the larger of what is needed and twice what it was; a patch
replaces two written bytes in place; an extension adds to the capacity; a character string is a
length byte and the data, or is refused with nothing changed when it is longer than 255 bytes.

A writer holds a tape when its buffer is the tape's bytes followed by zeros up to the capacity and
its cursor stands right after the bytes (`Writer.Holds`). Every call keeps that relation, a patch
as long as it lies within the written bytes (`Writer.Holds.call`), and from it, by induction on
the calls, so does every run from a fresh writer (`Writer.Holds.runCalls`).

Main statement: `Writer.runCalls_matches_tape`.
-/
namespace DnsStub

namespace Writer

/-- The calls a writer takes. -/
inductive Call where
  | u8 (v : UInt8)
  | u16 (v : UInt16)
  | u32 (v : UInt32)
  | bytes (bs : List UInt8)
  | characterString (data : List UInt8)
  | u16At (offset : Nat) (v : UInt16)
  | extend (n : Nat)

def call (w : Writer) : Call → Except WireError Writer
  | .u8 v => .ok (w.writeU8 v)
  | .u16 v => .ok (w.writeU16 v)
  | .u32 v => .ok (w.writeU32 v)
  | .bytes bs => .ok (w.writeBytes bs)
  | .characterString data => w.writeCharacterString data
  | .u16At offset v => .ok (w.writeU16At offset v)
  | .extend n => .ok (w.extend n)

section Runs

variable {σ : Type} (step : σ → Call → Except WireError σ)

/-- The state after a call: what the call returned, or the state it was made on if it failed. -/
def after (s : σ) (c : Call) : σ :=
  match step s c with
  | .ok s' => s'
  | .error _ => s

/-- Makes calls one after another, going on after a call that fails; gives the last state and
what each call returned. -/
def runCalls : σ → List Call → σ × List (Except WireError Unit)
  | s, [] => (s, [])
  | s, c :: cs =>
    let rest := runCalls (after step s c) cs
    (rest.1, (step s c).map (fun _ => ()) :: rest.2)

end Runs

/-- The bytes of a sixteen-bit word, most significant first. -/
def word16 (v : UInt16) : List UInt8 :=
  [UInt8.ofNat (v.toNat / 2 ^ 8), UInt8.ofNat v.toNat]

/-- The bytes of a thirty-two-bit word, most significant first. -/
def word32 (v : UInt32) : List UInt8 :=
  [UInt8.ofNat (v.toNat / 2 ^ 24), UInt8.ofNat (v.toNat / 2 ^ 16), UInt8.ofNat (v.toNat / 2 ^ 8),
    UInt8.ofNat v.toNat]

/-- What a writer should hold: the bytes written and the length of its buffer. -/
structure Tape where
  bytes : List UInt8
  capacity : Nat

namespace Tape

/-- The capacity after a write that needs room for `needed` bytes in all: the same if they fit,
else the larger of the need and twice the capacity. -/
def grow (capacity needed : Nat) : Nat :=
  if capacity < needed then max needed (2 * capacity) else capacity

def append (t : Tape) (bs : List UInt8) : Tape :=
  ⟨t.bytes ++ bs, grow t.capacity (t.bytes.length + bs.length)⟩

def call (t : Tape) : Call → Except WireError Tape
  | .u8 v => .ok (t.append [v])
  | .u16 v => .ok (t.append (word16 v))
  | .u32 v => .ok (t.append (word32 v))
  | .bytes bs => .ok (t.append bs)
  | .characterString data =>
    if 255 < data.length then .error (.characterStringTooLong data.length)
    else .ok ((t.append [UInt8.ofNat data.length]).append data)
  | .u16At offset v => .ok ⟨t.bytes.take offset ++ word16 v ++ t.bytes.drop (offset + 2), t.capacity⟩
  | .extend n => .ok ⟨t.bytes, t.capacity + n⟩

end Tape

/-- A call as the writer documents it: a patch overwrites two bytes already written. -/
def Call.Fits : Call → Nat → Prop
  | .u16At offset _, written => offset + 2 ≤ written
  | _, _ => True

instance Call.decFits : (c : Call) → (written : Nat) → Decidable (c.Fits written)
  | .u16At offset _, written => Nat.decLe (offset + 2) written
  | .u8 _, _ => isTrue trivial
  | .u16 _, _ => isTrue trivial
  | .u32 _, _ => isTrue trivial
  | .bytes _, _ => isTrue trivial
  | .characterString _, _ => isTrue trivial
  | .extend _, _ => isTrue trivial

/-- Every patch of a run of calls overwrites two bytes written before it. -/
def Tape.Fits : Tape → List Call → Prop
  | _, [] => True
  | t, c :: cs => c.Fits t.bytes.length ∧ Fits (after Tape.call t c) cs

instance Tape.decFits : (t : Tape) → (cs : List Call) → Decidable (t.Fits cs)
  | _, [] => isTrue trivial
  | t, c :: cs =>
    have := Tape.decFits (after Tape.call t c) cs
    inferInstanceAs (Decidable (c.Fits t.bytes.length ∧ _))

theorem ofUInt16_eq_word16 (v : UInt16) : BigEndian.ofUInt16 v = word16 v := by
  simp only [BigEndian.ofUInt16,word16,List.cons.injEq,and_true]
  refine ⟨?_,?_⟩ <;> apply UInt8.toNat_inj.1 <;> simp [Nat.shiftRight_eq_div_pow]

theorem ofUInt32_eq_word32 (v : UInt32) : BigEndian.ofUInt32 v = word32 v := by
  simp only [BigEndian.ofUInt32,word32,List.cons.injEq,and_true]
  refine ⟨?_,?_,?_,?_⟩ <;> apply UInt8.toNat_inj.1 <;> simp [Nat.shiftRight_eq_div_pow]

theorem Tape.le_grow (capacity needed : Nat) : needed ≤ Tape.grow capacity needed := by
  unfold Tape.grow
  split <;> omega

/-- A writer holds a tape: its buffer is the tape's bytes, then zeros up to the capacity, and its
cursor stands right after the bytes. -/
structure Holds (w : Writer) (t : Tape) : Prop where
  buf : w.buf.data.toList = t.bytes ++ List.replicate (t.capacity - t.bytes.length) 0
  pos : w.pos = t.bytes.length
  le_capacity : t.bytes.length ≤ t.capacity

section Holds

variable {w : Writer} {t : Tape}

theorem Holds.toList (h : Holds w t) : w.toList = t.bytes := by
  rw [Writer.toList,h.buf,h.pos,List.take_left]

theorem Holds.capacity (h : Holds w t) : w.capacity = t.capacity := by
  have hlen := congrArg List.length h.buf
  have hle := h.le_capacity
  simp only [Array.length_toList,ByteArray.size_data,List.length_append,List.length_replicate] at hlen
  rw [Writer.capacity]
  omega

theorem Holds.zero (h : Holds w t) {i : Nat} (hi : i < w.buf.size) (hpos : w.pos ≤ i) :
    w.buf[i] = 0 := by
  rw [ByteArray.getElem_eq_getElem_data,← Array.getElem_toList]
  simp only [h.buf]
  rw [List.getElem_append_right (by rw [← h.pos]; exact hpos),List.getElem_replicate]

theorem holds_withCapacity (c : Nat) : Holds (withCapacity c) ⟨[],c⟩ where
  buf := by simp [withCapacity,zeros]
  pos := rfl
  le_capacity := Nat.zero_le c

theorem Holds.extend (h : Holds w t) (n : Nat) : Holds (w.extend n) ⟨t.bytes,t.capacity+n⟩ where
  buf := by
    have hle := h.le_capacity
    dsimp only
    rw [buf_extend,h.buf,List.append_assoc,List.replicate_append_replicate]
    congr 2
    omega
  pos := h.pos
  le_capacity := Nat.le_trans h.le_capacity (Nat.le_add_right _ _)

theorem Holds.reserve (h : Holds w t) (len : Nat) :
    Holds (w.reserve len) ⟨t.bytes,Tape.grow t.capacity (t.bytes.length+len)⟩ := by
  have hcap := h.capacity
  rw [Writer.capacity] at hcap
  by_cases hlt : t.capacity < t.bytes.length + len
  · have hgrow : Tape.grow t.capacity (t.bytes.length+len) =
        t.capacity + max (t.bytes.length + len - t.capacity) t.capacity := by
      rw [Tape.grow,if_pos hlt]
      omega
    rw [hgrow]
    simp only [Writer.reserve,hcap,h.pos,if_pos hlt]
    exact h.extend _
  · rw [Tape.grow,if_neg hlt]
    simp only [Writer.reserve,hcap,h.pos,if_neg hlt]
    exact h

theorem Holds.writeBytes (h : Holds w t) (bs : List UInt8) : Holds (w.writeBytes bs) (t.append bs) := by
  have hr := h.reserve bs.length
  have hroom := Tape.le_grow t.capacity (t.bytes.length + bs.length)
  refine ⟨?_,?_,?_⟩
  · simp only [Writer.writeBytes,Tape.append]
    rw [toList_copyInto (le_capacity_reserve w bs.length),hr.buf,hr.pos]
    dsimp only
    rw [List.take_left,List.drop_append,List.drop_eq_nil_of_le (Nat.le_add_right _ _),List.nil_append,
      List.drop_replicate,List.length_append,Nat.add_sub_cancel_left,Nat.sub_sub]
  · simp only [Writer.writeBytes,Tape.append,List.length_append]
    rw [hr.pos]
  · simpa [Tape.append] using hroom

theorem Holds.writeU16At (h : Holds w t) {offset : Nat} (hfit : offset + 2 ≤ t.bytes.length)
    (v : UInt16) :
    Holds (w.writeU16At offset v) ⟨t.bytes.take offset ++ word16 v ++ t.bytes.drop (offset+2),t.capacity⟩ := by
  have hword : (word16 v).length = 2 := rfl
  have hlen : (t.bytes.take offset ++ word16 v ++ t.bytes.drop (offset+2)).length = t.bytes.length := by
    simp only [List.length_append,List.length_take,List.length_drop,hword]
    omega
  have hroom : offset + (BigEndian.ofUInt16 v).length ≤ w.buf.size := by
    have hcap := h.capacity
    have hle := h.le_capacity
    rw [Writer.capacity] at hcap
    rw [ofUInt16_eq_word16,hword]
    omega
  refine ⟨?_,?_,?_⟩
  · dsimp only
    simp only [Writer.writeU16At,copyAt]
    rw [toList_copyInto hroom,h.buf,hlen,ofUInt16_eq_word16,hword,
      List.take_append_of_le_length (by omega),List.drop_append_of_le_length hfit]
    simp only [List.append_assoc]
  · dsimp only
    rw [hlen]
    exact h.pos
  · dsimp only
    rw [hlen]
    exact h.le_capacity

/-- One call keeps the relation, a patch as long as it fits, and the writer and the tape return
alike: both succeed, or both fail with the same error. -/
theorem Holds.call (h : Holds w t) {c : Call} (hc : c.Fits t.bytes.length) :
    (∃ w' t', w.call c = .ok w' ∧ t.call c = .ok t' ∧ Holds w' t') ∨
      ∃ e, w.call c = .error e ∧ t.call c = .error e := by
  cases c with
  | u8 v => exact .inl ⟨_,_,rfl,rfl,h.writeBytes [v]⟩
  | u16 v =>
      refine .inl ⟨_,_,rfl,rfl,?_⟩
      rw [← ofUInt16_eq_word16]
      exact h.writeBytes _
  | u32 v =>
      refine .inl ⟨_,_,rfl,rfl,?_⟩
      rw [← ofUInt32_eq_word32]
      exact h.writeBytes _
  | bytes bs => exact .inl ⟨_,_,rfl,rfl,h.writeBytes bs⟩
  | characterString data =>
      -- the length byte and the data are two writes, each growing the buffer as it needs
      by_cases hlong : 255 < data.length
      · exact .inr ⟨.characterStringTooLong data.length,by simp [Writer.call,writeCharacterString,hlong],
          by simp [Tape.call,hlong]⟩
      · exact .inl ⟨(w.writeU8 data.length.toUInt8).writeBytes data,
          (t.append [UInt8.ofNat data.length]).append data,
          by simp [Writer.call,writeCharacterString,hlong],by simp [Tape.call,hlong],
          (h.writeBytes _).writeBytes data⟩
  | u16At offset v => exact .inl ⟨_,_,rfl,rfl,h.writeU16At hc v⟩
  | extend n => exact .inl ⟨_,_,rfl,rfl,h.extend n⟩

/-- The states a writer and a tape go on from after a call are related, and the call returned
alike on both. -/
theorem Holds.after (h : Holds w t) {c : Call} (hc : c.Fits t.bytes.length) :
    Holds (after Writer.call w c) (after Tape.call t c) ∧
      (w.call c).map (fun _ => ()) = (t.call c).map (fun _ => ()) := by
  rcases h.call hc with ⟨w',t',hw,ht,hh⟩ | ⟨e,hw,ht⟩
  · simp only [Writer.after,hw,ht]
    exact ⟨hh,rfl⟩
  · simp only [Writer.after,hw,ht]
    exact ⟨h,rfl⟩

/-- A run of calls whose patches fit keeps the relation, and the writer and the tape return alike
at every call. -/
theorem Holds.runCalls (h : Holds w t) {cs : List Call} (hf : t.Fits cs) :
    Holds (runCalls Writer.call w cs).1 (runCalls Tape.call t cs).1 ∧
      (runCalls Writer.call w cs).2 = (runCalls Tape.call t cs).2 := by
  -- induction on the calls, each one taken by `Holds.after`
  induction cs generalizing w t with
  | nil => exact ⟨h,rfl⟩
  | cons c cs ih =>
      obtain ⟨hc,hrest⟩ := hf
      obtain ⟨hh,hout⟩ := h.after hc
      obtain ⟨hnext,hrun⟩ := ih hh hrest
      simp only [Writer.runCalls]
      exact ⟨hnext,by rw [hout,hrun]⟩

end Holds

/-- A writer over a zeroed buffer of any capacity, after any run of calls whose patches overwrite
bytes already written, returns what the tape returns at every call; its written bytes are the
tape's, its cursor is at their end, its buffer is as long as the tape's capacity, and every byte of
the buffer from the cursor on is zero. -/
theorem runCalls_matches_tape (c : Nat) (cs : List Call) (hf : Tape.Fits ⟨[],c⟩ cs) :
    let run := runCalls Writer.call (withCapacity c) cs
    let ref := runCalls Tape.call ⟨[],c⟩ cs
    run.2 = ref.2 ∧ run.1.toList = ref.1.bytes ∧ run.1.position = ref.1.bytes.length ∧
      run.1.capacity = ref.1.capacity ∧ run.1.position ≤ run.1.capacity ∧
      ∀ i (hi : i < run.1.buf.size), run.1.position ≤ i → run.1.buf[i] = 0 := by
  intro run ref
  obtain ⟨h,hout⟩ := (holds_withCapacity c).runCalls hf
  exact ⟨hout,h.toList,h.pos,h.capacity,run.1.pos_le,fun i hi hp => h.zero hi hp⟩

/-- A writer of capacity two: five bytes grow it to five, a patch lands inside them, a string of
256 bytes is refused, an extension adds three, a byte fits, and a word doubles the capacity. -/
theorem runCalls_matches_tape_growth :
    let cs := [Call.bytes [7,7,7,7,7],.u16At 1 0x0102,.characterString (List.replicate 256 0),.extend 3,
      .u8 9,.u32 0xdeadbeef]
    let run := runCalls Writer.call (withCapacity 2) cs
    Tape.Fits ⟨[],2⟩ cs ∧ run.1.toList = [7,1,2,7,7,9,0xde,0xad,0xbe,0xef] ∧ run.1.capacity = 16 ∧
      run.2 = [.ok (),.ok (),.error (.characterStringTooLong 256),.ok (),.ok (),.ok ()] := by
  intro cs run
  have hf : Tape.Fits ⟨[],2⟩ cs := by decide
  obtain ⟨hout,hbytes,-,hcap,-,-⟩ := runCalls_matches_tape 2 cs hf
  refine ⟨hf,?_,?_,?_⟩
  · rw [hbytes]
    decide +kernel
  · rw [hcap]
    decide +kernel
  · rw [hout]
    decide +kernel

end Writer

end DnsStub
