import DnsStub.Proofs.Reading
import DnsStub.Name.Scan
/-!
# What the name scanner reads

The labels a message spells from an offset on, as a relation `Spells` over the message: a label
after its length byte, the zero byte that ends a name, or a compression pointer to an offset
before the segment, the run of labels, that holds it. A derivation of `Spells` is a path
through the message that always jumps backwards, like a list of cells whose links point to
earlier cells.

The scanner is described one byte kind at a time (`scanFrom_zero`, `scanFrom_label`,
`scanFrom_pointer`), and from these, by induction on the derivation, it reads exactly the
spelled labels when the limit, the hop count and the wire length allow (`Spells.scanFrom`).

Main statements: `readName_of_spells`, and for a valid name written out in full,
`reads_readName`: it reads back with the position moved by its wire length.
-/
namespace DnsStub

namespace Name

/-- A valid name: every label has 1 to 63 bytes and the wire length is at most 255. -/
def Valid (n : Name) : Prop :=
  (∀ l ∈ n.labels, 0 < l.length ∧ l.length ≤ maxLabelLength) ∧ n.wireLength ≤ maxWireLength

instance (n : Name) : Decidable n.Valid :=
  inferInstanceAs (Decidable (_ ∧ _))

theorem wireLength_eq_sum (n : Name) : n.wireLength = (n.labels.map (·.length + 1)).sum + 1 := by
  -- the running total starts at the root's byte and adds one label at a time
  have hfold : ∀ (ls : List (List UInt8)) (a : Nat),
      ls.foldl (fun len l => len + l.length + 1) a = a + (ls.map (·.length + 1)).sum := by
    intro ls a
    induction ls generalizing a with
    | nil => simp
    | cons l ls ih =>
        simp only [List.foldl_cons, ih, List.map_cons, List.sum_cons]
        omega
  rw [wireLength, hfold]
  omega

/-- A valid name has at most 127 labels, each taking two bytes at least. -/
theorem Valid.labelCount_le {n : Name} (h : n.Valid) : n.labels.length ≤ 127 := by
  have hsum : ∀ ls : List (List UInt8), (∀ l ∈ ls, 0 < l.length) →
      2*ls.length ≤ (ls.map (·.length+1)).sum := by
    intro ls hls
    induction ls with
    | nil => simp
    | cons l ls ih =>
        have hl := hls l (by simp)
        have := ih (fun l' hl' => hls l' (by simp [hl']))
        simp only [List.length_cons,List.map_cons,List.sum_cons]
        omega
  have := hsum n.labels (fun l hl => (h.1 l hl).1)
  have := h.2
  simp only [wireLength_eq_sum,maxWireLength] at this
  omega

/-- The labels written out in full, each after its length byte. -/
def labelBytes (ls : List (List UInt8)) : List UInt8 :=
  ls.flatMap fun l => l.length.toUInt8 :: l

@[simp] theorem labelBytes_nil : labelBytes [] = [] := rfl

@[simp] theorem labelBytes_cons (l : List UInt8) (ls : List (List UInt8)) :
    labelBytes (l :: ls) = l.length.toUInt8 :: l++labelBytes ls := rfl

@[simp] theorem labelBytes_append (ls ls' : List (List UInt8)) :
    labelBytes (ls++ls') = labelBytes ls++labelBytes ls' := by
  simp [labelBytes]

@[simp] theorem length_labelBytes (ls : List (List UInt8)) :
    (labelBytes ls).length = (ls.map (·.length+1)).sum := by
  induction ls with
  | nil => rfl
  | cons l ls ih => simp [ih]; omega

theorem toWire_eq (n : Name) : n.toWire = labelBytes n.labels++[0] := rfl

@[simp] theorem length_toWire (n : Name) : n.toWire.length = n.wireLength := by
  simp [toWire_eq,wireLength_eq_sum]

/-- The labels a message spells from `pos` on. `seg` bounds the targets of pointers in the
current run of labels, `hops` counts the pointers followed, and `stop` is the offset right
after the name's own bytes: the zero byte, or the first pointer. -/
inductive Spells (msg : List UInt8) : Nat → Nat → List (List UInt8) → Nat → Nat → Prop
  | root {seg pos : Nat} : msg[pos]? = some 0 → Spells msg seg pos [] 0 (pos+1)
  | label {seg pos hops stop : Nat} {l : List UInt8} {ls : List (List UInt8)} :
      0 < l.length → l.length ≤ maxLabelLength → msg[pos]? = some l.length.toUInt8 →
      l <+: msg.drop (pos+1) → Spells msg seg (pos+1+l.length) ls hops stop →
      Spells msg seg pos (l :: ls) hops stop
  | pointer {seg pos target hops stop : Nat} {hi lo : UInt8} {ls : List (List UInt8)} :
      msg[pos]? = some hi → hi &&& 0xC0 = 0xC0 → msg[pos+1]? = some lo →
      target = (hi &&& 0x3F).toNat*256+lo.toNat → target < seg →
      Spells msg target target ls hops stop → Spells msg seg pos ls (hops+1) (pos+2)

section
variable {msg : List UInt8}

theorem Spells.pos_lt_stop {seg pos hops stop : Nat} {ls : List (List UInt8)}
    (h : Spells msg seg pos ls hops stop) : pos < stop := by
  induction h with
  | root => omega
  | label _ _ _ _ _ ih => omega
  | pointer => omega

theorem Spells.pos_lt_length {seg pos hops stop : Nat} {ls : List (List UInt8)}
    (h : Spells msg seg pos ls hops stop) : pos < msg.length := by
  cases h with
  | root h0 => exact (List.getElem?_eq_some_iff.mp h0).1
  | label _ _ hl _ _ => exact (List.getElem?_eq_some_iff.mp hl).1
  | pointer hhi _ _ _ _ _ => exact (List.getElem?_eq_some_iff.mp hhi).1

theorem Spells.mono {seg seg' pos hops stop : Nat} {ls : List (List UInt8)}
    (h : Spells msg seg pos ls hops stop) (hs : seg ≤ seg') : Spells msg seg' pos ls hops stop := by
  induction h generalizing seg' with
  | root h0 => exact .root h0
  | label h₁ h₂ h₃ h₄ _ ih => exact .label h₁ h₂ h₃ h₄ (ih hs)
  | pointer h₁ h₂ h₃ h₄ h₅ h₆ _ => exact .pointer h₁ h₂ h₃ h₄ (by omega) h₆

end

theorem get_eq_of_getElem? {data : ByteArray} {i : Nat} {b : UInt8}
    (h : data.data.toList[i]? = some b) (hi : i < data.size) : data[i] = b := by
  have e := List.getElem?_eq_getElem (l := data.data.toList) (by simpa using hi)
  rw [h] at e
  simp only [Array.getElem_toList,Option.some.injEq] at e
  rw [e]
  rfl

theorem lt_size_of_getElem? {data : ByteArray} {i : Nat} {b : UInt8}
    (h : data.data.toList[i]? = some b) : i < data.size := by
  simpa using (List.getElem?_eq_some_iff.mp h).1

theorem get_of_prefix {data : ByteArray} {q : Nat} {l : List UInt8}
    (h : l <+: data.data.toList.drop q) (i : Nat) (hi : i < l.length) (hs : q+i < data.size) :
    data[q+i] = l[i] := by
  apply get_eq_of_getElem?
  obtain ⟨t,ht⟩ := h
  have e : (l++t)[i]? = (data.data.toList.drop q)[i]? := by rw [ht]
  rw [List.getElem?_append_left hi,List.getElem?_drop] at e
  rw [← e,List.getElem?_eq_getElem hi]

theorem toUInt8_and_192 {n : Nat} (h : n ≤ maxLabelLength) : n.toUInt8 &&& 192 = 0 := by
  have key : ∀ k : Nat, k < 64 → k &&& 192 = 0 := by decide
  apply UInt8.toNat_inj.mp
  rw [UInt8.toNat_and]
  simpa [maxLabelLength] using key (n % 256) (by simp [maxLabelLength] at h; omega)

section
variable {data : ByteArray} {limit start : Nat} {hlimit : limit ≤ data.size} {pos seg : Nat}
  {resume : Option Nat} {hops wireLen : Nat} {done : Array (List UInt8)}

/-- At a zero byte the name ends: after its first pointer if there was one, else after the
zero byte. -/
theorem scanFrom_zero (h0 : data.data.toList[pos]? = some 0)
    (hb : resume = none → pos+1 ≤ limit) :
    scanFrom data limit start hlimit pos seg resume hops wireLen done =
      .ok (done,resume.getD (pos+1)) := by
  have hbound : pos < (if resume.isNone then limit else data.size) := by
    cases resume with
    | none => simp only [Option.isNone_none,if_true]; have := hb rfl; omega
    | some _ => simpa using lt_size_of_getElem? h0
  rw [scanFrom]
  simp only [dif_pos hbound,get_eq_of_getElem? h0,if_true]

/-- At a label the scan takes it whole and goes on after it, unless the name would then pass 255
bytes. -/
theorem scanFrom_label_ite {l : List UInt8} (hl : data.data.toList[pos]? = some l.length.toUInt8)
    (hpos : 0 < l.length) (h63 : l.length ≤ maxLabelLength)
    (hpre : l <+: data.data.toList.drop (pos+1)) (hb : resume = none → pos+1+l.length ≤ limit) :
    scanFrom data limit start hlimit pos seg resume hops wireLen done =
      if maxWireLength < wireLen+l.length+1+1 then .error (.nameTooLong (wireLen+l.length+1+1))
      else scanFrom data limit start hlimit (pos+1+l.length) seg resume hops (wireLen+l.length+1)
        (done.push l) := by
  have hsize : pos+1+l.length ≤ data.size := by
    have := hpre.length_le
    simp only [List.length_drop,Array.length_toList,ByteArray.size_data] at this
    omega
  have hbound : pos+1+l.length ≤ (if resume.isNone then limit else data.size) := by
    cases resume with
    | none => simpa using hb rfl
    | some _ => simpa using hsize
  have hbyte : (l.length.toUInt8).toNat = l.length := by
    simp only [Nat.toUInt8_eq,UInt8.toNat_ofNat']
    simp only [maxLabelLength] at h63
    omega
  have hne : l.length.toUInt8 ≠ 0 := by
    intro h
    rw [h] at hbyte
    simp at hbyte
    omega
  rw [scanFrom]
  simp only [dif_pos (show pos < (if resume.isNone then limit else data.size) by omega),
    get_eq_of_getElem? hl,hne,if_false,toUInt8_and_192 h63,if_true,hbyte,
    if_neg (by decide : ¬(0 : UInt8) = 192)]
  rw [dif_neg (by omega)]
  congr
  apply List.ext_getElem (by simp)
  intro i _ h₂
  simp only [List.getElem_ofFn]
  exact get_of_prefix hpre i h₂ _

theorem scanFrom_label {l : List UInt8} (hl : data.data.toList[pos]? = some l.length.toUInt8)
    (hpos : 0 < l.length) (h63 : l.length ≤ maxLabelLength)
    (hpre : l <+: data.data.toList.drop (pos+1)) (hb : resume = none → pos+1+l.length ≤ limit)
    (hw : wireLen+l.length+1+1 ≤ maxWireLength) :
    scanFrom data limit start hlimit pos seg resume hops wireLen done =
      scanFrom data limit start hlimit (pos+1+l.length) seg resume hops (wireLen+l.length+1)
        (done.push l) := by
  rw [scanFrom_label_ite hl hpos h63 hpre hb,if_neg (by omega)]

/-- A pointer before the segment moves the scan to its target, which starts a new segment;
the first pointer fixes where the name ends. -/
theorem scanFrom_pointer {hi lo : UInt8} {target : Nat}
    (hhi : data.data.toList[pos]? = some hi) (hc : hi &&& 0xC0 = 0xC0)
    (hlo : data.data.toList[pos+1]? = some lo) (ht : target = (hi &&& 0x3F).toNat*256+lo.toNat)
    (hsize : target < data.size) (hseg : target < seg) (hh : hops+1 ≤ 127)
    (hb : resume = none → pos+2 ≤ limit) :
    scanFrom data limit start hlimit pos seg resume hops wireLen done =
      scanFrom data limit start hlimit target target (some (resume.getD (pos+2))) (hops+1)
        wireLen done := by
  have hlo' := lt_size_of_getElem? hlo
  have hbound : pos+2 ≤ (if resume.isNone then limit else data.size) := by
    cases resume with
    | none => simpa using hb rfl
    | some _ => simp only [Option.isNone_some,Bool.false_eq_true,if_false]; omega
  have hne : hi ≠ 0 := by
    intro h
    rw [h] at hc
    exact absurd hc (by decide)
  have htarget : (BigEndian.toUInt16 (hi &&& 63) lo).toNat = target := by
    rw [BigEndian.toNat_toUInt16,ht]
  rw [scanFrom]
  simp only [dif_pos (show pos < (if resume.isNone then limit else data.size) by omega),
    get_eq_of_getElem? hhi,get_eq_of_getElem? hlo,hne,if_false,
    show hi &&& 192 = 192 from hc,if_true]
  rw [dif_neg (by omega)]
  simp only [htarget,if_neg (show ¬data.size ≤ target by omega),
    if_neg (show ¬seg ≤ target by omega),dif_neg (show ¬127 < hops+1 by omega)]

end

/-- The scanner reads exactly the labels a message spells, when the bytes before the first
pointer lie before the limit, at most 127 pointers are followed in all and the name fits in
255 bytes. -/
theorem Spells.scanFrom {data : ByteArray} {seg pos hops stop : Nat} {ls : List (List UInt8)}
    (h : Spells data.data.toList seg pos ls hops stop) (limit start : Nat)
    (hlimit : limit ≤ data.size) : ∀ (resume : Option Nat) (before wireLen : Nat) (done : Array (List UInt8)),
      (resume = none → stop ≤ limit) → before+hops ≤ 127 →
      wireLen+(ls.map (·.length+1)).sum+1 ≤ maxWireLength →
      Name.scanFrom data limit start hlimit pos seg resume before wireLen done =
        .ok (done++ls.toArray,resume.getD stop) := by
  induction h with
  | root h0 =>
      intro resume before wireLen done hb _ _
      rw [scanFrom_zero h0 hb]
      simp
  | @label seg pos hops stop l ls hpos h63 hl hpre hrest ih =>
      intro resume before wireLen done hb hh hw
      have hlt := hrest.pos_lt_stop
      simp only [List.map_cons,List.sum_cons] at hw
      rw [scanFrom_label hl hpos h63 hpre (fun hr => by have := hb hr; omega) (by omega),
        ih resume before (wireLen+l.length+1) (done.push l) hb hh (by omega)]
      simp
  | @pointer seg pos target hops stop hi lo ls hhi hc hlo ht hseg hrest ih =>
      intro resume before wireLen done hb hh hw
      have hsize : target < data.size := by simpa using hrest.pos_lt_length
      rw [scanFrom_pointer hhi hc hlo ht hsize hseg (by omega) hb,
        ih (some (resume.getD (pos+2))) (before+1) wireLen done (by simp) (by omega) hw]
      simp

theorem spells_labels {msg : List UInt8} {seg q hops stop : Nat} {rest : List (List UInt8)} :
    ∀ {ls : List (List UInt8)}, (∀ l ∈ ls, 0 < l.length ∧ l.length ≤ maxLabelLength) →
      labelBytes ls <+: msg.drop q → Spells msg seg (q+(labelBytes ls).length) rest hops stop →
      Spells msg seg q (ls++rest) hops stop
  | [],_,_,h => by simpa using h
  | l :: ls,hv,hb,h => by
      rw [labelBytes_cons,List.cons_append,prefix_drop_cons,prefix_drop_append] at hb
      obtain ⟨hl,hpre,hrest⟩ := hb
      have hv' := hv l (by simp)
      refine .label hv'.1 hv'.2 hl hpre (spells_labels (fun l' hl' => hv l' (by simp [hl'])) hrest ?_)
      simpa [Nat.add_assoc,Nat.add_comm,Nat.add_left_comm] using h

theorem spells_toWire {msg : List UInt8} {seg q : Nat} {n : Name}
    (hv : ∀ l ∈ n.labels, 0 < l.length ∧ l.length ≤ maxLabelLength) (hb : n.toWire <+: msg.drop q) :
    Spells msg seg q n.labels 0 (q+n.wireLength) := by
  rw [toWire_eq,prefix_drop_append] at hb
  have hroot : Spells msg seg (q+(labelBytes n.labels).length) [] 0
      (q+(labelBytes n.labels).length+1) :=
    .root (List.singleton_prefix_iff_head?_eq_some.mp hb.2 |> fun h => by simpa using h)
  have := spells_labels hv hb.1 hroot
  simpa [wireLength_eq_sum,Nat.add_assoc] using this

end Name

namespace Reader

/-- Reading a name the message spells at the position yields its labels and leaves the
position after the name's own bytes. -/
theorem readName_of_spells {r : Reader} {ls : List (List UInt8)} {hops stop : Nat}
    (h : Name.Spells r.data.data.toList r.pos r.pos ls hops stop) (hstop : stop ≤ r.limit)
    (hh : hops ≤ 127) (hw : (ls.map (·.length+1)).sum+1 ≤ Name.maxWireLength) :
    ∃ r', readName r = .ok ⟨ls⟩ r' ∧ r'.data = r.data ∧ r'.limit = r.limit ∧ r'.pos = stop := by
  have hscan := h.scanFrom r.limit r.pos r.limit_le_size none 0 0 #[] (fun _ => hstop)
    (by omega) (by omega)
  refine ⟨{ r with pos := stop, pos_le_limit := hstop },?_,rfl,rfl,rfl⟩
  simp only [readName,hscan,Option.getD_none,seek,hstop,dif_pos]
  simp

theorem reads_readName {n : Name} (hn : n.Valid) (p : Nat) : Reads p readName n.toWire n := by
  intro r hp ha
  have hs : Name.Spells r.data.data.toList r.pos r.pos n.labels 0 (r.pos+n.wireLength) :=
    Name.spells_toWire hn.1 ha.1
  obtain ⟨r',h,hd,hl,hp'⟩ := readName_of_spells hs (by simpa using ha.2) (by omega)
    (by simpa [Name.wireLength_eq_sum] using hn.2)
  exact ⟨r',h,hd,hl,by rw [hp',hp,Name.length_toWire]⟩

end Reader

end DnsStub
