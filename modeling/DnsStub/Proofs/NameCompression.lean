import DnsStub.Proofs.NameReading
import DnsStub.Message.Response
/-!
# Names written with compression pointers

Names written back to back, each as its first labels in full and then either the zero byte or
a pointer to the start of a label that an earlier name wrote out in full, from which that
name spells exactly the labels left. Read one after the other, such names come back label for
label, and each read stops right after the name's own bytes.

The proof follows the names in order: a name spells its labels from every label it wrote out,
for every segment bound at or past its start (`Compresses.spells`), by strong induction over
the names, since a pointer leads into an earlier name. The hops along the way never exceed
the labels, so they never pass the scanner's limit of 127.

Main statement: `readTimes_readName_compressed`.
-/
namespace DnsStub

namespace Name

/-- A name as written with compression: its first `literal` labels in full, then the zero
byte when that is all of them, else a pointer to `target`. -/
structure CompressedName where
  name : Name
  literal : Nat
  target : Nat

namespace CompressedName

/-- The number of labels written out in full. -/
def written (c : CompressedName) : Nat := min c.literal c.name.labels.length

/-- The two bytes of a pointer to an offset below 2^14. -/
def pointerBytes (target : Nat) : List UInt8 :=
  [0xC0 ||| (target/256).toUInt8,(target%256).toUInt8]

/-- The bytes of the written name. -/
def bytes (c : CompressedName) : List UInt8 :=
  labelBytes (c.name.labels.take c.literal) ++
    if c.literal < c.name.labels.length then pointerBytes c.target else [0]

/-- The offset of label t within the bytes of the name. -/
def labelStart (c : CompressedName) (t : Nat) : Nat :=
  (labelBytes (c.name.labels.take t)).length

end CompressedName

open CompressedName

/-- Where name i starts when the names are written back to back from base. -/
def entryStart (base : Nat) (cs : List CompressedName) (i : Nat) : Nat :=
  base+((cs.take i).flatMap bytes).length

/-- Every pointer goes below 2^14 to the start of a label that an earlier name wrote out in
full, and from there that name's labels are exactly the ones the pointer stands for. -/
def Compresses (base : Nat) (cs : List CompressedName) : Prop :=
  ∀ i (hi : i < cs.length), cs[i].literal < cs[i].name.labels.length →
    cs[i].target < 2^14 ∧ ∃ j, ∃ hj : j < i, ∃ t, t < cs[j].written ∧
      cs[i].target = entryStart base cs j+cs[j].labelStart t ∧
      cs[j].name.labels.drop t = cs[i].name.labels.drop cs[i].literal

namespace CompressedName

theorem written_le_length (c : CompressedName) : c.written ≤ c.name.labels.length :=
  Nat.min_le_right _ _

theorem take_literal (c : CompressedName) :
    c.name.labels.take c.literal = c.name.labels.take c.written := by
  rw [written,← List.take_eq_take_min]

theorem pointerBytes_decode {target : Nat} (h : target < 2^14) :
    (0xC0 ||| (target/256).toUInt8) &&& 0xC0 = 0xC0 ∧
      ((0xC0 ||| (target/256).toUInt8) &&& 0x3F).toNat*256+((target%256).toUInt8).toNat =
        target := by
  have key : ∀ k : Nat, k < 64 →
      (0xC0 ||| k.toUInt8) &&& 0xC0 = 0xC0 ∧ ((0xC0 ||| k.toUInt8) &&& 0x3F).toNat = k := by
    decide
  obtain ⟨h₁,h₂⟩ := key (target/256) (by omega)
  refine ⟨h₁,?_⟩
  rw [h₂]
  simp only [Nat.toUInt8_eq,UInt8.toNat_ofNat']
  omega

/-- The bytes of a name: its written labels up to label t, the rest of its written labels,
then the zero byte or the pointer. -/
theorem bytes_split (c : CompressedName) {t : Nat} (ht : t ≤ c.written) :
    c.bytes = labelBytes (c.name.labels.take t) ++
      labelBytes ((c.name.labels.take c.written).drop t) ++
        if c.literal < c.name.labels.length then pointerBytes c.target else [0] := by
  rw [bytes,take_literal,← labelBytes_append,show c.name.labels.take t =
    (c.name.labels.take c.written).take t by rw [List.take_take,Nat.min_eq_left ht]]
  rw [List.take_append_drop]

theorem labelStart_written (c : CompressedName) {t : Nat} (ht : t ≤ c.written) :
    c.labelStart t+(labelBytes ((c.name.labels.take c.written).drop t)).length =
      c.labelStart c.written := by
  have e := congrArg List.length (congrArg labelBytes
    (List.take_append_drop t (c.name.labels.take c.written)))
  rw [labelBytes_append,List.length_append,List.take_take,Nat.min_eq_left ht] at e
  rw [labelStart,labelStart,e]

theorem length_bytes (c : CompressedName) :
    c.bytes.length = c.labelStart c.written +
      if c.literal < c.name.labels.length then 2 else 1 := by
  rw [bytes,take_literal,List.length_append,labelStart]
  split <;> rfl

theorem labelStart_lt {c : CompressedName} {t : Nat} (ht : t < c.written) :
    c.labelStart t < c.bytes.length := by
  have := c.labelStart_written (Nat.le_of_lt ht)
  rw [length_bytes]
  split <;> omega

end CompressedName

section Layout
variable {base : Nat} {cs : List CompressedName}

theorem entryStart_succ (i : Nat) (hi : i < cs.length) :
    entryStart base cs (i+1) = entryStart base cs i+cs[i].bytes.length := by
  unfold entryStart
  rw [List.take_add_one,List.getElem?_eq_getElem hi,List.flatMap_append]
  simp only [Option.toList_some,List.flatMap_cons,List.flatMap_nil,List.append_nil,
    List.length_append]
  omega

theorem entryStart_mono {i j : Nat} (h : i ≤ j) : entryStart base cs i ≤ entryStart base cs j := by
  unfold entryStart
  have e := List.take_append_drop (i := i) (cs.take j)
  rw [List.take_take,Nat.min_eq_left h] at e
  rw [← e,List.flatMap_append,List.length_append]
  omega

theorem bytes_at_entryStart {msg : List UInt8} (hm : cs.flatMap bytes <+: msg.drop base)
    (i : Nat) (hi : i < cs.length) : cs[i].bytes <+: msg.drop (entryStart base cs i) := by
  have e : cs.flatMap bytes = (cs.take i).flatMap bytes ++ (cs[i].bytes ++ (cs.drop (i+1)).flatMap bytes) := by
    rw [← List.flatMap_cons,← List.drop_eq_getElem_cons hi,← List.flatMap_append,List.take_append_drop]
  rw [e,prefix_drop_append,prefix_drop_append] at hm
  exact hm.2.1

theorem spells_pointer {msg : List UInt8} {seg q target hops stop : Nat} {ls : List (List UInt8)}
    (ht : target < 2^14) (hb : pointerBytes target <+: msg.drop q) (hseg : target < seg)
    (h : Spells msg target target ls hops stop) : Spells msg seg q ls (hops+1) (q+2) := by
  obtain ⟨h₁,h₂⟩ := pointerBytes_decode ht
  rw [pointerBytes,prefix_drop_cons,prefix_drop_cons] at hb
  exact .pointer hb.1 h₁ hb.2.1 h₂.symm hseg h

/-- Each name spells its labels from each label it wrote out in full, and from where its
zero byte or pointer stands, for every segment bound at or past its start. Following the
pointers takes at most as many hops as there are labels left after the written ones. -/
theorem Compresses.spells {msg : List UInt8} (hv : ∀ c ∈ cs, c.name.Valid)
    (hc : Compresses base cs) (hm : cs.flatMap bytes <+: msg.drop base) (i : Nat) :
    ∀ (hi : i < cs.length) (t : Nat), t ≤ cs[i].written → ∀ seg, entryStart base cs i ≤ seg →
      ∃ hops, Spells msg seg (entryStart base cs i+cs[i].labelStart t)
        (cs[i].name.labels.drop t) hops (entryStart base cs (i+1)) ∧
        hops+(cs[i].written-t) ≤ (cs[i].name.labels.drop t).length := by
  induction i using Nat.strongRecOn with
  | ind i ih =>
  intro hi t ht seg hseg
  have hlen := cs[i].written_le_length
  have hbytes := bytes_at_entryStart hm i hi
  rw [bytes_split cs[i] ht,prefix_drop_append,prefix_drop_append] at hbytes
  obtain ⟨⟨-,hlit⟩,hterm⟩ := hbytes
  have hpos := cs[i].labelStart_written ht
  simp only [labelStart] at hpos
  rw [List.length_append,hpos] at hterm
  have hsucc : entryStart base cs (i+1) = entryStart base cs i+cs[i].bytes.length :=
    entryStart_succ i hi
  rw [length_bytes] at hsucc
  have hend : ∃ hops, Spells msg seg (entryStart base cs i+cs[i].labelStart cs[i].written)
      (cs[i].name.labels.drop cs[i].written) hops (entryStart base cs (i+1)) ∧
      hops ≤ (cs[i].name.labels.drop cs[i].written).length := by
    by_cases hp : cs[i].literal < cs[i].name.labels.length
    · rw [if_pos hp] at hterm hsucc
      obtain ⟨htarget,j,hj,t',ht',heq,hdrop⟩ := hc i hi hp
      have hj' : j < cs.length := by omega
      obtain ⟨h',hs',hh'⟩ := ih j hj hj' t' (Nat.le_of_lt ht')
        (entryStart base cs j+cs[j].labelStart t') (by omega)
      have hw : cs[i].written = cs[i].literal := Nat.min_eq_left (Nat.le_of_lt hp)
      have hbefore : cs[i].target < entryStart base cs i := by
        have := labelStart_lt ht'
        have : entryStart base cs (j+1) = entryStart base cs j+cs[j].bytes.length :=
          entryStart_succ j hj'
        have : entryStart base cs (j+1) ≤ entryStart base cs i := entryStart_mono (by omega)
        omega
      rw [← heq] at hs'
      refine ⟨h'+1,?_,?_⟩
      · rw [hsucc]
        exact spells_pointer htarget hterm (by omega) (hw ▸ hdrop ▸ hs')
      · rw [hw,← hdrop]
        omega
    · rw [if_neg hp] at hterm hsucc
      have hw : cs[i].written = cs[i].name.labels.length := Nat.min_eq_right (by omega)
      refine ⟨0,?_,by simp⟩
      rw [hw,List.drop_length,hsucc,← hw]
      exact .root (prefix_drop_cons.mp hterm).1
  obtain ⟨hops,hs,hh⟩ := hend
  refine ⟨hops,?_,?_⟩
  · have hlabels : (cs[i].name.labels.take cs[i].written).drop t ++
        cs[i].name.labels.drop cs[i].written = cs[i].name.labels.drop t := by
      rw [← List.drop_append_of_le_length (by simp only [List.length_take]; omega),
        List.take_append_drop]
    rw [← hlabels]
    refine spells_labels (fun l hl => (hv cs[i] (List.getElem_mem hi)).1 l ?_) hlit ?_
    · exact List.mem_of_mem_take (List.mem_of_mem_drop hl)
    · simp only [labelStart] at hs ⊢
      rw [Nat.add_assoc,hpos]
      exact hs
  · simp only [List.length_drop] at hh ⊢
    omega

theorem entryStart_length : entryStart base cs cs.length = base+(cs.flatMap bytes).length := by
  simp [entryStart]

theorem readName_entry {r : Reader} (hv : ∀ c ∈ cs, c.name.Valid) (hc : Compresses base cs)
    (hm : cs.flatMap bytes <+: r.data.data.toList.drop base)
    (hl : base+(cs.flatMap bytes).length ≤ r.limit) (j : Nat) (hj : j < cs.length)
    (hp : r.pos = entryStart base cs j) :
    ∃ r', Reader.readName r = .ok cs[j].name r' ∧ r'.data = r.data ∧ r'.limit = r.limit ∧
      r'.pos = entryStart base cs (j+1) := by
  obtain ⟨hops,hs,hh⟩ := hc.spells hv hm j hj 0 (Nat.zero_le _) (entryStart base cs j) (Nat.le_refl _)
  have hvj := hv cs[j] (List.getElem_mem hj)
  simp only [labelStart,List.take_zero,labelBytes_nil,List.length_nil,Nat.add_zero,
    List.drop_zero] at hs hh
  rw [← hp] at hs
  have hend : entryStart base cs (j+1) ≤ entryStart base cs cs.length := entryStart_mono (by omega)
  rw [entryStart_length] at hend
  exact Reader.readName_of_spells hs (by omega) (by have := hvj.labelCount_le; omega)
    (by simpa [wireLength_eq_sum] using hvj.2)

theorem readTimes_entries {r : Reader} (hv : ∀ c ∈ cs, c.name.Valid) (hc : Compresses base cs)
    (hm : cs.flatMap bytes <+: r.data.data.toList.drop base)
    (hl : base+(cs.flatMap bytes).length ≤ r.limit) (k : Nat) :
    ∀ (r₀ : Reader) (j : Nat), j+k ≤ cs.length → r₀.data = r.data → r₀.limit = r.limit →
      r₀.pos = entryStart base cs j →
      ∃ r', Response.readTimes Reader.readName k r₀ = .ok (((cs.drop j).take k).map (·.name)) r' ∧
        r'.data = r.data ∧ r'.limit = r.limit ∧ r'.pos = entryStart base cs (j+k) := by
  induction k with
  | zero =>
      intro r₀ j _ hd hl' hp
      exact ⟨r₀,rfl,hd,hl',hp⟩
  | succ k ih =>
      intro r₀ j hj hd hl' hp
      obtain ⟨r₁,h₁,hd₁,hl₁,hp₁⟩ := readName_entry hv hc (hd ▸ hm) (hl' ▸ hl) j (by omega) hp
      obtain ⟨r₂,h₂,hd₂,hl₂,hp₂⟩ := ih r₁ (j+1) (by omega) (hd₁.trans hd) (hl₁.trans hl') hp₁
      refine ⟨r₂,?_,hd₂,hl₂,by rw [hp₂]; congr 1; omega⟩
      rw [List.drop_eq_getElem_cons (show j < cs.length by omega),List.take_succ_cons,
        List.map_cons]
      simp only [Response.readTimes,bind,EStateM.bind,h₁,h₂,pure,EStateM.pure]

end Layout

/-- Names written back to back after any prefix, each compressed against earlier ones,
read back one after the other: after i reads the names read are the first i, label for
label, and the position is right after the i-th name's own bytes. In particular a valid name
written out in full reads back with the position moved by its wire length. -/
theorem readTimes_readName_compressed :
    (∀ (pre post : List UInt8) (cs : List CompressedName), (∀ c ∈ cs, c.name.Valid) →
      Compresses pre.length cs → ∀ r : Reader,
        r.data.data.toList = pre++cs.flatMap bytes++post → r.pos = pre.length →
        pre.length+(cs.flatMap bytes).length ≤ r.limit → ∀ i ≤ cs.length,
          ∃ r', Response.readTimes Reader.readName i r = .ok ((cs.take i).map (·.name)) r' ∧
            r'.data = r.data ∧ r'.limit = r.limit ∧ r'.pos = entryStart pre.length cs i) ∧
    (∀ (n : Name) (p : Nat), n.Valid → Reader.Reads p Reader.readName n.toWire n ∧
      n.toWire.length = n.wireLength) := by
  refine ⟨?_,fun n p hn => ⟨Reader.reads_readName hn p,length_toWire n⟩⟩
  intro pre post cs hv hc r hd hp hl i hi
  have hm : cs.flatMap bytes <+: r.data.data.toList.drop pre.length := by
    rw [hd,List.append_assoc,List.drop_left]
    exact List.prefix_append _ _
  obtain ⟨r',h,hd',hl',hp'⟩ := readTimes_entries hv hc hm hl i r 0 (by omega) rfl rfl
    (by simpa [entryStart] using hp)
  exact ⟨r',by simpa using h,hd',hl',by simpa using hp'⟩

/-- "example.com" written in full at offset 0, then "www" and a pointer to offset 0: the two
reads stop at offsets 13 and 19. -/
theorem readTimes_readName_compressed_www :
    let ex : Name := ⟨[[101,120,97,109,112,108,101],[99,111,109]]⟩
    let www : Name := ⟨[[119,119,119],[101,120,97,109,112,108,101],[99,111,109]]⟩
    let cs : List CompressedName := [⟨ex,2,0⟩,⟨www,1,0⟩]
    (∀ c ∈ cs, c.name.Valid) ∧ Compresses 0 cs ∧
      ∃ r', Response.readTimes Reader.readName 2 (Reader.new (cs.flatMap bytes++[0xff]).toByteArray) =
        .ok [ex,www] r' ∧ r'.pos = 19 := by
  intro ex www cs
  have hv : ∀ c ∈ cs, c.name.Valid := by decide
  have hc : Compresses 0 cs := by
    intro i hi hp
    match i with
    | 0 => exact absurd hp (by decide +revert)
    | 1 => exact ⟨by decide +revert,0,by decide,0,by decide +revert,by decide +revert,
      by decide +revert⟩
  refine ⟨hv,hc,?_⟩
  obtain ⟨r',h,-,-,hp⟩ := readTimes_readName_compressed.1 [] [0xff] cs hv hc
    (Reader.new (cs.flatMap bytes++[0xff]).toByteArray)
    (by simp only [Reader.new,List.data_toByteArray,List.toList_toArray,List.nil_append]) rfl
    (by simp [Reader.new]) 2
    (by decide)
  exact ⟨r',h,hp⟩

end Name

end DnsStub
