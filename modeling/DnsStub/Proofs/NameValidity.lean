import DnsStub.Proofs.NameReading
import DnsStub.Name.Text
/-!
# Every name is valid

A name is valid when its labels have 1 to 63 bytes and its wire length is at most 255. Every way
of making a name gives a valid one: the root, a list of labels once checked, a text once read,
a message once scanned, and the lowercase of a valid name. The encoder relies on it: the wire
form of a valid name is exactly its wire length long, and every length byte holds its label's
length. The name keeps no separate Unicode form; `unicodeDisplay` computes it from the labels,
so it always agrees with them.

The two validators agree: on labels of 1 to 63 bytes, `ofLabels` and scanning the labels written
out in full both refuse exactly when the wire length passes 255, although the scanner checks a
running total label by label and `ofLabels` checks the whole sum at the end.

Main statement: `valid_of_every_constructor`.
-/
namespace DnsStub

namespace Name

theorem valid_root : root.Valid :=
  ⟨by simp [root], by decide⟩

theorem checkLabels_eq_ok {ls : List (List UInt8)} :
    checkLabels ls = .ok () ↔ ∀ l ∈ ls, 0 < l.length ∧ l.length ≤ maxLabelLength := by
  induction ls with
  | nil => simp [checkLabels]
  | cons l ls ih =>
      by_cases he : l.isEmpty = true
      · have hl : l.length = 0 := by simpa using he
        simp [checkLabels, he, hl]
      · have hl : 0 < l.length := by
          cases l with
          | nil => simp at he
          | cons => simp
        by_cases hlong : maxLabelLength < l.length
        · simp only [checkLabels, he, hlong, Bool.false_eq_true, if_false, if_true, reduceCtorEq,
            false_iff]
          exact fun hall => absurd (hall l List.mem_cons_self).2 (Nat.not_le_of_lt hlong)
        · simp [checkLabels, he, hlong, ih, hl, Nat.le_of_not_lt hlong]

theorem ofLabels_eq_ok {ls : List (List UInt8)} {n : Name} :
    ofLabels ls = .ok n ↔ n = ⟨ls⟩ ∧ (⟨ls⟩ : Name).Valid := by
  unfold ofLabels
  cases hc : checkLabels ls with
  | error e =>
      have hbad : ¬ ∀ l ∈ ls, 0 < l.length ∧ l.length ≤ maxLabelLength := fun h => by
        rw [checkLabels_eq_ok.2 h] at hc
        cases hc
      simp only [reduceCtorEq, false_iff, not_and]
      exact fun _ hv => hbad hv.1
  | ok u =>
      have hls := checkLabels_eq_ok.1 hc
      by_cases hw : maxWireLength < (⟨ls⟩ : Name).wireLength
      · simp only [hw, if_true, reduceCtorEq, false_iff, not_and]
        exact fun _ hv => absurd hv.2 (Nat.not_le_of_lt hw)
      · simp only [hw, if_false, Except.ok.injEq]
        constructor
        · rintro rfl
          exact ⟨rfl, hls, Nat.le_of_not_lt hw⟩
        · rintro ⟨rfl, -⟩
          rfl

theorem Valid.of_ofLabels {ls : List (List UInt8)} {n : Name} (h : ofLabels ls = .ok n) :
    n.Valid := by
  obtain ⟨rfl, hv⟩ := ofLabels_eq_ok.1 h
  exact hv

theorem Valid.of_parse {text : String} {n : Name} (h : parse text = .ok n) : n.Valid := by
  unfold parse at h
  split at h
  · cases h
    exact valid_root
  · split at h
    · cases h
    · exact Valid.of_ofLabels h

theorem Valid.lowercase {n : Name} (h : n.Valid) : n.lowercase.Valid := by
  obtain ⟨hl, hw⟩ := h
  refine ⟨fun l hm => ?_, ?_⟩
  · obtain ⟨l', hl', rfl⟩ := List.mem_map.1 hm
    simpa [Ascii.lowerBytes] using hl l' hl'
  · simpa [Name.lowercase, wireLength_eq_sum, Ascii.lowerBytes, Function.comp_def] using hw

theorem Valid.toWire {n : Name} (h : n.Valid) :
    n.toWire.length = n.wireLength ∧ n.wireLength ≤ maxWireLength ∧
      ∀ l ∈ n.labels, l.length.toUInt8.toNat = l.length := by
  refine ⟨length_toWire n, h.2, fun l hl => ?_⟩
  have h63 := (h.1 l hl).2
  simp only [maxLabelLength] at h63
  simp only [Nat.toUInt8_eq, UInt8.toNat_ofNat']
  omega

theorem toNat_le_of_and_192 {b : UInt8} (h : b &&& 0xC0 = 0) : b.toNat ≤ maxLabelLength := by
  have key : ∀ k : Nat, k < 256 → k &&& 192 = 0 → k ≤ 63 := by decide +kernel
  have hk : b.toNat &&& 192 = 0 := by simpa [UInt8.toNat_and] using congrArg UInt8.toNat h
  exact key b.toNat b.toNat_lt hk

/-- The scanner keeps its labels valid and its running wire length their sum, which with the
final zero byte stays within 255. -/
theorem valid_of_scanFrom {data : ByteArray} {limit start : Nat} {hlimit : limit ≤ data.size}
    {pos seg : Nat} {resume : Option Nat} {hops wireLen : Nat} {done : Array (List UInt8)}
    {labels : Array (List UInt8)} {next : Nat}
    (h : scanFrom data limit start hlimit pos seg resume hops wireLen done = .ok (labels, next))
    (hdone : ∀ l ∈ done.toList, 0 < l.length ∧ l.length ≤ maxLabelLength)
    (hw : wireLen = (done.toList.map (·.length + 1)).sum) (hw1 : wireLen + 1 ≤ maxWireLength) :
    (⟨labels.toList⟩ : Name).Valid := by
  fun_induction scanFrom data limit start hlimit pos seg resume hops wireLen done
  case case1 =>
    cases h
    refine ⟨hdone, ?_⟩
    simpa [wireLength_eq_sum, ← hw] using hw1
  case case6 ih =>
    exact ih h hdone hw hw1
  case case9 pos seg resume hops wireLen done bound hbound hp byte hne hnc hc len hb total hmax
      label ih =>
    -- a label of `byte` bytes, 1 to 63 since the top bits are clear
    have hlen : label.length = byte.toNat := List.length_ofFn
    have hpos : 0 < byte.toNat := by
      have : byte.toNat ≠ 0 := fun h0 => hne (UInt8.toNat_inj.1 h0)
      omega
    refine ih h (fun l hl => ?_) ?_ (by omega)
    · simp only [Array.toList_push, List.mem_append, List.mem_singleton] at hl
      rcases hl with hl | rfl
      · exact hdone l hl
      · exact ⟨hlen ▸ hpos, hlen ▸ toNat_le_of_and_192 hc⟩
    · simp only [Array.toList_push, List.map_append, List.sum_append, List.map_cons, List.map_nil,
        List.sum_cons, List.sum_nil, hw, hlen, total, len]
      omega
  all_goals cases h

/-- Labels written out in full, with a running total that passes 255 on the way, make the scan
fail. -/
theorem scanFrom_labels_tooLong {data : ByteArray} {limit start : Nat} {hlimit : limit ≤ data.size}
    {seg : Nat} {resume : Option Nat} {hops : Nat} :
    ∀ {ls : List (List UInt8)} {pos wireLen : Nat} {done : Array (List UInt8)},
      (∀ l ∈ ls, 0 < l.length ∧ l.length ≤ maxLabelLength) →
      labelBytes ls <+: data.data.toList.drop pos →
      (resume = none → pos + (labelBytes ls).length ≤ limit) → wireLen + 1 ≤ maxWireLength →
      maxWireLength < wireLen + (ls.map (·.length + 1)).sum + 1 →
      ∃ e, scanFrom data limit start hlimit pos seg resume hops wireLen done = .error e
  | [], _, _, _, _, _, _, hw1, hw => by
      simp only [List.map_nil, List.sum_nil] at hw
      omega
  | l :: ls, pos, wireLen, done, hv, hb, hlim, hw1, hw => by
      rw [labelBytes_cons, List.cons_append, prefix_drop_cons, prefix_drop_append] at hb
      obtain ⟨hl, hpre, hrest⟩ := hb
      have hv' := hv l List.mem_cons_self
      have hlen : (labelBytes (l :: ls)).length = l.length + 1 + (labelBytes ls).length := by
        simp only [length_labelBytes, List.map_cons, List.sum_cons]
      rw [scanFrom_label_ite hl hv'.1 hv'.2 hpre (fun hr => by have := hlim hr; omega)]
      split
      · exact ⟨_, rfl⟩
      · -- the label fits: the rest of the labels pass 255 from the new total on
        rename_i hfit
        simp only [List.map_cons, List.sum_cons] at hw
        exact scanFrom_labels_tooLong (fun l' hl' => hv l' (List.mem_cons_of_mem l hl'))
          (by simpa [Nat.add_assoc, Nat.add_comm, Nat.add_left_comm] using hrest)
          (fun hr => by have := hlim hr; omega) (by omega) (by omega)

theorem Valid.of_readName {r r' : Reader} {n : Name} (h : Reader.readName r = .ok n r') :
    n.Valid := by
  unfold Reader.readName at h
  split at h
  · cases h
  · rename_i labels next hs
    split at h
    · cases h
      exact valid_of_scanFrom hs (by simp) (by simp) (by decide)
    · cases h

theorem readName_ok_iff {ls : List (List UInt8)}
    (hls : ∀ l ∈ ls, 0 < l.length ∧ l.length ≤ maxLabelLength) {r : Reader}
    (ha : r.Ahead (⟨ls⟩ : Name).toWire) :
    (∃ n r', Reader.readName r = .ok n r') ↔ (⟨ls⟩ : Name).wireLength ≤ maxWireLength := by
  constructor
  · rintro ⟨n, r', h⟩
    refine Nat.le_of_not_lt fun hw => ?_
    have hb := ha.1
    rw [toWire_eq, prefix_drop_append] at hb
    obtain ⟨e, he⟩ := @scanFrom_labels_tooLong r.data r.limit r.pos r.limit_le_size r.pos none 0
      ls r.pos 0 #[] hls hb.1
      (fun _ => by have := ha.2; simp [length_toWire, wireLength_eq_sum] at this ⊢; omega) (by decide)
      (by simpa [wireLength_eq_sum, Nat.add_comm] using hw)
    simp [Reader.readName, he] at h
  · intro hw
    obtain ⟨r', h, -⟩ := Reader.reads_readName ⟨hls, hw⟩ r.pos r rfl ha
    exact ⟨_, r', h⟩

theorem ofLabels_ok_iff {ls : List (List UInt8)}
    (hls : ∀ l ∈ ls, 0 < l.length ∧ l.length ≤ maxLabelLength) :
    (∃ n, ofLabels ls = .ok n) ↔ (⟨ls⟩ : Name).wireLength ≤ maxWireLength := by
  constructor
  · rintro ⟨n, h⟩
    exact (ofLabels_eq_ok.1 h).2.2
  · intro hw
    exact ⟨_, ofLabels_eq_ok.2 ⟨rfl, hls, hw⟩⟩

/-- Every way of making a name makes a valid one, and a valid name is written with its wire length
and untruncated length bytes. On labels of 1 to 63 bytes, `ofLabels` and scanning the labels
written out in full both accept exactly when the wire length is at most 255. -/
theorem valid_of_every_constructor :
    root.Valid ∧
    (∀ ls n, ofLabels ls = .ok n → n.Valid) ∧
    (∀ text n, parse text = .ok n → n.Valid) ∧
    (∀ r n r', Reader.readName r = .ok n r' → n.Valid) ∧
    (∀ n : Name, n.Valid → n.lowercase.Valid) ∧
    (∀ n : Name, n.Valid → n.toWire.length = n.wireLength ∧ n.wireLength ≤ maxWireLength ∧
      ∀ l ∈ n.labels, l.length.toUInt8.toNat = l.length) ∧
    ∀ ls : List (List UInt8), (∀ l ∈ ls, 0 < l.length ∧ l.length ≤ maxLabelLength) →
      ((∃ n, ofLabels ls = .ok n) ↔ (⟨ls⟩ : Name).wireLength ≤ maxWireLength) ∧
      ∀ r : Reader, r.Ahead (⟨ls⟩ : Name).toWire →
        ((∃ n r', Reader.readName r = .ok n r') ↔ (⟨ls⟩ : Name).wireLength ≤ maxWireLength) :=
  ⟨valid_root, fun _ _ => Valid.of_ofLabels, fun _ _ => Valid.of_parse,
    fun _ _ _ => Valid.of_readName, fun _ => Valid.lowercase, fun _ => Valid.toWire,
    fun _ hls => ⟨ofLabels_ok_iff hls, fun _ ha => readName_ok_iff hls ha⟩⟩

/-- Three labels of 63 bytes and one of 61 make a name of exactly 255 bytes, which both
constructors accept; one more byte in the last label makes both refuse. -/
theorem valid_of_every_constructor_boundary :
    let labels (k : Nat) : List (List UInt8) :=
      List.replicate 3 (List.replicate 63 120) ++ [List.replicate k 120]
    let reader (k : Nat) : Reader := Reader.new ⟨(⟨labels k⟩ : Name).toWire.toArray⟩
    (∃ n, ofLabels (labels 61) = .ok n ∧ n.Valid) ∧
      (∃ n r', Reader.readName (reader 61) = .ok n r' ∧ n.Valid) ∧
      (¬∃ n, ofLabels (labels 62) = .ok n) ∧ ¬∃ n r', Reader.readName (reader 62) = .ok n r' := by
  intro labels reader
  have hls : ∀ k, 0 < k → k ≤ 63 → ∀ l ∈ labels k, 0 < l.length ∧ l.length ≤ maxLabelLength := by
    intro k hk hk' l hl
    simp only [labels, List.mem_append, List.mem_replicate, List.mem_singleton] at hl
    rcases hl with ⟨_, rfl⟩ | rfl <;> simp only [List.length_replicate, maxLabelLength] <;> omega
  have ha : ∀ k, (reader k).Ahead (⟨labels k⟩ : Name).toWire := fun k =>
    ⟨by simp [reader, Reader.new], by simp [reader, Reader.new, ByteArray.size]⟩
  have h61 : (⟨labels 61⟩ : Name).wireLength ≤ maxWireLength := by decide
  have h62 : ¬(⟨labels 62⟩ : Name).wireLength ≤ maxWireLength := by decide
  obtain ⟨_, hof, _, hread, _, _, hbound⟩ := valid_of_every_constructor
  have hb61 := hbound (labels 61) (hls 61 (by omega) (by omega))
  have hb62 := hbound (labels 62) (hls 62 (by omega) (by omega))
  obtain ⟨n, hn⟩ := hb61.1.2 h61
  obtain ⟨m, r', hm⟩ := (hb61.2 _ (ha 61)).2 h61
  exact ⟨⟨n, hn, hof _ _ hn⟩, ⟨m, r', hm, hread _ _ _ hm⟩, fun h => h62 (hb62.1.1 h),
    fun h => h62 ((hb62.2 _ (ha 62)).1 h)⟩

end Name

end DnsStub
