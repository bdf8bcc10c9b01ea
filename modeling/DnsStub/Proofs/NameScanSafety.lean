import DnsStub.Proofs.NameValidity
import DnsStub.Proofs.RdataRoundTrip
/-!
# Reading a name is safe on any message

The scanner runs on untrusted bytes. Every index it reads carries its bound in the definition,
and the recursion ends because each step moves forward inside a segment or follows a pointer,
of which there are at most 127. What is left to show is where the scan looks, what a success
means and what a failure leaves:

* one segment, the run of labels from an offset to its end, is scanned from the bytes between
  the offset and the bound alone (the limit before the first pointer, then the end of the
  message): two messages that agree there end the segment alike, or follow the same pointer,
  strictly before the segment and within the 127 hops (`scanFrom_segment`);
* a scan that succeeds spells its labels (`spells_of_scanFrom`), so a read succeeds exactly on
  the names the message spells from the position within the limits, and stops after the first
  pointer or else after the zero byte, never past the limit (`readName_eq_ok_iff`);
* a read that fails reports the scan's own fault, one of the five of a name, and leaves the
  reader as it was (`readName_eq_error`).

Main statement: `readName_confined`.
-/
namespace DnsStub

namespace Name

/-- The faults a name scan reports: a read past its bound, a pointer not strictly before its
segment, a pointer past the 127th, a name longer than 255 bytes, and a label byte of unknown
format. -/
inductive ScanFault : WireError → Prop
  | eof (offset needed : Nat) : ScanFault (.unexpectedEof offset needed)
  | pointer (offset target : Nat) : ScanFault (.invalidPointer offset target)
  | hops (offset : Nat) : ScanFault (.tooManyPointers offset)
  | tooLong (len : Nat) : ScanFault (.nameTooLong len)
  | format (offset : Nat) (byte : UInt8) : ScanFault (.unknownLabelFormat offset byte)

section
variable {data : ByteArray} {limit start : Nat} {hlimit : limit ≤ data.size} {pos seg : Nat}
  {resume : Option Nat} {hops wireLen : Nat} {done : Array (List UInt8)}

/-! ### The scan one byte kind at a time, with any bound -/

theorem le_limit_of_le_bound {x : Nat} (h : x ≤ if resume.isNone then limit else data.size) :
    resume = none → x ≤ limit := by
  rintro rfl
  simpa using h

theorem scanFrom_past_bound (h : (if resume.isNone then limit else data.size) ≤ pos) :
    scanFrom data limit start hlimit pos seg resume hops wireLen done =
      .error (.unexpectedEof pos 1) := by
  rw [scanFrom]
  simp only [dif_neg (Nat.not_lt.2 h)]

theorem scanFrom_pointer_cut {hi : UInt8} (hhi : data.data.toList[pos]? = some hi)
    (hc : hi &&& 0xC0 = 0xC0) (hp : pos < if resume.isNone then limit else data.size)
    (h2 : (if resume.isNone then limit else data.size) < pos + 2) :
    scanFrom data limit start hlimit pos seg resume hops wireLen done =
      .error (.unexpectedEof pos 2) := by
  have hne : hi ≠ 0 := by rintro rfl; exact absurd hc (by decide)
  rw [scanFrom]
  simp only [dif_pos hp, get_eq_of_getElem? hhi (lt_size_of_getElem? hhi), if_neg hne, hc,
    if_true, dif_pos h2]

/-- A pointer read whole goes to its target, unless the target lies past the message, not
strictly before the segment, or one hop past the 127th. -/
theorem scanFrom_pointer_ite {hi lo : UInt8} {target : Nat}
    (hhi : data.data.toList[pos]? = some hi) (hc : hi &&& 0xC0 = 0xC0)
    (hlo : data.data.toList[pos + 1]? = some lo) (ht : target = (hi &&& 0x3F).toNat * 256 + lo.toNat)
    (h2 : pos + 2 ≤ if resume.isNone then limit else data.size) :
    scanFrom data limit start hlimit pos seg resume hops wireLen done =
      if data.size ≤ target then .error (.unexpectedEof target 1)
      else if seg ≤ target then .error (.invalidPointer pos target)
      else if 127 < hops + 1 then .error (.tooManyPointers start)
      else scanFrom data limit start hlimit target target (some (resume.getD (pos + 2))) (hops + 1)
        wireLen done := by
  have hne : hi ≠ 0 := by rintro rfl; exact absurd hc (by decide)
  have ht' : (BigEndian.toUInt16 (hi &&& 0x3F) lo).toNat = target := by
    rw [BigEndian.toNat_toUInt16, ht]
  rw [scanFrom]
  simp only [dif_pos (show pos < if resume.isNone then limit else data.size by omega),
    get_eq_of_getElem? hhi (lt_size_of_getElem? hhi), get_eq_of_getElem? hlo (lt_size_of_getElem? hlo),
    if_neg hne, hc, if_true, dif_neg (Nat.not_lt.2 h2), ht', dite_eq_ite]

theorem scanFrom_label_past_bound {b : UInt8} (hb : data.data.toList[pos]? = some b) (h0 : b ≠ 0)
    (hc : b &&& 0xC0 = 0) (hp : pos < if resume.isNone then limit else data.size)
    (hcut : (if resume.isNone then limit else data.size) < pos + 1 + b.toNat) :
    scanFrom data limit start hlimit pos seg resume hops wireLen done =
      .error (.unexpectedEof (pos + 1) b.toNat) := by
  rw [scanFrom]
  simp only [dif_pos hp, get_eq_of_getElem? hb (lt_size_of_getElem? hb), if_neg h0, hc,
    if_neg (by decide : ¬(0 : UInt8) = 0xC0), if_true, dif_pos hcut]

theorem scanFrom_label_byte {b : UInt8} (hb : data.data.toList[pos]? = some b) (h0 : b ≠ 0)
    (hc : b &&& 0xC0 = 0) (hfit : pos + 1 + b.toNat ≤ if resume.isNone then limit else data.size) :
    scanFrom data limit start hlimit pos seg resume hops wireLen done =
      if maxWireLength < wireLen + b.toNat + 1 + 1 then .error (.nameTooLong (wireLen + b.toNat + 1 + 1))
      else scanFrom data limit start hlimit (pos + 1 + b.toNat) seg resume hops (wireLen + b.toNat + 1)
        (done.push ((data.data.toList.drop (pos + 1)).take b.toNat)) := by
  have hsize : pos + 1 + b.toNat ≤ data.size := Nat.le_trans hfit (by split <;> omega)
  set label := (data.data.toList.drop (pos + 1)).take b.toNat
  have hlen : label.length = b.toNat := by
    simp only [label, List.length_take, List.length_drop, Array.length_toList, ByteArray.size_data]
    omega
  have hpos : 0 < b.toNat := Nat.pos_of_ne_zero fun h => h0 (UInt8.toNat_inj.1 h)
  have hb' : data.data.toList[pos]? = some label.length.toUInt8 := by simp [hlen, hb]
  rw [scanFrom_label_ite hb' (by omega) (by rw [hlen]; exact toNat_le_of_and_192 hc)
    (List.take_prefix _ _) (fun hr => by rw [hlen]; exact le_limit_of_le_bound hfit hr), hlen]

theorem scanFrom_unknown {b : UInt8} (hb : data.data.toList[pos]? = some b)
    (hp : pos < if resume.isNone then limit else data.size) (hp' : b &&& 0xC0 ≠ 0xC0)
    (hl : b &&& 0xC0 ≠ 0) :
    scanFrom data limit start hlimit pos seg resume hops wireLen done =
      .error (.unknownLabelFormat pos b) := by
  have h0 : b ≠ 0 := by rintro rfl; exact hl (by decide)
  rw [scanFrom]
  simp only [dif_pos hp, get_eq_of_getElem? hb (lt_size_of_getElem? hb), if_neg h0, if_neg hp',
    if_neg hl]

/-! ### What a successful scan read, and what a failed one reports -/

/-- A scan that succeeds spells its labels from the offset: each label after its length byte and
each pointer strictly before its segment, within 127 hops and 255 bytes; it ends after the
first pointer if it followed one, else after the zero byte, and before the first pointer it
stays within the limit. -/
theorem spells_of_scanFrom {labels : Array (List UInt8)} {next : Nat}
    (h : scanFrom data limit start hlimit pos seg resume hops wireLen done = .ok (labels, next))
    (hh : hops ≤ 127) (hw : wireLen + 1 ≤ maxWireLength) :
    ∃ ls k stop, labels.toList = done.toList ++ ls ∧ Spells data.data.toList seg pos ls k stop ∧
      hops + k ≤ 127 ∧ wireLen + (ls.map (·.length + 1)).sum + 1 ≤ maxWireLength ∧
      next = resume.getD stop ∧ (resume = none → stop ≤ limit) := by
  fun_induction scanFrom data limit start hlimit pos seg resume hops wireLen done
  case case1 pos seg resume hops wireLen done bound hbound hp hpos byte h0 =>
    cases h
    refine ⟨[], 0, pos + 1, by simp, .root ?_, by omega, by simpa using hw, rfl,
      le_limit_of_le_bound hp⟩
    rw [getElem?_toList hpos, ← h0]
  case case6 pos seg resume hops wireLen done bound hbound hp hpos byte h0 hc h2 low target hs
      hseg hh' ih =>
    -- a pointer: the rest is spelled from its target, a new segment
    obtain ⟨ls, k, stop, hls, hsp, hk, hw', hnext, -⟩ := ih h (by omega) hw
    have hlo : data.data.toList[pos + 1]? = some low := getElem?_toList (by omega)
    refine ⟨ls, k + 1, pos + 2, hls, .pointer (getElem?_toList hpos) hc hlo
      (BigEndian.toNat_toUInt16 _ _) (Nat.lt_of_not_le hseg) hsp, by omega, hw',
      by simpa using hnext, le_limit_of_le_bound (Nat.not_lt.1 h2)⟩
  case case9 pos seg resume hops wireLen done bound hbound hp hpos byte h0 hc' hc len hb total
      hmax label ih =>
    -- a label of `byte` bytes, 1 to 63 since its top bits are clear
    have hlen : label.length = len := List.length_ofFn
    have h63 := toNat_le_of_and_192 hc
    have hne : 0 < len := by
      have : byte.toNat ≠ 0 := fun h => h0 (UInt8.toNat_inj.1 h)
      simp only [len]
      omega
    obtain ⟨ls, k, stop, hls, hsp, hk, hw', hnext, hstop⟩ := ih h hh (by omega)
    have hbyte : data.data.toList[pos]? = some label.length.toUInt8 := by
      rw [getElem?_toList hpos, hlen]
      simp [len, byte]
    refine ⟨label :: ls, k, stop, ?_, .label (by omega) (by omega) hbyte
      (ofFn_prefix_drop (by omega)) (by rwa [hlen]), hk, ?_, hnext, hstop⟩
    · simp [hls]
    · simp only [List.map_cons, List.sum_cons, hlen]
      simp only [total] at hw'
      omega
  all_goals cases h

theorem scanFault_of_scanFrom {e : WireError}
    (h : scanFrom data limit start hlimit pos seg resume hops wireLen done = .error e) :
    ScanFault e := by
  fun_induction scanFrom data limit start hlimit pos seg resume hops wireLen done
  case case6 ih => exact ih h
  case case9 ih => exact ih h
  case case1 => cases h
  all_goals cases h; constructor

end

/-! ### One segment -/

theorem take_drop_eq_of_agree {m₁ m₂ : List UInt8} {p n : Nat}
    (h : ∀ i, p ≤ i → i < p + n → m₁[i]? = m₂[i]?) : (m₁.drop p).take n = (m₂.drop p).take n := by
  apply List.ext_getElem?
  intro i
  simp only [List.getElem?_take, List.getElem?_drop]
  split
  · exact h (p + i) (by omega) (by omega)
  · rfl

/-- One segment is scanned from the bytes between its offset and the bound alone: two messages of
one size that agree there give the same outcome, or follow the same pointer at `q`, inside the
bound, to `t` strictly before the segment, as the hop at most 127th, and go on from `t` each over
its own message. -/
theorem scanFrom_segment {d₁ d₂ : ByteArray} {limit start : Nat} {h₁ : limit ≤ d₁.size}
    {h₂ : limit ≤ d₂.size} {seg : Nat} {resume : Option Nat} {hops : Nat} (hsize : d₁.size = d₂.size) :
    ∀ {pos wireLen : Nat} {done : Array (List UInt8)},
      (∀ i, pos ≤ i → i < (if resume.isNone then limit else d₁.size) →
        d₁.data.toList[i]? = d₂.data.toList[i]?) →
      scanFrom d₁ limit start h₁ pos seg resume hops wireLen done =
        scanFrom d₂ limit start h₂ pos seg resume hops wireLen done ∨
      ∃ q t wl done', pos ≤ q ∧ q + 2 ≤ (if resume.isNone then limit else d₁.size) ∧ t < seg ∧
        hops + 1 ≤ 127 ∧
        scanFrom d₁ limit start h₁ pos seg resume hops wireLen done =
          scanFrom d₁ limit start h₁ t t (some (resume.getD (q + 2))) (hops + 1) wl done' ∧
        scanFrom d₂ limit start h₂ pos seg resume hops wireLen done =
          scanFrom d₂ limit start h₂ t t (some (resume.getD (q + 2))) (hops + 1) wl done' := by
  intro pos wireLen done hagree
  -- the bound is the same for both messages; the induction is on the bytes left before it
  set B := if resume.isNone then limit else d₁.size with hB
  have hB₂ : (if resume.isNone then limit else d₂.size) = B := by rw [hB, hsize]
  have hBsize : B ≤ d₁.size := by rw [hB]; split <;> omega
  obtain ⟨n, hn⟩ : ∃ n, n = B - pos := ⟨_, rfl⟩
  induction n using Nat.strong_induction_on generalizing pos wireLen done with
  | _ n ih =>
  by_cases hp : pos < B
  swap
  · left
    rw [scanFrom_past_bound (Nat.not_lt.1 hp), scanFrom_past_bound (by rw [hB₂]; omega)]
  have hb₁ : d₁.data.toList[pos]? = some d₁[pos] := getElem?_toList (by omega)
  have hb₂ : d₂.data.toList[pos]? = some d₁[pos] := (hagree pos le_rfl hp).symm.trans hb₁
  have hp₂ : pos < if resume.isNone then limit else d₂.size := by rw [hB₂]; exact hp
  by_cases h0 : d₁[pos] = 0
  · left
    rw [scanFrom_zero (h0 ▸ hb₁) (le_limit_of_le_bound hp),
      scanFrom_zero (h0 ▸ hb₂) (le_limit_of_le_bound hp₂)]
  by_cases hc : d₁[pos] &&& 0xC0 = 0xC0
  · -- a pointer
    by_cases h2 : B < pos + 2
    · left
      rw [scanFrom_pointer_cut hb₁ hc hp h2, scanFrom_pointer_cut hb₂ hc hp₂ (by rw [hB₂]; exact h2)]
    have hlo₁ : d₁.data.toList[pos + 1]? = some d₁[pos + 1] := getElem?_toList (by omega)
    have hlo₂ : d₂.data.toList[pos + 1]? = some d₁[pos + 1] :=
      (hagree (pos + 1) (by omega) (by omega)).symm.trans hlo₁
    rw [scanFrom_pointer_ite hb₁ hc hlo₁ rfl (by omega),
      scanFrom_pointer_ite hb₂ hc hlo₂ rfl (by rw [hB₂]; omega), ← hsize]
    split_ifs with hs hseg hh
    · exact .inl rfl
    · exact .inl rfl
    · exact .inl rfl
    · exact .inr ⟨pos, _, wireLen, done, le_rfl, by omega, by omega, by omega, rfl, rfl⟩
  by_cases hl : d₁[pos] &&& 0xC0 = 0
  · -- a label
    by_cases hcut : B < pos + 1 + d₁[pos].toNat
    · left
      rw [scanFrom_label_past_bound hb₁ h0 hl hp hcut,
        scanFrom_label_past_bound hb₂ h0 hl hp₂ (by rw [hB₂]; exact hcut)]
    rw [scanFrom_label_byte hb₁ h0 hl (by omega), scanFrom_label_byte hb₂ h0 hl (by rw [hB₂]; omega),
      take_drop_eq_of_agree fun i hi hi' => hagree i (by omega) (by omega)]
    split_ifs with hw
    · exact .inl rfl
    · -- the rest of the segment, past the label
      rcases ih (B - (pos + 1 + d₁[pos].toNat)) (by omega)
          (fun i hi hi' => hagree i (by omega) hi') rfl with h | ⟨q, t, wl, done', hq, hrest⟩
      · exact .inl h
      · exact .inr ⟨q, t, wl, done', by omega, hrest⟩
  · left
    rw [scanFrom_unknown hb₁ hp hc hl, scanFrom_unknown hb₂ hp₂ hc hl]

end Name

namespace Reader

open Name

/-- A failed read of a name reports the scan's own fault, never one of the final move, and
leaves the reader as it was. -/
theorem readName_eq_error {r r' : Reader} {e : WireError} (h : readName r = .error e r') :
    r' = r ∧ scanFrom r.data r.limit r.pos r.limit_le_size r.pos r.pos none 0 0 #[] = .error e := by
  unfold readName at h
  split at h
  · rename_i e' hs
    cases h
    exact ⟨rfl, hs⟩
  · rename_i labels next hs
    -- the scan stopped within the limit, so the move there cannot fail
    obtain ⟨-, -, stop, -, -, -, -, hnext, hstop⟩ := spells_of_scanFrom hs (by decide) (by decide)
    have hle : next ≤ r.limit := by
      rw [hnext]
      exact hstop rfl
    split at h
    · cases h
    · rename_i hseek
      simp [seek, hle] at hseek

/-- A read of a name succeeds exactly on the names the message spells from the position, within
127 hops, the limit and 255 bytes; it stops after the first pointer, or else after the zero
byte, and keeps the message and the limit. -/
theorem readName_eq_ok_iff {r r' : Reader} {n : Name} :
    readName r = .ok n r' ↔ ∃ hops stop, Spells r.data.data.toList r.pos r.pos n.labels hops stop ∧
      hops ≤ 127 ∧ stop ≤ r.limit ∧ n.wireLength ≤ maxWireLength ∧
      r'.data = r.data ∧ r'.limit = r.limit ∧ r'.pos = stop := by
  constructor
  · intro h
    unfold readName at h
    split at h
    · cases h
    · rename_i labels next hs
      obtain ⟨ls, k, stop, hls, hsp, hk, hw, hnext, hstop⟩ :=
        spells_of_scanFrom hs (by decide) (by decide)
      have hle : stop ≤ r.limit := hstop rfl
      simp only [Option.getD_none] at hnext
      simp only [seek, hnext, dif_pos hle] at h
      cases h
      refine ⟨k, stop, by simpa [hls] using hsp, by omega, hle, ?_, rfl, rfl, rfl⟩
      rw [wireLength_eq_sum]
      simpa [hls] using hw
  · rintro ⟨hops, stop, hsp, hh, hle, hw, hd, hl, hp⟩
    obtain ⟨r'', h, hd', hl', hp'⟩ :=
      readName_of_spells hsp hle hh (by rwa [wireLength_eq_sum] at hw)
    obtain ⟨d, p, l, _, _⟩ := r'
    obtain ⟨d'', p'', l'', _, _⟩ := r''
    simp only at hd hl hp hd' hl' hp'
    subst hd hl hp hd' hl' hp'
    exact h

/-- Reading a name is safe and confined on any message. A segment is scanned from the bytes
between its offset and the bound alone: two messages of one size that agree there end it alike,
or follow the same pointer, strictly before the segment and at most the 127th, and go on from its
target. A read succeeds exactly on the names the message spells within the limits, and stops
after the first pointer or else after the zero byte, never past the limit. A read that fails
reports the scan's fault, one of the five of a name, and leaves the reader as it was. -/
theorem readName_confined :
    (∀ (d₁ d₂ : ByteArray) (limit start : Nat) (h₁ : limit ≤ d₁.size) (h₂ : limit ≤ d₂.size)
        (pos seg : Nat) (resume : Option Nat) (hops wireLen : Nat) (done : Array (List UInt8)),
      d₁.size = d₂.size →
      (∀ i, pos ≤ i → i < (if resume.isNone then limit else d₁.size) →
        d₁.data.toList[i]? = d₂.data.toList[i]?) →
      scanFrom d₁ limit start h₁ pos seg resume hops wireLen done =
        scanFrom d₂ limit start h₂ pos seg resume hops wireLen done ∨
      ∃ q t wl done', pos ≤ q ∧ q + 2 ≤ (if resume.isNone then limit else d₁.size) ∧ t < seg ∧
        hops + 1 ≤ 127 ∧
        scanFrom d₁ limit start h₁ pos seg resume hops wireLen done =
          scanFrom d₁ limit start h₁ t t (some (resume.getD (q + 2))) (hops + 1) wl done' ∧
        scanFrom d₂ limit start h₂ pos seg resume hops wireLen done =
          scanFrom d₂ limit start h₂ t t (some (resume.getD (q + 2))) (hops + 1) wl done') ∧
    (∀ (r r' : Reader) (n : Name), readName r = .ok n r' ↔
      ∃ hops stop, Spells r.data.data.toList r.pos r.pos n.labels hops stop ∧
        hops ≤ 127 ∧ stop ≤ r.limit ∧ n.wireLength ≤ maxWireLength ∧
        r'.data = r.data ∧ r'.limit = r.limit ∧ r'.pos = stop) ∧
    ∀ (r r' : Reader) (e : WireError), readName r = .error e r' →
      r' = r ∧ scanFrom r.data r.limit r.pos r.limit_le_size r.pos r.pos none 0 0 #[] = .error e ∧
        ScanFault e := by
  refine ⟨fun _ _ _ _ _ _ _ _ _ _ _ _ hsize hagree => scanFrom_segment hsize hagree,
    fun _ _ _ => readName_eq_ok_iff, fun r r' e h => ?_⟩
  obtain ⟨hr, hs⟩ := readName_eq_error h
  exact ⟨hr, hs, scanFault_of_scanFrom hs⟩

/-- "www" and a pointer to offset 0, at offset 13 with the limit right after the pointer, in two
messages that spell "example.com" and "oranges.com" before it and differ past the limit too:
the segment is scanned alike in both, up to the pointer at 17 to offset 0. -/
theorem readName_confined_pointer :
    let d₁ : ByteArray := ⟨#[7, 101, 120, 97, 109, 112, 108, 101, 3, 99, 111, 109, 0,
      3, 119, 119, 119, 0xC0, 0, 0xFF]⟩
    let d₂ : ByteArray := ⟨#[7, 111, 114, 97, 110, 103, 101, 115, 3, 99, 111, 109, 0,
      3, 119, 119, 119, 0xC0, 0, 0]⟩
    let h₁ : 19 ≤ d₁.size := by decide
    let h₂ : 19 ≤ d₂.size := by decide
    d₁.size = d₂.size ∧ (∀ i, 13 ≤ i → i < 19 → d₁.data.toList[i]? = d₂.data.toList[i]?) ∧
      (scanFrom d₁ 19 13 h₁ 13 13 none 0 0 #[] = scanFrom d₂ 19 13 h₂ 13 13 none 0 0 #[] ∨
        ∃ q t wl done', 13 ≤ q ∧ q + 2 ≤ 19 ∧ t < 13 ∧ 1 ≤ 127 ∧
          scanFrom d₁ 19 13 h₁ 13 13 none 0 0 #[] = scanFrom d₁ 19 13 h₁ t t (some (q + 2)) 1 wl done' ∧
          scanFrom d₂ 19 13 h₂ 13 13 none 0 0 #[] = scanFrom d₂ 19 13 h₂ t t (some (q + 2)) 1 wl done') := by
  intro d₁ d₂ h₁ h₂
  have hsize : d₁.size = d₂.size := by decide
  have hagree : ∀ i, 13 ≤ i → i < 19 → d₁.data.toList[i]? = d₂.data.toList[i]? := by
    intro i hi hi'
    interval_cases i <;> rfl
  exact ⟨hsize, hagree, readName_confined.1 d₁ d₂ 19 13 h₁ h₂ 13 13 none 0 0 #[] hsize hagree⟩

end Reader

end DnsStub
