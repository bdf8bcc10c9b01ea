import DnsStub.Proofs.HeaderCodec
import DnsStub.Proofs.RdataRoundTrip
/-!
# Header bytes and header fields

Every bit of the flag word but one belongs to a field of the header: QR, the four opcode bits,
AA, TC, RD, RA, AD, CD and the four response code bits. The one left is the reserved Z bit. So
reading the twelve header bytes of any message and writing the header again gives them back
with the Z bit cleared, and a header whose opcode and response code fit their four bits reads
back from its own bytes.

The edits a builder makes to a message buffer each change one field of the header as it reads
and keep everything else: the Z bit and the bytes after the header (`Keeps`). Together these
determine the buffer (`eq_of_keeps`). A count that is already 65535 is not incremented.

Main statements: `toBytes_parse`, `parse_toBytes_self`, `parse_setTruncated`,
`parse_setResponseCode`, `incCount_eq_error_iff` and `parse_incCount`.
-/
namespace DnsStub
namespace Header
open BigEndian

/-! ### Bits of the flag word -/

theorem or_and_distrib (a b c : UInt16) : (a ||| b) &&& c = (a &&& c) ||| (b &&& c) :=
  UInt16.toBitVec_inj.1 (by simp [BitVec.and_or_distrib_right])

theorem or_and_of_and_eq_zero (w : UInt16) {t m : UInt16} (h : t &&& m = 0) :
    (w ||| t) &&& m = w &&& m := by
  rw [or_and_distrib, h, UInt16.or_zero]

theorem and_eq_ite (w : UInt16) {f : UInt16} {k : Nat} (hf : f.toBitVec = BitVec.twoPow 16 k) :
    w &&& f = if w.toBitVec.getLsbD k then f else 0 := by
  apply UInt16.toBitVec_inj.1
  rw [UInt16.toBitVec_and, hf, BitVec.and_twoPow]
  split <;> simp [hf]

theorem ite_and_ne_zero (w : UInt16) {f : UInt16} {k : Nat} (hf : f.toBitVec = BitVec.twoPow 16 k)
    (hf0 : f ≠ 0) : (if (w &&& f != 0) = true then f else 0) = w &&& f := by
  rw [and_eq_ite w hf]
  split <;> simp [hf0]

theorem flags_parse {d : ByteArray} {h : Header} (hp : parse d = .ok h) :
    h.flags = getUInt16 d 2 &&& ~~~0x0040 := by
  unfold parse at hp
  split at hp
  · cases hp
  · cases hp
    generalize getUInt16 d 2 = w
    simp only [flags, ResponseCode.wireValue, ResponseCode.toWire?, Option.getD_some]
    have hq : (if (!(w &&& flagQuery == 0)) = true then flagQuery else 0) = w &&& flagQuery :=
      ite_and_ne_zero w (k := 15) (by decide) (by decide)
    rw [hq, ite_and_ne_zero w (k := 10) (by decide) (by decide),
      ite_and_ne_zero w (k := 9) (by decide) (by decide),
      ite_and_ne_zero w (k := 8) (by decide) (by decide),
      ite_and_ne_zero w (k := 7) (by decide) (by decide),
      ite_and_ne_zero w (k := 5) (by decide) (by decide),
      ite_and_ne_zero w (k := 4) (by decide) (by decide)]
    -- the masks cover every bit but the Z bit
    apply UInt16.toBitVec_inj.1
    apply BitVec.eq_of_getLsbD_eq
    intro i hi
    simp [flagQuery, flagAuthoritative, flagTruncated, flagRecursionDesired, flagRecursionAvailable,
      flagAuthenticatedData, flagCheckingDisabled]
    interval_cases i <;> simp

theorem toUInt16_and_z (hi lo : UInt8) :
    toUInt16 hi lo &&& ~~~0x0040 = toUInt16 hi (lo &&& ~~~0x40) := by
  apply UInt16.toBitVec_inj.1
  apply BitVec.eq_of_getLsbD_eq
  intro i hi
  simp [toUInt16]
  interval_cases i <;> simp

/-! ### Reading a header and writing it again -/

theorem byteAt_eq_getElem (d : ByteArray) {i : Nat} (hi : i < d.data.toList.length) :
    byteAt d i = d.data.toList[i] := by
  rw [byteAt_eq, List.getD_eq_getElem _ _ hi]

theorem take_twelve {d : ByteArray} (hd : size ≤ d.size) :
    d.data.toList.take 12 = [byteAt d 0, byteAt d 1, byteAt d 2, byteAt d 3, byteAt d 4,
      byteAt d 5, byteAt d 6, byteAt d 7, byteAt d 8, byteAt d 9, byteAt d 10, byteAt d 11] := by
  have hlen : 12 ≤ d.data.toList.length := by simpa [size] using hd
  apply List.ext_getElem (by simp only [List.length_take, List.length_cons, List.length_nil]; omega)
  intro i _ h₂
  have hi : i < 12 := by simpa using h₂
  rw [List.getElem_take, ← byteAt_eq_getElem d (by omega)]
  interval_cases i <;> rfl

/-- Reading a header and writing it again gives back the first twelve bytes of the message,
with the Z bit cleared. -/
theorem toBytes_parse {d : ByteArray} (hd : size ≤ d.size) :
    ∃ h, parse d = .ok h ∧
      h.toBytes = (d.data.toList.take 12).set 3 (byteAt d 3 &&& ~~~0x40) := by
  have hp : ¬d.size < size := Nat.not_lt.2 hd
  obtain ⟨h, hh⟩ : ∃ h, parse d = .ok h := by
    unfold parse
    rw [if_neg hp]
    exact ⟨_, rfl⟩
  refine ⟨h, hh, ?_⟩
  have hflags := flags_parse hh
  unfold parse at hh
  rw [if_neg hp] at hh
  cases hh
  rw [take_twelve hd, toBytes, hflags]
  simp [getUInt16, toUInt16_and_z]

/-- A response header with the Z bit set comes back with it cleared. -/
example : (parse ⟨#[0x06, 0x25, 0x81, 0xC3, 0, 1, 0, 2, 0, 3, 0, 4]⟩).map toBytes =
    .ok [0x06, 0x25, 0x81, 0x83, 0, 1, 0, 2, 0, 3, 0, 4] := by
  decide

theorem parse_toBytes_self {h : Header} (hf : h.Fits) : parse h.toBytes.toByteArray = .ok h := by
  simpa using parse_toBytes hf []

/-! ### What the buffer edits keep -/

/-- The second buffer has the size, the Z bit and the bytes after the header of the first. -/
structure Keeps (buf buf' : ByteArray) : Prop where
  size_eq : buf'.size = buf.size
  z_eq : byteAt buf' 3 &&& 0x40 = byteAt buf 3 &&& 0x40
  body_eq : buf'.data.toList.drop 12 = buf.data.toList.drop 12

/-- A message is determined by its header, its Z bit and the bytes after the header. -/
theorem eq_of_keeps {buf buf' : ByteArray} (hb : size ≤ buf.size) (hp : parse buf' = parse buf)
    (hk : Keeps buf buf') : buf' = buf := by
  obtain ⟨h, hh, e⟩ := toBytes_parse hb
  obtain ⟨h', hh', e'⟩ := toBytes_parse (hk.size_eq ▸ hb)
  rw [hp, hh] at hh'
  cases hh'
  -- the Z bit is the one bit of byte three that the header does not give back
  have hz : byteAt buf' 3 = byteAt buf 3 := by
    have h3 := congrArg (·[3]?) (e.symm.trans e')
    simp only [take_twelve hb, take_twelve (hk.size_eq ▸ hb)] at h3
    simp only [List.set_cons_succ, List.set_cons_zero, List.getElem?_cons_succ,
      List.getElem?_cons_zero, Option.some.injEq] at h3
    apply UInt8.toBitVec_inj.1
    apply BitVec.eq_of_getLsbD_eq
    intro i hi
    have hzb := congrArg (fun b : UInt8 => b.toBitVec.getLsbD i) hk.z_eq
    have hlo := congrArg (fun b : UInt8 => b.toBitVec.getLsbD i) h3
    simp at hzb hlo
    interval_cases i <;> simp_all
  have htake : buf'.data.toList.take 12 = buf.data.toList.take 12 := by
    have e'' := e.symm.trans e'
    rw [take_twelve hb, take_twelve (hk.size_eq ▸ hb)] at e'' ⊢
    simp only [List.set_cons_succ, List.set_cons_zero, List.cons.injEq] at e''
    simp [e'', hz]
  apply ByteArray.ext
  apply Array.ext'
  rw [← List.take_append_drop 12 buf'.data.toList, ← List.take_append_drop 12 buf.data.toList,
    htake, hk.body_eq]

/-! ### Bytes and words of an edited buffer -/

theorem byteAt_setByte_self (buf : ByteArray) {i : Nat} (b : UInt8) (hi : i < buf.size) :
    byteAt (setByte buf i b) i = b := by
  simp [byteAt_eq, toList_setByte, List.getD_eq_getElem?_getD, hi]

theorem byteAt_setByte_of_ne (buf : ByteArray) {i j : Nat} (b : UInt8) (h : j ≠ i) :
    byteAt (setByte buf i b) j = byteAt buf j := by
  simp [byteAt_eq, toList_setByte, List.getD_eq_getElem?_getD, List.getElem?_set_ne (Ne.symm h)]

theorem getUInt16_setByte_of_ne (buf : ByteArray) {i k : Nat} (b : UInt8) (h₁ : i ≠ k)
    (h₂ : i ≠ k + 1) : getUInt16 (setByte buf i b) k = getUInt16 buf k := by
  simp only [getUInt16, byteAt_setByte_of_ne buf b (Ne.symm h₁), byteAt_setByte_of_ne buf b (Ne.symm h₂)]

theorem setByte_of_size_le (buf : ByteArray) {i : Nat} (b : UInt8) (h : buf.size ≤ i) :
    setByte buf i b = buf := by
  apply ByteArray.ext
  simp [setByte, ByteArray.set!, Array.setIfInBounds, Nat.not_lt.2 h]

/-- A byte of the header written over keeps everything `Keeps` asks for, when it keeps the Z bit
of byte three. -/
theorem keeps_setByte (buf : ByteArray) {i : Nat} (b : UInt8) (hi : i < 12)
    (hz : i = 3 → b &&& 0x40 = byteAt buf 3 &&& 0x40) : Keeps buf (setByte buf i b) where
  size_eq := size_setByte buf i b
  z_eq := by
    by_cases h3 : i = 3
    · subst h3
      by_cases hs : 3 < buf.size
      · rw [byteAt_setByte_self buf b hs, hz rfl]
      · rw [setByte_of_size_le buf b (by omega)]
    · rw [byteAt_setByte_of_ne buf b (Ne.symm h3)]
  body_eq := by rw [toList_setByte, List.drop_set_of_lt hi]

theorem toUInt16_or_truncated (hi lo : UInt8) :
    toUInt16 (hi ||| 0x02) lo = toUInt16 hi lo ||| flagTruncated := by
  apply UInt16.toBitVec_inj.1
  apply BitVec.eq_of_getLsbD_eq
  intro i hi
  simp [toUInt16, flagTruncated]
  interval_cases i <;> simp

theorem toUInt16_responseCode (hi lo v : UInt8) :
    toUInt16 hi ((lo &&& 0xF0) ||| v) = (toUInt16 hi lo &&& 0xFFF0) ||| v.toUInt16 := by
  apply UInt16.toBitVec_inj.1
  apply BitVec.eq_of_getLsbD_eq
  intro i hi
  simp [toUInt16]
  interval_cases i <;> simp

theorem low_bits_and (w c : UInt16) {m : UInt16} (h₁ : 0xFFF0 &&& m = m) (h₂ : 0x000F &&& m = 0) :
    ((w &&& 0xFFF0) ||| (c &&& 0x000F)) &&& m = w &&& m := by
  rw [or_and_distrib, UInt16.and_assoc, UInt16.and_assoc, h₁, h₂, UInt16.and_zero, UInt16.or_zero]

theorem low_bits_and_fifteen (w c : UInt16) :
    ((w &&& 0xFFF0) ||| (c &&& 0x000F)) &&& 0x000F = c &&& 0x000F := by
  rw [or_and_distrib, UInt16.and_assoc, UInt16.and_assoc, show (0xFFF0 : UInt16) &&& 0x000F = 0 by decide,
    UInt16.and_zero, UInt16.zero_or, UInt16.and_self]

theorem toUInt16_toUInt8_and_fifteen (c : UInt16) : (c &&& 0x000F).toUInt8.toUInt16 = c &&& 0x000F := by
  have h : c.toNat &&& 15 ≤ 15 := Nat.and_le_right
  apply UInt16.toNat_inj.1
  simp only [UInt8.toNat_toUInt16, UInt16.toNat_toUInt8, UInt16.toNat_and]
  simp only [UInt16.reduceToNat]
  omega

/-! ### The edits, field by field -/

theorem keeps_setTruncated (buf : ByteArray) : Keeps buf (setTruncated buf) :=
  keeps_setByte buf _ (by decide) (fun h => absurd h (by decide))

theorem keeps_setResponseCode (buf : ByteArray) (code : ResponseCode) :
    Keeps buf (setResponseCode buf code) := by
  refine keeps_setByte buf _ (by decide) fun _ => ?_
  -- the new low four bits leave the Z bit as it was
  apply UInt8.toBitVec_inj.1
  apply BitVec.eq_of_getLsbD_eq
  intro i hi
  simp
  interval_cases i <;> simp

theorem parse_setTruncated {buf : ByteArray} (hb : size ≤ buf.size) :
    parse (setTruncated buf) = (fun h => { h with truncated := true }) <$> parse buf := by
  have hw : getUInt16 (setTruncated buf) 2 = getUInt16 buf 2 ||| flagTruncated := by
    simp only [setTruncated, getUInt16, byteAt_setByte_self buf _ (show 2 < buf.size by
      simp only [size] at hb; omega), byteAt_setByte_of_ne buf _ (show 2 + 1 ≠ 2 by decide),
      toUInt16_or_truncated]
  have hk : ∀ k, k ≠ 1 → k ≠ 2 → getUInt16 (setTruncated buf) k = getUInt16 buf k :=
    fun k h₁ h₂ => getUInt16_setByte_of_ne buf _ (Ne.symm h₂) (by omega)
  have hp : ¬buf.size < size := Nat.not_lt.2 hb
  have hp' : ¬(setTruncated buf).size < size := by rwa [size_setTruncated]
  unfold parse
  rw [if_neg hp, if_neg hp']
  simp only [hw, hk 0 (by decide) (by decide), hk 4 (by decide) (by decide),
    hk 6 (by decide) (by decide), hk 8 (by decide) (by decide), hk 10 (by decide) (by decide)]
  -- the TC bit lies outside every other field's mask
  simp (disch := decide) only [flagQuery, flagAuthoritative, flagTruncated, flagRecursionDesired,
    flagRecursionAvailable, flagAuthenticatedData, flagCheckingDisabled, or_and_of_and_eq_zero]
  simp [or_and_distrib]

theorem parse_setResponseCode {buf : ByteArray} (hb : size ≤ buf.size) (code : ResponseCode) :
    parse (setResponseCode buf code) =
      (fun h => { h with responseCode := .wire (code.wireValue &&& 0x000F) }) <$> parse buf := by
  have hw : getUInt16 (setResponseCode buf code) 2 =
      (getUInt16 buf 2 &&& 0xFFF0) ||| (code.wireValue &&& 0x000F) := by
    simp only [setResponseCode, getUInt16, byteAt_setByte_self buf _ (show 3 < buf.size by
      simp only [size] at hb; omega), byteAt_setByte_of_ne buf _ (show 2 ≠ 3 by decide),
      toUInt16_responseCode, toUInt16_toUInt8_and_fifteen]
  have hk : ∀ k, k ≠ 2 → k ≠ 3 → getUInt16 (setResponseCode buf code) k = getUInt16 buf k :=
    fun k h₁ h₂ => getUInt16_setByte_of_ne buf _ (Ne.symm h₂) (by omega)
  have hp : ¬buf.size < size := Nat.not_lt.2 hb
  have hp' : ¬(setResponseCode buf code).size < size := by rwa [size_setResponseCode]
  unfold parse
  rw [if_neg hp, if_neg hp']
  simp only [hw, hk 0 (by decide) (by decide), hk 4 (by decide) (by decide),
    hk 6 (by decide) (by decide), hk 8 (by decide) (by decide), hk 10 (by decide) (by decide)]
  -- the low four bits lie outside every other field's mask
  simp (disch := decide) only [flagQuery, flagAuthoritative, flagTruncated, flagRecursionDesired,
    flagRecursionAvailable, flagAuthenticatedData, flagCheckingDisabled, low_bits_and,
    low_bits_and_fifteen]
  simp

theorem getUInt16_setUInt16_self (buf : ByteArray) {off : Nat} (v : UInt16) (h : off + 1 < buf.size) :
    getUInt16 (setUInt16 buf off v) off = v := by
  rw [setUInt16, getUInt16, byteAt_setByte_of_ne _ _ (show off ≠ off + 1 by omega),
    byteAt_setByte_self _ _ (show off < buf.size by omega),
    byteAt_setByte_self _ _ (by rw [size_setByte]; omega), toUInt16_ofUInt16]

theorem getUInt16_setUInt16_of_disjoint (buf : ByteArray) {off k : Nat} (v : UInt16)
    (h : off + 1 < k ∨ k + 1 < off) : getUInt16 (setUInt16 buf off v) k = getUInt16 buf k := by
  rw [setUInt16, getUInt16_setByte_of_ne _ _ (by omega) (by omega),
    getUInt16_setByte_of_ne _ _ (by omega) (by omega)]

theorem Keeps.trans {buf buf' buf'' : ByteArray} (h : Keeps buf buf') (h' : Keeps buf' buf'') :
    Keeps buf buf'' :=
  ⟨h'.size_eq.trans h.size_eq, h'.z_eq.trans h.z_eq, h'.body_eq.trans h.body_eq⟩

theorem keeps_setCount (buf : ByteArray) (sec : Section) (n : UInt16) :
    Keeps buf (setCount buf sec n) := by
  have hoff : 4 ≤ countOffset sec ∧ countOffset sec ≤ 10 := by cases sec <;> decide
  exact (keeps_setByte _ _ (by omega) fun h => by omega).trans
    (keeps_setByte _ _ (by omega) fun h => by omega)

theorem parse_setCount {buf : ByteArray} (hb : size ≤ buf.size) (sec : Section) (n : UInt16) :
    parse (setCount buf sec n) = (·.withCount sec n) <$> parse buf := by
  have hp : ¬buf.size < size := Nat.not_lt.2 hb
  have hp' : ¬(setCount buf sec n).size < size := by rwa [size_setCount]
  have h12 : 12 ≤ buf.size := hb
  have heven : countOffset sec % 2 = 0 ∧ countOffset sec ≤ 10 := by cases sec <;> decide
  have hself : getUInt16 (setCount buf sec n) (countOffset sec) = n :=
    getUInt16_setUInt16_self _ _ (by omega)
  have hother : ∀ k, k % 2 = 0 → k ≠ countOffset sec →
      getUInt16 (setCount buf sec n) k = getUInt16 buf k :=
    fun k hk hne => getUInt16_setUInt16_of_disjoint _ _ (by omega)
  unfold parse
  rw [if_neg hp, if_neg hp']
  cases sec <;> simp only [countOffset] at hself <;> simp (disch := decide) only [hself, hother] <;> rfl

theorem incCount_eq_error_iff (buf : ByteArray) (sec : Section) :
    incCount buf sec = .error (.sectionOverflow sec) ↔ count buf sec = 0xFFFF := by
  unfold incCount nextCount?
  by_cases h : count buf sec = 0xFFFF <;> simp [h]

theorem eq_sectionOverflow_of_incCount {buf : ByteArray} {sec : Section} {e : WireError}
    (h : incCount buf sec = .error e) : e = .sectionOverflow sec := by
  unfold incCount nextCount? at h
  split at h <;> simp_all

theorem parse_incCount {buf buf' : ByteArray} (hb : size ≤ buf.size) {sec : Section} {n : UInt16}
    (h : incCount buf sec = .ok (buf', n)) :
    count buf sec ≠ 0xFFFF ∧ n = count buf sec + 1 ∧
      parse buf' = (·.withCount sec n) <$> parse buf ∧ Keeps buf buf' := by
  by_cases hfull : count buf sec = 0xFFFF
  · simp [incCount, nextCount?, hfull] at h
  · simp only [incCount, nextCount?, if_neg hfull, Except.ok.injEq, Prod.mk.injEq] at h
    obtain ⟨rfl, rfl⟩ := h
    exact ⟨hfull, rfl, parse_setCount hb sec _, keeps_setCount buf sec _⟩

/-- The header codec: reading and writing a header give back the first twelve bytes of a message
but its Z bit, and a header whose opcode and response code fit four bits each from its own
bytes. Each buffer edit changes its own field of the header and keeps the rest of the message;
counting one more entry fails exactly when the count is 65535. -/
theorem header_codec_roundTrip :
    (∀ d : ByteArray, size ≤ d.size → ∃ h, parse d = .ok h ∧
      h.toBytes = (d.data.toList.take 12).set 3 (byteAt d 3 &&& ~~~0x40)) ∧
    (∀ h : Header, (∃ v < 16, h.opcode = ⟨v⟩) → (∃ w < 16, h.responseCode = .wire w) →
      parse h.toBytes.toByteArray = .ok h) ∧
    ∀ buf : ByteArray, size ≤ buf.size →
      (parse (setTruncated buf) = (fun h => { h with truncated := true }) <$> parse buf ∧
        Keeps buf (setTruncated buf)) ∧
      (∀ code, parse (setResponseCode buf code) =
          (fun h => { h with responseCode := .wire (code.wireValue &&& 0x000F) }) <$> parse buf ∧
        Keeps buf (setResponseCode buf code)) ∧
      ∀ sec, (incCount buf sec = .error (.sectionOverflow sec) ↔ count buf sec = 0xFFFF) ∧
        (∀ e, incCount buf sec = .error e → e = .sectionOverflow sec) ∧
        ∀ buf' n, incCount buf sec = .ok (buf', n) → n = count buf sec + 1 ∧
          parse buf' = (·.withCount sec n) <$> parse buf ∧ Keeps buf buf' := by
  refine ⟨fun d hd => toBytes_parse hd, ?_, ?_⟩
  · rintro h ⟨v, hv, hop⟩ ⟨w, hw, hrc⟩
    exact parse_toBytes_self ⟨by rw [hop]; exact hv, w, hw, hrc⟩
  · intro buf hb
    refine ⟨⟨parse_setTruncated hb, keeps_setTruncated buf⟩,
      fun code => ⟨parse_setResponseCode hb code, keeps_setResponseCode buf code⟩, fun sec => ?_⟩
    refine ⟨incCount_eq_error_iff buf sec, fun _ => eq_sectionOverflow_of_incCount, ?_⟩
    intro buf' n h
    obtain ⟨-, hn, hp, hk⟩ := parse_incCount hb h
    exact ⟨hn, hp, hk⟩

/-- A response header with its Z bit set reads, and is written back with that bit cleared. -/
theorem header_codec_roundTrip_zBit :
    let d : ByteArray := ⟨#[0x06, 0x25, 0x81, 0xC3, 0, 1, 0, 2, 0, 3, 0, 4]⟩
    size ≤ d.size ∧ ∃ h, parse d = .ok h ∧
      h.toBytes = (d.data.toList.take 12).set 3 (byteAt d 3 &&& ~~~0x40) := by
  intro d
  have hd : size ≤ d.size := by decide
  exact ⟨hd, header_codec_roundTrip.1 d hd⟩

end Header
end DnsStub
