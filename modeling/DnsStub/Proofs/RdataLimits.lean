import DnsStub.Proofs.RdataLocality
import DnsStub.Proofs.ReaderAtomicity
import DnsStub.Message.Response
/-!
# Reading RDATA gives the caller its limit back

The factory confines a parser to the declared RDATA by moving the reader's limit to its end, and
moves the limit back afterwards. Both moves can fail in the definition; neither does. The first
is made only once the declared length fits before the limit. The second needs the reader the
parser leaves to lie before the old limit, and every built-in parser keeps the message and the
limit and never moves back, whether it succeeds or fails (`Reader.Stays`): it ends between the
start of the RDATA and its end. So the reader after the RDATA, on every path, has the caller's
limit, and the distance it moved, which a length mismatch reports, is a true distance.

A parser whose last field runs to the end of the RDATA reads that field up to the offset it
computed at its start, the start plus the declared length, which is the limit it runs under; a
read up to the limit never fails, so no fallback for a failure of it is ever needed.

Decoding a whole message cannot fail otherwise either: every function is total, every byte is
read at an index proved below the size, and every record of every section is read with the
limit at the end of the message.

Main statement: `RecordFactory.parseRdata_limit_restored`.
-/
namespace DnsStub

namespace Reader

section
variable {α β : Type}

/-- The reader a read leaves, whether it succeeded or failed. -/
def after : EStateM.Result WireError Reader α → Reader
  | .ok _ r => r
  | .error _ r => r

@[simp] theorem after_ok (a : α) (r : Reader) : after (.ok a r : EStateM.Result WireError Reader α) = r :=
  rfl

@[simp] theorem after_error (e : WireError) (r : Reader) :
    after (.error e r : EStateM.Result WireError Reader α) = r :=
  rfl

/-- A read that keeps the message and the limit and never moves back, whether it succeeds or
fails. -/
def Stays (m : ReadM α) : Prop :=
  ∀ r, (after (m r)).data = r.data ∧ (after (m r)).limit = r.limit ∧ r.pos ≤ (after (m r)).pos

theorem Stays.bind {m : ReadM α} {f : α → ReadM β} (hm : Stays m) (hf : ∀ a, Stays (f a)) :
    Stays (m >>= f) := by
  intro r
  have h := hm r
  cases hr : m r with
  | ok a r₁ =>
    have e : (m >>= f) r = f a r₁ := by
      show EStateM.bind m f r = _
      simp only [EStateM.bind, hr]
    rw [hr] at h
    obtain ⟨hd, hl, hp⟩ := h
    obtain ⟨hd', hl', hp'⟩ := hf a r₁
    rw [e]
    exact ⟨hd'.trans hd, hl'.trans hl, Nat.le_trans hp hp'⟩
  | error e r₁ =>
    have e' : (m >>= f) r = .error e r₁ := by
      show EStateM.bind m f r = _
      simp only [EStateM.bind, hr]
    rw [hr] at h
    rw [e']
    exact h

theorem Stays.pure (a : α) : Stays (Pure.pure a : ReadM α) :=
  fun _ => ⟨rfl, rfl, Nat.le_refl _⟩

theorem Stays.map {m : ReadM α} (g : α → β) (hm : Stays m) : Stays (g <$> m) := by
  intro r
  have h := hm r
  have e : after ((g <$> m) r) = after (m r) := by
    show after (EStateM.map g m r) = _
    simp only [EStateM.map]
    cases m r <;> rfl
  rw [e]
  exact h

theorem stays_get : Stays (get : ReadM Reader) :=
  fun _ => ⟨rfl, rfl, Nat.le_refl _⟩

/-- A confined read looks only ahead of itself; run from one reader it keeps the message and the
limit and moves forward. -/
theorem Confined.stays {m : ReadM α} (h : Confined m) : Stays m := by
  intro r
  have hm := h r r ⟨rfl, rfl, fun _ _ _ => rfl⟩
  cases hr : m r with
  | ok a s =>
    rw [hr] at hm
    exact ⟨hm.2.data₁, hm.2.limit₁, hm.2.forward⟩
  | error e s =>
    rw [hr] at hm
    exact ⟨hm.2.data₁, hm.2.limit₁, hm.2.forward⟩

end

theorem stays_readName : Stays readName := by
  intro r
  cases hr : readName r with
  | ok n r' =>
    obtain ⟨hd, hl, hp⟩ := readName_eq_ok hr
    exact ⟨hd, hl, Nat.le_of_lt hp⟩
  | error e r' =>
    obtain ⟨rfl, -⟩ := readName_eq_error hr
    exact ⟨rfl, rfl, Nat.le_refl _⟩

theorem stays_readU32 : Stays readU32 :=
  ((confined_readVector 4).bind fun _ => Confined.pure _).stays

theorem readUpTo_ok_of_le_limit {stop : Nat} {r : Reader} (h : stop ≤ r.limit) :
    ∃ bs r', readUpTo stop r = .ok bs r' := by
  change ∃ bs r', (if stop ≤ r.pos then (Pure.pure [] : ReadM (List UInt8))
    else readBytes (stop - r.pos)) r = .ok bs r'
  by_cases hs : stop ≤ r.pos
  · rw [if_pos hs]
    exact ⟨[], r, rfl⟩
  · rw [if_neg hs]
    cases hx : readBytes (stop - r.pos) r with
    | ok bs r' => exact ⟨bs, r', rfl⟩
    | error e r' =>
      -- the bytes up to the stop lie before the limit, so reading them cannot fail
      change EStateM.map _ (readVector _) r = _ at hx
      simp only [EStateM.map] at hx
      split at hx
      · cases hx
      · next hv =>
        have := limit_lt_of_readVector_eq_error hv
        omega

end Reader

namespace RecordData
open Reader

section Parsers
variable {info : RecordInfo}

/-- Under the limit the factory sets, the end a parser computes for its RDATA is that limit. -/
theorem rdataEnd_at_limit {r : Reader} (h : r.limit = r.pos + info.rdlength.toNat) :
    rdataEnd info r = .ok r.limit r := by
  rw [h]
  rfl

theorem stays_rdataEnd : Stays (rdataEnd info) :=
  confined_rdataEnd.stays

theorem stays_parseName (mk : Name → RecordData) : Stays (parseName mk info) :=
  stays_readName.map mk

theorem stays_parseSoa : Stays (parseSoa info) :=
  stays_readName.bind fun _ => stays_readName.bind fun _ => stays_readU32.bind fun _ =>
    stays_readU32.bind fun _ => stays_readU32.bind fun _ => stays_readU32.bind fun _ =>
      stays_readU32.bind fun _ => Stays.pure _

theorem stays_parseMinfo : Stays (parseMinfo info) :=
  stays_readName.bind fun _ => stays_readName.bind fun _ => Stays.pure _

theorem stays_parseMx : Stays (parseMx info) :=
  confined_readU16.stays.bind fun _ => stays_readName.bind fun _ => Stays.pure _

theorem stays_parseRp : Stays (parseRp info) :=
  stays_readName.bind fun _ => stays_readName.bind fun _ => Stays.pure _

theorem stays_parseAfsdb : Stays (parseAfsdb info) :=
  confined_readU16.stays.bind fun _ => stays_readName.bind fun _ => Stays.pure _

theorem stays_parseSrv : Stays (parseSrv info) :=
  confined_readU16.stays.bind fun _ => confined_readU16.stays.bind fun _ =>
    confined_readU16.stays.bind fun _ => stays_readName.bind fun _ => Stays.pure _

theorem stays_parseNaptr : Stays (parseNaptr info) :=
  confined_readU16.stays.bind fun _ => confined_readU16.stays.bind fun _ =>
    confined_readCharacterString.stays.bind fun _ => confined_readCharacterString.stays.bind fun _ =>
      confined_readCharacterString.stays.bind fun _ => stays_readName.bind fun _ => Stays.pure _

theorem stays_parseRrsig : Stays (parseRrsig info) :=
  stays_rdataEnd.bind fun stop => confined_readU16.stays.bind fun _ =>
    confined_readU8.stays.bind fun _ => confined_readU8.stays.bind fun _ =>
      stays_readU32.bind fun _ => stays_readU32.bind fun _ => stays_readU32.bind fun _ =>
        confined_readU16.stays.bind fun _ => stays_readName.bind fun _ =>
          (confined_readUpTo stop).stays.bind fun _ => Stays.pure _

theorem stays_parseNsec : Stays (parseNsec info) :=
  stays_rdataEnd.bind fun stop => stays_readName.bind fun _ =>
    (TypeBitmap.confined_read stop).stays.bind fun _ => Stays.pure _

end Parsers

theorem stays_builtinParsers : ∀ e ∈ builtinParsers, ∀ info, Stays (e.2 info) := by
  simp only [builtinParsers, List.forall_mem_cons, List.not_mem_nil, false_imp_iff, imp_true_iff,
    and_true]
  -- the parsers of types whose data holds no name are confined; the others read names
  exact ⟨fun _ => confined_parseA.stays, fun _ => confined_parseAaaa.stays,
    fun _ => stays_parseName _, fun _ => stays_parseName _, fun _ => stays_parseName _,
    fun _ => stays_parseName _, fun _ => stays_parseName _, fun _ => stays_parseName _,
    fun _ => stays_parseName _, fun _ => stays_parseSoa, fun _ => confined_parseHinfo.stays,
    fun _ => stays_parseMinfo, fun _ => stays_parseMx, fun _ => (confined_readStrings.map _).stays,
    fun _ => (confined_readStrings.map _).stays, fun _ => stays_parseRp, fun _ => stays_parseAfsdb,
    fun _ => stays_parseSrv, fun _ => stays_parseNaptr, fun _ => confined_parseOpt.stays,
    fun _ => (confined_readSigner.map _).stays, fun _ => (confined_readSigner.map _).stays,
    fun _ => confined_parseSshfp.stays, fun _ => stays_parseRrsig, fun _ => stays_parseNsec,
    fun _ => (confined_readPublicKey.map _).stays, fun _ => (confined_readPublicKey.map _).stays,
    fun _ => confined_parseNsec3.stays, fun _ => confined_parseNsec3param.stays,
    fun _ => confined_parseTlsa.stays, fun _ => confined_parseUri.stays,
    fun _ => confined_parseCaa.stays, fun _ => confined_parseNull.stays⟩

end RecordData

namespace RecordFactory
open Reader

theorem stays_rdataRead (info : RecordInfo) : Stays (new.rdataRead info) := by
  unfold rdataRead
  cases hq : new.parser? info.rtype with
  | none => exact (confined_readBytes _).stays.map _
  | some p =>
    obtain ⟨l₁, l₂, hl, -⟩ := List.lookup_eq_some_iff.mp hq
    have hmem : (info.rtype, p) ∈ RecordData.builtinParsers := by
      rw [hl]
      simp
    exact RecordData.stays_builtinParsers _ hmem info

section
variable {f : RecordFactory} {info : RecordInfo} {r : Reader}

/-- The reader the factory hands to the parser: the caller's, limited to the declared RDATA. -/
def confined (r : Reader) (stop : Nat) (h : stop ≤ r.data.size ∧ r.pos ≤ stop) : Reader :=
  { r with limit := stop, pos_le_limit := h.2, limit_le_size := h.1 }

theorem rdataEnd_le_limit (h : info.rdlength.toNat ≤ r.remaining) :
    r.pos + info.rdlength.toNat ≤ r.limit := by
  have := r.pos_le_limit
  simp only [Reader.remaining] at h
  omega

theorem setLimit_rdataEnd (h : info.rdlength.toNat ≤ r.remaining) :
    ∃ hs, Reader.setLimit (r.pos + info.rdlength.toNat) r =
      .ok r.limit (confined r (r.pos + info.rdlength.toNat) hs) := by
  have hle := rdataEnd_le_limit h
  have hs : r.pos + info.rdlength.toNat ≤ r.data.size ∧ r.pos ≤ r.pos + info.rdlength.toNat :=
    ⟨Nat.le_trans hle r.limit_le_size, Nat.le_add_right _ _⟩
  exact ⟨hs, Reader.setLimit_of_le hs⟩

/-- The second move of the limit, back to the caller's, succeeds from wherever a parser that
stays leaves the confined reader: between the start and the end of the RDATA. -/
theorem setLimit_back (hf : Stays (f.rdataRead info)) (hle : r.pos + info.rdlength.toNat ≤ r.limit)
    (hs : r.pos + info.rdlength.toNat ≤ r.data.size ∧ r.pos ≤ r.pos + info.rdlength.toNat) :
    let r₂ := after (f.rdataRead info (confined r _ hs))
    r.pos ≤ r₂.pos ∧ r₂.pos ≤ r.pos + info.rdlength.toNat ∧
      ∃ h : r.limit ≤ r₂.data.size ∧ r₂.pos ≤ r.limit,
        Reader.setLimit r.limit r₂ = .ok (r.pos + info.rdlength.toNat)
        { r₂ with limit := r.limit, pos_le_limit := h.2, limit_le_size := h.1 } := by
  intro r₂
  obtain ⟨hd, hl, hp⟩ := hf (confined r _ hs)
  have hpl := r₂.pos_le_limit
  have hsize := r.limit_le_size
  have h₃ : r.limit ≤ r₂.data.size ∧ r₂.pos ≤ r.limit := by
    rw [hd]
    exact ⟨hsize, by rw [hl] at hpl; exact Nat.le_trans hpl hle⟩
  refine ⟨hp, by rw [hl] at hpl; exact hpl, h₃, ?_⟩
  rw [Reader.setLimit_of_le h₃, hl]
  rfl

/-- Around a parser that stays, the factory's read leaves the message and the caller's limit as
they were, on every path, and the reader between the start and the end of the RDATA. -/
theorem after_parseRdata (hf : Stays (f.rdataRead info)) (r : Reader) :
    (after (f.parseRdata info r)).data = r.data ∧ (after (f.parseRdata info r)).limit = r.limit ∧
      r.pos ≤ (after (f.parseRdata info r)).pos ∧
      (after (f.parseRdata info r)).pos ≤ r.pos + info.rdlength.toNat := by
  by_cases hrem : r.remaining < info.rdlength.toNat
  · -- refused before anything moves
    have e : f.parseRdata info r = .error (.unexpectedEof r.pos info.rdlength.toNat) r := by
      unfold parseRdata
      rw [if_pos hrem]
    rw [e]
    exact ⟨rfl, rfl, Nat.le_refl _, Nat.le_add_right _ _⟩
  · obtain ⟨hs, h₁⟩ := setLimit_rdataEnd (Nat.le_of_not_lt hrem)
    obtain ⟨hp₁, hp₂, h₃, h₂⟩ := setLimit_back hf (rdataEnd_le_limit (Nat.le_of_not_lt hrem)) hs
    obtain ⟨hd, -, -⟩ := hf (confined r _ hs)
    unfold parseRdata
    dsimp only
    rw [if_neg hrem, h₁]
    dsimp only
    -- whatever the parser gives, the limit goes back and every branch ends with that reader
    cases hx : f.rdataRead info (confined r _ hs) with
    | ok d r₂ =>
      simp only [hx, after_ok] at h₂ hd hp₁ hp₂
      simp only [rdataRead] at hx
      cases hq : f.parser? info.rtype <;> simp only [hq] at hx ⊢
      all_goals
        rw [hx]
        dsimp only
        rw [h₂]
        dsimp only
        split <;> exact ⟨hd, rfl, hp₁, hp₂⟩
    | error e r₂ =>
      simp only [hx, after_error] at h₂ hd hp₁ hp₂
      simp only [rdataRead] at hx
      cases hq : f.parser? info.rtype <;> simp only [hq] at hx ⊢
      all_goals
        rw [hx]
        dsimp only
        rw [h₂]
        dsimp only
        split <;> (try split) <;> exact ⟨hd, rfl, hp₁, hp₂⟩

theorem stays_parseRdata (hf : Stays (f.rdataRead info)) : Stays (f.parseRdata info) :=
  fun r => (after_parseRdata hf r).imp_right fun h => ⟨h.1, h.2.1⟩

end

theorem stays_parseRecord : Stays new.parseRecord :=
  (stays_readName.bind fun _ => confined_readU16.stays.bind fun _ =>
    confined_readU16.stays.bind fun _ => stays_readU32.bind fun _ =>
      confined_readU16.stays.bind fun _ => Stays.pure _).bind fun info =>
    (stays_parseRdata (stays_rdataRead info)).bind fun _ => Stays.pure _

end RecordFactory

namespace Response
open Reader

theorem stays_readTimes {α : Type} {m : ReadM α} (hm : Stays m) : ∀ n, Stays (readTimes m n)
  | 0 => Stays.pure _
  | n + 1 => hm.bind fun _ => (stays_readTimes hm n).bind fun _ => Stays.pure _

end Response

namespace RecordFactory
open Reader

/-- Reading RDATA with the default factory moves the limit to the declared end and back, and both
moves succeed from every reader with every envelope: the first once the declared length is found
to fit before the limit, the second because every parser leaves the reader between the start and
the end of the RDATA, over the same message and with the limit it was given; so the distance a
length mismatch reports never wraps. On every path, success or failure, the reader after the RDATA
has the message and the caller's limit. Under the limit the factory sets, the end a parser computes
for its last field is that limit, and reading up to the limit never fails. Record after record,
the sections of a message are read with the limit kept. -/
theorem parseRdata_limit_restored (info : RecordInfo) (r : Reader) :
    (info.rdlength.toNat ≤ r.remaining →
      ∃ hs, Reader.setLimit (r.pos + info.rdlength.toNat) r =
          .ok r.limit (confined r (r.pos + info.rdlength.toNat) hs) ∧
        let r₂ := after (new.rdataRead info (confined r _ hs))
        r.pos ≤ r₂.pos ∧ r₂.pos ≤ r.pos + info.rdlength.toNat ∧
          ∃ h : r.limit ≤ r₂.data.size ∧ r₂.pos ≤ r.limit,
            Reader.setLimit r.limit r₂ = .ok (r.pos + info.rdlength.toNat)
              { r₂ with limit := r.limit, pos_le_limit := h.2, limit_le_size := h.1 }) ∧
    ((after (new.parseRdata info r)).data = r.data ∧ (after (new.parseRdata info r)).limit = r.limit ∧
      r.pos ≤ (after (new.parseRdata info r)).pos ∧
      (after (new.parseRdata info r)).pos ≤ r.pos + info.rdlength.toNat) ∧
    (∀ s : Reader, s.limit = s.pos + info.rdlength.toNat →
      RecordData.rdataEnd info s = .ok s.limit s ∧
        ∀ t : Reader, t.limit = s.limit → ∃ bs t', readUpTo s.limit t = .ok bs t') ∧
    ∀ n, Stays (Response.readTimes new.parseRecord n) := by
  refine ⟨fun h => ?_, after_parseRdata (stays_rdataRead info) r,
    fun s hs => ⟨RecordData.rdataEnd_at_limit hs, fun t ht => readUpTo_ok_of_le_limit (by omega)⟩,
    Response.stays_readTimes stays_parseRecord⟩
  obtain ⟨hs, h₁⟩ := setLimit_rdataEnd h
  exact ⟨hs, h₁, setLimit_back (stays_rdataRead info) (rdataEnd_le_limit h) hs⟩

/-- An MX record of five bytes at the start of a message of five bytes: the limit moves to the
end of the RDATA and back, and the reader after it has the limit it had. -/
theorem parseRdata_limit_restored_mx :
    let r := Reader.new ⟨#[0, 10, 1, 97, 0]⟩
    let info : RecordInfo := ⟨Name.root, .mx, .inet, 0, 5⟩
    info.rdlength.toNat ≤ r.remaining ∧
      (∃ hs, Reader.setLimit 5 r = .ok r.limit (confined r 5 hs)) ∧
      (after (new.parseRdata info r)).limit = r.limit := by
  intro r info
  have h : info.rdlength.toNat ≤ r.remaining := by decide
  have hr := parseRdata_limit_restored info r
  obtain ⟨hs, h₁, -⟩ := hr.1 h
  exact ⟨h, ⟨hs, h₁⟩, hr.2.1.2.1⟩

end RecordFactory

end DnsStub
