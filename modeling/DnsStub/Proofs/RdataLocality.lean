import DnsStub.Proofs.RdataLength
/-!
# What reading RDATA looks at

A read is confined when it looks only at the bytes from the position up to the limit: from two
readers that agree there it gives the same value or the same error, and they move on together.
Fixed fields, character strings, fields up to an offset and type bitmaps are confined, and so
is every parser of a type whose data holds no name. Around a confined parser the factory's
outcome, and where it leaves the reader, depends only on the RDATA's own bytes.

A name is not confined: after its first compression pointer the scan is bounded by the whole
message, so a label the pointer reaches may run past the end of the record. Two messages that
agree up to the end of an NS record can then hold two different names.

Main statements: `Reader.Confined` with its composition `Confined.bind`,
`RecordData.confined_rdataRead`, `RecordFactory.parseRdata_outcome_eq`,
`RecordFactory.parseRdata_outcome_of_rdata_eq` and `RecordFactory.parseRdata_name_reads_past_record`.
-/
namespace DnsStub

namespace Reader

/-- What a read gives and the position it leaves. -/
def outcome {α : Type} : EStateM.Result WireError Reader α → Except WireError α × Nat
  | .ok a r => (.ok a,r.pos)
  | .error e r => (.error e,r.pos)

/-- Two readers at one position with one limit, over messages that agree from the position up
to the limit. -/
structure Agree (r₁ r₂ : Reader) : Prop where
  pos : r₁.pos = r₂.pos
  limit : r₁.limit = r₂.limit
  bytes : ∀ i, r₁.pos ≤ i → i < r₁.limit → r₁.data.data.toList[i]? = r₂.data.data.toList[i]?

/-- The readers `s₁` and `s₂` after one read from `r₁` and `r₂`: over the messages and with the
limits they had, at one position no earlier than where they started. -/
structure Moved (r₁ r₂ s₁ s₂ : Reader) : Prop where
  data₁ : s₁.data = r₁.data
  data₂ : s₂.data = r₂.data
  limit₁ : s₁.limit = r₁.limit
  limit₂ : s₂.limit = r₂.limit
  pos : s₁.pos = s₂.pos
  forward : r₁.pos ≤ s₁.pos

/-- The results of one read from the readers `r₁` and `r₂`: the same value or the same error,
the readers having moved together. -/
def Matches {α : Type} (r₁ r₂ : Reader) :
    EStateM.Result WireError Reader α → EStateM.Result WireError Reader α → Prop
  | .ok a s₁,.ok b s₂ => a = b ∧ Moved r₁ r₂ s₁ s₂
  | .error e s₁,.error e' s₂ => e = e' ∧ Moved r₁ r₂ s₁ s₂
  | _,_ => False

/-- A read confined to the bytes from the position up to the limit: from two readers that agree
there it gives the same value or the same error, and they move together. -/
def Confined {α : Type} (m : ReadM α) : Prop :=
  ∀ r₁ r₂, Agree r₁ r₂ → Matches r₁ r₂ (m r₁) (m r₂)

section
variable {α β : Type} {r₁ r₂ s₁ s₂ t₁ t₂ : Reader}

theorem Moved.refl (h : Agree r₁ r₂) : Moved r₁ r₂ r₁ r₂ :=
  ⟨rfl,rfl,rfl,rfl,h.pos,Nat.le_refl _⟩

theorem Moved.trans (h : Moved r₁ r₂ s₁ s₂) (h' : Moved s₁ s₂ t₁ t₂) : Moved r₁ r₂ t₁ t₂ :=
  ⟨h'.data₁.trans h.data₁,h'.data₂.trans h.data₂,h'.limit₁.trans h.limit₁,
    h'.limit₂.trans h.limit₂,h'.pos,Nat.le_trans h.forward h'.forward⟩

theorem Agree.moved (h : Agree r₁ r₂) (hm : Moved r₁ r₂ s₁ s₂) : Agree s₁ s₂ := by
  refine ⟨hm.pos,by rw [hm.limit₁,hm.limit₂,h.limit],fun i hi hl => ?_⟩
  rw [hm.data₁,hm.data₂]
  exact h.bytes i (by have := hm.forward; omega) (by rw [← hm.limit₁]; exact hl)

theorem Matches.of_moved {x₁ x₂ : EStateM.Result WireError Reader α} (hm : Moved r₁ r₂ s₁ s₂)
    (h : Matches s₁ s₂ x₁ x₂) : Matches r₁ r₂ x₁ x₂ := by
  cases x₁ <;> cases x₂ <;> simp only [Matches] at h ⊢
  · exact ⟨h.1,hm.trans h.2⟩
  · exact ⟨h.1,hm.trans h.2⟩

theorem Confined.bind {m : ReadM α} {f : α → ReadM β} (hm : Confined m) (hf : ∀ a, Confined (f a)) :
    Confined (m >>= f) := by
  intro r₁ r₂ h
  have hr := hm r₁ r₂ h
  show Matches r₁ r₂ (EStateM.bind m f r₁) (EStateM.bind m f r₂)
  simp only [EStateM.bind]
  -- the first read gives the same on both; the second starts from readers that still agree
  cases hx₁ : m r₁ <;> cases hx₂ : m r₂ <;> rw [hx₁,hx₂] at hr <;> simp only [Matches] at hr ⊢
  · next a s₁ b s₂ =>
      obtain ⟨rfl,hmv⟩ := hr
      exact (hf a s₁ s₂ (h.moved hmv)).of_moved hmv
  · exact hr

theorem Confined.pure (a : α) : Confined (Pure.pure a : ReadM α) :=
  fun _ _ h => ⟨rfl,Moved.refl h⟩

theorem Confined.throw (e : WireError) : Confined (MonadExcept.throw e : ReadM α) :=
  fun _ _ h => ⟨rfl,Moved.refl h⟩

theorem Confined.map {m : ReadM α} (f : α → β) (hm : Confined m) : Confined (f <$> m) := by
  intro r₁ r₂ h
  have hr := hm r₁ r₂ h
  show Matches r₁ r₂ (EStateM.map f m r₁) (EStateM.map f m r₂)
  simp only [EStateM.map]
  cases hx₁ : m r₁ <;> cases hx₂ : m r₂ <;> rw [hx₁,hx₂] at hr <;> simp only [Matches] at hr ⊢
  · exact ⟨by rw [hr.1],hr.2⟩
  · exact hr

theorem Confined.ite {c : Prop} [Decidable c] {m m' : ReadM α} (hm : Confined m) (hm' : Confined m') :
    Confined (if c then m else m') := by
  split
  · exact hm
  · exact hm'

theorem Confined.get_bind {k : Reader → ReadM α} (hk : ∀ r, Confined (k r))
    (hpos : ∀ r r' : Reader, r.pos = r'.pos → k r = k r') : Confined (get >>= k) := by
  intro r₁ r₂ h
  show Matches r₁ r₂ (k r₁ r₁) (k r₂ r₂)
  rw [hpos r₂ r₁ h.pos.symm]
  exact hk r₁ r₁ r₂ h

end

theorem confined_readVector (n : Nat) : Confined (readVector n) := by
  intro r₁ r₂ h
  by_cases hn : r₁.pos+n ≤ r₁.limit
  · have hn' : r₂.pos+n ≤ r₂.limit := by rw [← h.pos,← h.limit]; exact hn
    simp only [readVector,dif_pos hn,dif_pos hn',Matches]
    refine ⟨?_,⟨rfl,rfl,rfl,rfl,by simp [h.pos],by simp⟩⟩
    -- the bytes read lie between the position and the limit, where the messages agree
    apply Vector.ext
    intro i hi
    simp only [Vector.getElem_ofFn]
    have hp := h.pos
    have hs₁ : r₁.pos+i < r₁.data.size := by have := r₁.limit_le_size; omega
    have hs₂ : r₂.pos+i < r₂.data.size := by have := r₂.limit_le_size; omega
    obtain ⟨b,hb₁⟩ : ∃ b, r₁.data.data.toList[r₁.pos+i]? = some b :=
      ⟨_,List.getElem?_eq_getElem (by simpa using hs₁)⟩
    have hb₂ : r₂.data.data.toList[r₂.pos+i]? = some b := by
      rw [← hp,← h.bytes (r₁.pos+i) (by omega) (by omega),hb₁]
    show r₁.data[r₁.pos+i] = r₂.data[r₂.pos+i]
    rw [Name.get_eq_of_getElem? hb₁ hs₁,Name.get_eq_of_getElem? hb₂ hs₂]
  · have hn' : ¬r₂.pos+n ≤ r₂.limit := by rw [← h.pos,← h.limit]; exact hn
    simp only [readVector,dif_neg hn,dif_neg hn',Matches]
    exact ⟨by rw [h.pos],Moved.refl h⟩

theorem confined_readBytes (n : Nat) : Confined (readBytes n) :=
  (confined_readVector n).map _

theorem confined_readU8 : Confined readU8 :=
  (confined_readVector 1).bind fun _ => Confined.pure _

theorem confined_readU16 : Confined readU16 :=
  (confined_readVector 2).bind fun _ => Confined.pure _

theorem confined_readCharacterString : Confined readCharacterString :=
  confined_readU8.bind fun len => confined_readBytes len.toNat

theorem confined_readIpv4 : Confined readIpv4 :=
  (confined_readVector 4).map _

theorem confined_readIpv6 : Confined readIpv6 :=
  (confined_readVector 16).map _

theorem confined_readUpTo (stop : Nat) : Confined (readUpTo stop) :=
  Confined.get_bind (fun _ => Confined.ite (Confined.pure _) (confined_readBytes _))
    fun _ _ h => by simp only [h]

theorem confined_repeatFrom {α : Type} {step : ReadM α} (adv : Advances step) (hs : Confined step)
    (stop : Nat) (acc : Array α) : Confined (repeatFrom step adv stop acc) := by
  -- each round moves both readers forward together, so the distance to the stop shrinks
  suffices h : ∀ n (acc : Array α) (r₁ r₂ : Reader), stop-r₁.pos = n → Agree r₁ r₂ →
      Matches r₁ r₂ (repeatFrom step adv stop acc r₁) (repeatFrom step adv stop acc r₂) from
    fun r₁ r₂ hr => h _ acc r₁ r₂ rfl hr
  intro n
  induction n using Nat.strong_induction_on with
  | _ n ih =>
    intro acc r₁ r₂ hn h
    have hp := h.pos
    have hr := hs r₁ r₂ h
    rw [repeatFrom,repeatFrom]
    by_cases hlt : r₁.pos < stop
    · rw [dif_pos hlt,dif_pos (by omega)]
      split <;> split
      · next a s₁ hs₁ b s₂ hs₂ =>
          rw [hs₁,hs₂] at hr
          obtain ⟨rfl,hmv⟩ := hr
          have hadv := adv _ _ _ hs₁
          exact (ih (stop-s₁.pos) (by omega) (acc.push a) s₁ s₂ rfl (h.moved hmv)).of_moved hmv
      · next hs₁ _ _ hs₂ =>
          rw [hs₁,hs₂] at hr
          simp only [Matches] at hr
      · next hs₁ _ _ hs₂ =>
          rw [hs₁,hs₂] at hr
          simp only [Matches] at hr
      · next hs₁ _ _ hs₂ =>
          rw [hs₁,hs₂] at hr
          exact hr
    · rw [dif_neg hlt,dif_neg (by omega)]
      exact ⟨rfl,Moved.refl h⟩

theorem confined_repeatBefore {α : Type} {step : ReadM α} (adv : Advances step) (hs : Confined step)
    (stop : Nat) : Confined (repeatBefore step adv stop) :=
  confined_repeatFrom adv hs stop #[]

end Reader

namespace TypeBitmap
open Reader

theorem confined_readWindow (stop : Nat) : Confined (readWindow stop) := by
  unfold readWindow
  refine Confined.get_bind (fun r => Confined.ite (Confined.throw _) ?_) fun _ _ h => by simp only [h]
  refine confined_readU8.bind fun _ => confined_readU8.bind fun _ => ?_
  exact Confined.get_bind (fun _ => Confined.ite (Confined.throw _) ((confined_readBytes _).map _))
    fun _ _ h => by simp only [h]

theorem confined_read (stop : Nat) : Confined (read stop) :=
  (confined_repeatBefore (advances_readWindow stop) (confined_readWindow stop) stop).map _

end TypeBitmap

namespace RecordData
open Reader

section Parsers
variable {info : RecordInfo}

theorem confined_expectLength (n : Nat) : Confined (expectLength info n) :=
  Confined.ite (Confined.pure _) (Confined.throw _)

theorem confined_rdataEnd : Confined (rdataEnd info) :=
  Confined.get_bind (fun _ => Confined.pure _) fun _ _ h => by simp only [h]

theorem confined_readOption : Confined readOption :=
  confined_readU16.bind fun _ => confined_readU16.bind fun _ => (confined_readBytes _).map _

theorem confined_readStrings : Confined (readStrings info) :=
  confined_rdataEnd.bind fun stop =>
    confined_repeatBefore advances_readCharacterString confined_readCharacterString stop

theorem confined_readSigner : Confined (readSigner info) :=
  confined_rdataEnd.bind fun stop => confined_readU16.bind fun _ => confined_readU8.bind fun _ =>
    confined_readU8.bind fun _ => (confined_readUpTo stop).bind fun _ => Confined.pure _

theorem confined_readPublicKey : Confined (readPublicKey info) :=
  confined_rdataEnd.bind fun stop => confined_readU16.bind fun _ => confined_readU8.bind fun _ =>
    confined_readU8.bind fun _ => (confined_readUpTo stop).bind fun _ => Confined.pure _

theorem confined_parseA : Confined (parseA info) :=
  (confined_expectLength 4).bind fun _ => confined_readIpv4.map _

theorem confined_parseAaaa : Confined (parseAaaa info) :=
  (confined_expectLength 16).bind fun _ => confined_readIpv6.map _

theorem confined_parseHinfo : Confined (parseHinfo info) :=
  confined_readCharacterString.bind fun _ => confined_readCharacterString.bind fun _ =>
    Confined.pure _

theorem confined_parseOpt : Confined (parseOpt info) :=
  confined_rdataEnd.bind fun stop =>
    (confined_repeatBefore advances_readOption confined_readOption stop).map _

theorem confined_parseSshfp : Confined (parseSshfp info) :=
  confined_rdataEnd.bind fun stop => confined_readU8.bind fun _ => confined_readU8.bind fun _ =>
    (confined_readUpTo stop).bind fun _ => Confined.pure _

theorem confined_parseNsec3 : Confined (parseNsec3 info) :=
  confined_rdataEnd.bind fun stop => confined_readU8.bind fun _ => confined_readU8.bind fun _ =>
    confined_readU16.bind fun _ => confined_readCharacterString.bind fun _ =>
      confined_readCharacterString.bind fun _ => (TypeBitmap.confined_read stop).bind fun _ =>
        Confined.pure _

theorem confined_parseNsec3param : Confined (parseNsec3param info) :=
  confined_readU8.bind fun _ => confined_readU8.bind fun _ => confined_readU16.bind fun _ =>
    confined_readCharacterString.bind fun _ => Confined.pure _

theorem confined_parseTlsa : Confined (parseTlsa info) :=
  confined_rdataEnd.bind fun stop => confined_readU8.bind fun _ => confined_readU8.bind fun _ =>
    confined_readU8.bind fun _ => (confined_readUpTo stop).bind fun _ => Confined.pure _

theorem confined_parseUri : Confined (parseUri info) :=
  confined_rdataEnd.bind fun stop => confined_readU16.bind fun _ => confined_readU16.bind fun _ =>
    (confined_readUpTo stop).bind fun _ => Confined.pure _

theorem confined_parseCaa : Confined (parseCaa info) :=
  confined_rdataEnd.bind fun stop => confined_readU8.bind fun _ =>
    confined_readCharacterString.bind fun _ => (confined_readUpTo stop).bind fun _ => Confined.pure _

theorem confined_parseNull : Confined (parseNull info) :=
  confined_rdataEnd.bind fun stop => (confined_readUpTo stop).map _

end Parsers

/-- The types whose RDATA holds a domain name. -/
def nameTypes : List RecordType :=
  [.ns,.cname,.ptr,.dname,.mb,.mg,.mr,.soa,.minfo,.mx,.rp,.afsdb,.srv,.naptr,.rrsig,.nsec]

theorem confined_builtinParsers :
    ∀ e ∈ builtinParsers, e.1 ∉ nameTypes → ∀ info, Confined (e.2 info) := by
  simp only [builtinParsers,List.forall_mem_cons,List.not_mem_nil,false_imp_iff,imp_true_iff,
    and_true]
  -- the types with names are ruled out by the hypothesis, the others are confined
  refine ⟨fun _ _ => confined_parseA,fun _ _ => confined_parseAaaa,?_,?_,?_,?_,?_,?_,?_,?_,
    fun _ _ => confined_parseHinfo,?_,?_,fun _ _ => confined_readStrings.map _,
    fun _ _ => confined_readStrings.map _,?_,?_,?_,?_,fun _ _ => confined_parseOpt,
    fun _ _ => confined_readSigner.map _,fun _ _ => confined_readSigner.map _,
    fun _ _ => confined_parseSshfp,?_,?_,fun _ _ => confined_readPublicKey.map _,
    fun _ _ => confined_readPublicKey.map _,fun _ _ => confined_parseNsec3,
    fun _ _ => confined_parseNsec3param,fun _ _ => confined_parseTlsa,fun _ _ => confined_parseUri,
    fun _ _ => confined_parseCaa,fun _ _ => confined_parseNull⟩
  all_goals exact fun h => absurd (by decide) h

/-- The factory's read of a type whose data holds no name is confined: its parser, or the bytes
kept opaque. -/
theorem confined_rdataRead {info : RecordInfo} (ht : info.rtype ∉ nameTypes) :
    Confined (RecordFactory.new.rdataRead info) := by
  unfold RecordFactory.rdataRead
  cases hq : RecordFactory.new.parser? info.rtype with
  | none => exact (confined_readBytes _).map _
  | some p =>
      obtain ⟨l₁,l₂,hl,-⟩ := List.lookup_eq_some_iff.mp hq
      have hmem : (info.rtype,p) ∈ builtinParsers := by rw [hl]; simp
      exact confined_builtinParsers _ hmem ht info

end RecordData

namespace RecordFactory
open Reader

/-- Around a confined parser, the factory's outcome and the position it leaves depend only on
the RDATA's own bytes: two readers at one position, whose limits cover the declared length and
whose messages agree on the RDATA, end the same way. -/
theorem parseRdata_outcome_eq {f : RecordFactory} {info : RecordInfo}
    (hq : Confined (f.rdataRead info)) {r₁ r₂ : Reader} (hp : r₁.pos = r₂.pos)
    (hl₁ : r₁.pos+info.rdlength.toNat ≤ r₁.limit) (hl₂ : r₂.pos+info.rdlength.toNat ≤ r₂.limit)
    (hb : ∀ i, r₁.pos ≤ i → i < r₁.pos+info.rdlength.toNat →
      r₁.data.data.toList[i]? = r₂.data.data.toList[i]?) :
    outcome (f.parseRdata info r₁) = outcome (f.parseRdata info r₂) := by
  have hs₁ := r₁.limit_le_size
  have hs₂ := r₂.limit_le_size
  have h₁ : r₁.pos+info.rdlength.toNat ≤ r₁.data.size ∧ r₁.pos ≤ r₁.pos+info.rdlength.toNat :=
    ⟨by omega,by omega⟩
  have h₂ : r₂.pos+info.rdlength.toNat ≤ r₂.data.size ∧ r₂.pos ≤ r₂.pos+info.rdlength.toNat :=
    ⟨by omega,by omega⟩
  -- the parser runs from the two readers limited to the RDATA, which agree on it
  have hm := hq ⟨r₁.data,r₁.pos,_,h₁.2,h₁.1⟩ ⟨r₂.data,r₂.pos,_,h₂.2,h₂.1⟩ ⟨hp,by simp [hp],hb⟩
  obtain ⟨x₁,x₂,hx₁,hx₂,hm⟩ := (⟨_,_,rfl,rfl,hm⟩ : ∃ x₁ x₂, _ = x₁ ∧ _ = x₂ ∧ Matches _ _ x₁ x₂)
  simp only [rdataRead] at hx₁ hx₂
  have hrem₁ : ¬r₁.remaining < info.rdlength.toNat := by simp only [Reader.remaining]; omega
  have hrem₂ : ¬r₂.remaining < info.rdlength.toNat := by simp only [Reader.remaining]; omega
  unfold parseRdata
  dsimp only
  rw [if_neg hrem₁,if_neg hrem₂,Reader.setLimit_of_le h₁,Reader.setLimit_of_le h₂]
  dsimp only
  -- both results have the same shape; the limit goes back on readers still over their messages
  cases x₁ <;> cases x₂ <;> simp only [Matches] at hm
  all_goals
    obtain ⟨rfl,hmv⟩ := hm
    rename_i x s₁ s₂
    have hd₁ := hmv.data₁
    have hd₂ := hmv.data₂
    have hll₁ := hmv.limit₁
    have hll₂ := hmv.limit₂
    simp only at hd₁ hd₂ hll₁ hll₂
    have h₃ : r₁.limit ≤ s₁.data.size ∧ s₁.pos ≤ r₁.limit :=
      ⟨by rw [hd₁]; omega,by have := s₁.pos_le_limit; omega⟩
    have h₄ : r₂.limit ≤ s₂.data.size ∧ s₂.pos ≤ r₂.limit :=
      ⟨by rw [hd₂]; omega,by have := s₂.pos_le_limit; omega⟩
    cases hq' : f.parser? info.rtype <;> simp only [hq'] at hx₁ hx₂ ⊢
    all_goals
      rw [hx₁,hx₂]
      dsimp only
      rw [Reader.setLimit_of_le h₃,Reader.setLimit_of_le h₄]
      dsimp only
      simp only [hmv.pos,hp]
      -- what is left depends on the parser's value or error and its position alone
      first
        | (split_ifs <;> simp only [outcome]; done)
        | (cases x <;> simp only [outcome]
           split_ifs <;> rfl)

theorem getElem?_eq_of_take_drop_eq {l₁ l₂ : List UInt8} {p n : Nat}
    (h : (l₁.drop p).take n = (l₂.drop p).take n) (i : Nat) (h₁ : p ≤ i) (h₂ : i < p+n) :
    l₁[i]? = l₂[i]? := by
  have e := congrArg (·[i-p]?) h
  simp only [List.getElem?_take,List.getElem?_drop,if_pos (show i-p < n by omega),
    show p+(i-p) = i by omega] at e
  exact e

/-- RDATA of a type whose data holds no name is read from its own bytes alone: from two readers
at one position, whose limits cover the declared length and whose messages hold the same bytes
there, the factory gives the same data or the same error and leaves the same position, whatever
the messages hold before or after the record. -/
theorem parseRdata_outcome_of_rdata_eq {info : RecordInfo} (ht : info.rtype ∉ RecordData.nameTypes)
    {r₁ r₂ : Reader} (hp : r₁.pos = r₂.pos) (hl₁ : r₁.pos+info.rdlength.toNat ≤ r₁.limit)
    (hl₂ : r₂.pos+info.rdlength.toNat ≤ r₂.limit)
    (hb : (r₁.data.data.toList.drop r₁.pos).take info.rdlength.toNat =
      (r₂.data.data.toList.drop r₂.pos).take info.rdlength.toNat) :
    outcome (new.parseRdata info r₁) = outcome (new.parseRdata info r₂) :=
  parseRdata_outcome_eq (RecordData.confined_rdataRead ht) hp hl₁ hl₂
    (getElem?_eq_of_take_drop_eq (by rwa [← hp] at hb))

/-- TXT data declared shorter than its one string fails the same way whether the message ends
with the record or goes on. -/
theorem parseRdata_outcome_of_rdata_eq_txt :
    outcome (new.parseRdata ⟨Name.root,.txt,.inet,0,3⟩
        ⟨[5,104,101,108,108,111].toByteArray,0,6,by decide,by decide⟩) =
      outcome (new.parseRdata ⟨Name.root,.txt,.inet,0,3⟩
        ⟨[5,104,101,108,108,111,255,255].toByteArray,0,8,by decide,by decide⟩) :=
  parseRdata_outcome_of_rdata_eq (by decide) rfl (by decide) (by decide) (by decide)

/-- An NS record at offset 2 whose RDATA is a pointer back to offset 0, where a five-byte label
starts: the label holds the pointer and runs two bytes past the record. -/
theorem parseRdata_ns_backPointer (a b : UInt8) (h₁ : 2 ≤ 7)
    (h₂ : 7 ≤ [5,0,192,0,a,b,0].toByteArray.size) :
    outcome (new.parseRdata ⟨Name.root,.ns,.inet,0,2⟩ ⟨[5,0,192,0,a,b,0].toByteArray,2,7,h₁,h₂⟩) =
      (.ok (.ns ⟨[[0,192,0,a,b]]⟩),4) := by
  -- the message spells the name through the pointer: the label at 0, then the zero byte at 6
  have hs : ∀ r : Reader, r.data = [5,0,192,0,a,b,0].toByteArray → r.pos = 2 →
      Name.Spells r.data.data.toList r.pos r.pos [[0,192,0,a,b]] 1 4 := by
    intro r hd hp
    rw [hd,hp,List.data_toByteArray,List.toList_toArray]
    exact @Name.Spells.pointer _ _ _ 0 _ _ _ _ _ rfl (by decide) rfl (by decide) (by decide)
      (.label (by simp) (by simp [Name.maxLabelLength]) rfl ⟨[0],rfl⟩ (.root rfl))
  obtain ⟨r',h,hp',_⟩ := @parseRdata_of_parsed new ⟨Name.root,.ns,.inet,0,2⟩ ⟨_,2,7,h₁,h₂⟩
    (by simp) (.ns ⟨[[0,192,0,a,b]]⟩) 4 fun r₁ hd hp hl => by
      obtain ⟨r₂,hr,hd₂,hl₂,hp₂⟩ := readName_of_spells (hs r₁ hd hp) (by simp at hl; omega)
        (by decide) (by simp [Name.maxWireLength])
      refine ⟨r₂,?_,hd₂,hl₂,hp₂⟩
      rw [rdataRead_new rfl rfl]
      simp only [RecordData.parseName,Functor.map,EStateM.map,hr]
  rw [h]
  simp [outcome,hp']

/-- Two messages that agree up to the end of an NS record, and differ only after it, give two
different names: the record's pointer reaches a label that runs past its end. -/
theorem parseRdata_name_reads_past_record :
    ¬ ∀ (info : RecordInfo) (r₁ r₂ : Reader), r₁.pos = r₂.pos →
      r₁.pos+info.rdlength.toNat ≤ r₁.limit → r₂.pos+info.rdlength.toNat ≤ r₂.limit →
      r₁.data.data.toList.take (r₁.pos+info.rdlength.toNat) =
        r₂.data.data.toList.take (r₂.pos+info.rdlength.toNat) →
      outcome (new.parseRdata info r₁) = outcome (new.parseRdata info r₂) := by
  intro h
  have e := h ⟨Name.root,.ns,.inet,0,2⟩ ⟨[5,0,192,0,97,98,0].toByteArray,2,7,by decide,by decide⟩
    ⟨[5,0,192,0,99,100,0].toByteArray,2,7,by decide,by decide⟩ rfl (by decide) (by decide)
    (by decide)
  rw [parseRdata_ns_backPointer,parseRdata_ns_backPointer] at e
  simp at e

end RecordFactory

end DnsStub
