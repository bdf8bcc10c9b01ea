import DnsStub.Proofs.RecordCodec
import DnsStub.Proofs.HeaderCodec
import DnsStub.Message.Builder
import DnsStub.Message.Response
/-!
# Building a message and parsing it back

A message is built by starting a query or a response and taking steps: questions, then records
section by section, and at any time a response code or the TC bit. The builder's bytes always hold
the message the steps describe (`Holds`): the header with the number of entries of each section,
then every entry written in full, section after section. Parsing those bytes with the built-in
record parsers gives back the header, the questions, and the records with their RDATA lengths,
the types of NSEC and NSEC3 data sorted, each once.

Main statement: `parse_build`.
-/
namespace DnsStub
open Reader

/-! ### Entries on the wire -/

theorem Question.reads_parse {q : Question} (hq : q.qname.Valid) (p : Nat) :
    Reads p Question.parse q.toWire q := by
  simp only [Question.toWire,List.append_assoc]
  apply Reads.bind (reads_readName hq p)
  apply Reads.bind (reads_readU16 _ q.qtype.code)
  exact Reads.bind_pure (reads_readU16 _ q.qclass.code)

namespace ResourceRecord

/-- The envelope a record is written with: its RDATA length filled in. -/
def wireInfo (rr : ResourceRecord) : RecordInfo :=
  { rr.info with rdlength := rr.data.toWire.length.toUInt16 }

/-- A record on the wire: its envelope, then its data. -/
def toWire (rr : ResourceRecord) : List UInt8 :=
  rr.wireInfo.toWire ++ rr.data.toWire

/-- The record a reader gets back: the RDATA length filled in, NSEC and NSEC3 types sorted. -/
def received (rr : ResourceRecord) : ResourceRecord :=
  ⟨rr.wireInfo,rr.data.normalize⟩

/-- A record that reads back: a valid owner, well-formed data of the record's type whose
character strings fit and whose wire form fits the RDATA length word. -/
structure Readable (rr : ResourceRecord) : Prop where
  name : rr.info.name.Valid
  rtype : rr.info.rtype = rr.data.rtype
  data : rr.data.WellFormed
  strings : rr.data.StringsFit
  length : rr.data.toWire.length < 65536

theorem reads_parseRecord {rr : ResourceRecord} (h : rr.Readable) (p : Nat) :
    Reads p RecordFactory.new.parseRecord rr.toWire rr.received := by
  have hl : rr.wireInfo.rdlength.toNat = rr.data.toWire.length := by
    have := h.length
    simp only [wireInfo,Nat.toUInt16_eq,UInt16.toNat_ofNat']
    omega
  exact RecordFactory.reads_parseRecord h.name hl
    (RecordData.reads_rdataRead h.data h.strings h.length
      (show rr.wireInfo.rtype = rr.data.rtype from h.rtype) hl _)

end ResourceRecord

theorem reads_readTimes {α β : Type} {m : ReadM α} (enc : β → List UInt8) (val : β → α)
    (xs : List β) (h : ∀ x ∈ xs, ∀ q, Reads q m (enc x) (val x)) (p : Nat) :
    Reads p (Response.readTimes m xs.length) (xs.flatMap enc) (xs.map val) := by
  induction xs generalizing p with
  | nil => exact Reads.pure p []
  | cons x xs ih =>
      simp only [List.length_cons,Response.readTimes,List.flatMap_cons,List.map_cons]
      apply Reads.bind (h x (by simp) p)
      exact Reads.bind_pure (ih (fun y hy => h y (by simp [hy])) _)

/-! ### What a builder writes -/

theorem Header.length_toBytes (h : Header) : h.toBytes.length = Header.size := by
  simp [Header.toBytes,Header.size,BigEndian.ofUInt16]

namespace Builder

theorem header_eq {b : Builder} {h : Header} {body : List UInt8}
    (hb : b.writer.toList = h.toBytes ++ body) : b.header = h.toBytes.toByteArray := by
  rw [header,← Header.length_toBytes h,Writer.front_eq hb]

theorem toList_editHeader {b : Builder} {h : Header} {body : List UInt8}
    (hb : b.writer.toList = h.toBytes ++ body) (f : ByteArray → ByteArray)
    (hf : ∀ buf, (f buf).size = buf.size) :
    (b.editHeader f).writer.toList = (f h.toBytes.toByteArray).data.toList ++ body := by
  simp only [editHeader]
  rw [← Header.length_toBytes h,Writer.toList_editFront hb f (by rw [hf,List.size_toByteArray])]

theorem count_eq_ok {b b' : Builder} {sec : Section} {h : Header} {body : List UInt8}
    (hb : b.writer.toList = h.toBytes ++ body) (hc : b.count sec = .ok b') :
    h.countOf sec ≠ 0xFFFF ∧
      b'.writer.toList = (h.withCount sec (h.countOf sec+1)).toBytes ++ body ∧
      b'.stage = b.stage ∧ b'.maxSize = b.maxSize := by
  have hcount := Header.count_toBytes h [] sec
  rw [List.append_nil] at hcount
  unfold count at hc
  rw [header_eq hb,hcount] at hc
  by_cases hfull : h.countOf sec = 0xFFFF
  · simp [Header.nextCount?,hfull] at hc
  · simp only [Header.nextCount?,hfull,if_false] at hc
    obtain rfl := Except.ok.inj hc
    have hset := Header.setCount_toBytes h [] sec (h.countOf sec+1)
    simp only [List.append_nil] at hset
    refine ⟨hfull,?_,rfl,rfl⟩
    rw [toList_editHeader hb _ (fun buf => Header.size_setCount buf sec _),hset]

theorem writeRecord_eq_ok {w w' : Writer} {name : Name} {rclass : RecordClass} {ttl : UInt32}
    {data : RecordData} (h : writeRecord w name rclass ttl data = .ok w') :
    data.StringsFit ∧ data.toWire.length ≤ 65535 ∧
      w'.toList = w.toList ++ (ResourceRecord.new name rclass ttl data).toWire := by
  unfold writeRecord at h
  generalize hw₁ : (((name.writeTo w).writeU16 data.rtype.code).writeU16 rclass.code).writeU32 ttl = w₁ at h
  obtain ⟨w₃,h₃,h'⟩ := Except.bind_eq_ok h
  obtain ⟨hs,e₃⟩ := RecordData.writeTo_eq_ok h₃
  -- the data stands after the envelope and the two placeholder bytes of its length
  have e₃' : w₃.toList = w₁.toList ++ 0 :: 0 :: data.toWire := by
    rw [e₃]
    simp [BigEndian.ofUInt16]
  have hsize : w₃.position - (w₁.writeU16 0).position = data.toWire.length := by
    simp [Writer.position_eq,e₃']
    omega
  simp only [hsize] at h'
  split at h'
  · simp [throw,throwThe,MonadExceptOf.throw,bind,Except.bind] at h'
  · rename_i hle
    cases h'
    refine ⟨hs,by omega,?_⟩
    rw [Writer.position_eq,Writer.toList_writeU16At e₃',← hw₁]
    simp [ResourceRecord.toWire,ResourceRecord.wireInfo,ResourceRecord.new,RecordInfo.toWire]

theorem addQuestion_eq_ok {b b' : Builder} {order : b.stage.rank ≤ Section.question.rank}
    {q : Question} {h : Header} {body : List UInt8} (hb : b.writer.toList = h.toBytes ++ body)
    (hc : b.addQuestion order q.qname q.qtype q.qclass = .ok b') :
    h.countOf .question ≠ 0xFFFF ∧
      b'.writer.toList = (h.withCount .question (h.countOf .question+1)).toBytes ++ (body ++ q.toWire) ∧
      b'.stage = .question ∧ b'.maxSize = b.maxSize :=
  count_eq_ok (by simp [hb]) hc

theorem addRecord_eq_ok {b b' : Builder} {sec : Section} {order : b.stage.rank ≤ sec.rank}
    {name : Name} {rclass : RecordClass} {ttl : UInt32} {data : RecordData} {h : Header}
    {body : List UInt8} (hb : b.writer.toList = h.toBytes ++ body)
    (hc : b.addRecord sec order name rclass ttl data = .ok b') :
    data.StringsFit ∧ data.toWire.length ≤ 65535 ∧ h.countOf sec ≠ 0xFFFF ∧
      b'.writer.toList = (h.withCount sec (h.countOf sec+1)).toBytes ++
        (body ++ (ResourceRecord.new name rclass ttl data).toWire) ∧
      b'.stage = sec ∧ b'.maxSize = b.maxSize := by
  obtain ⟨w,hw,hc'⟩ := Except.bind_eq_ok hc
  obtain ⟨hs,hlen,hwl⟩ := writeRecord_eq_ok hw
  exact ⟨hs,hlen,count_eq_ok (by simp [hwl,hb]) hc'⟩

end Builder

/-! ### Builds -/

theorem Section.eq_question_of_rank_le {s : Section} (h : s.rank ≤ Section.question.rank) :
    s = .question := by
  cases s <;> simp_all [Section.rank]

/-- How a message is started: as a query or as a response. -/
inductive Start where
  | query (id : UInt16) (recursion : Bool)
  | response (id : UInt16) (recursion authoritative : Bool)

namespace Start

/-- The header a build starts with. -/
def header : Start → Header
  | .query id recursion => { Builder.blankHeader id with recursionDesired := recursion }
  | .response id recursion authoritative =>
    { Builder.blankHeader id with
      query := false, authoritative, recursionDesired := recursion, recursionAvailable := recursion }

/-- The builder a build starts with. -/
def builder : Start → Builder
  | .query id recursion => Builder.newQuery id recursion
  | .response id recursion authoritative => Builder.newResponse id recursion authoritative

theorem builder_eq (s : Start) : s.builder = Builder.ofHeader s.header := by
  cases s <;> rfl

end Start

/-- One call on a started builder. -/
inductive BuildStep where
  | question (q : Question)
  | record (sec : Section) (name : Name) (rclass : RecordClass) (ttl : UInt32) (data : RecordData)
  | responseCode (code : ResponseCode)
  | truncate

/-- The names of a step are valid and its data is well formed. -/
def BuildStep.WellFormed : BuildStep → Prop
  | .question q => q.qname.Valid
  | .record _ name _ _ data => name.Valid ∧ data.WellFormed
  | .responseCode _ | .truncate => True

instance : DecidablePred BuildStep.WellFormed := fun s =>
  match s with
  | .question q => inferInstanceAs (Decidable q.qname.Valid)
  | .record _ name _ _ data => inferInstanceAs (Decidable (name.Valid ∧ data.WellFormed))
  | .responseCode _ | .truncate => inferInstanceAs (Decidable True)

namespace Builder

/-- Takes a step. A question after a record, a record in a section before the current one and a
record in the question section are no steps, and a step that fails to write is none either. -/
def step? (b : Builder) : BuildStep → Option Builder
  | .question q =>
    if h : b.stage.rank ≤ Section.question.rank then
      (b.addQuestion h q.qname q.qtype q.qclass).toOption
    else none
  | .record sec name rclass ttl data =>
    if h : b.stage.rank ≤ sec.rank ∧ sec ≠ .question then
      (b.addRecord sec h.1 name rclass ttl data).toOption
    else none
  | .responseCode code => some (b.setResponseCode code)
  | .truncate => some b.setTruncated

/-- Takes steps one after another, as long as each succeeds. -/
def run? (b : Builder) : List BuildStep → Option Builder
  | [] => some b
  | s :: ss => (b.step? s).bind fun b' => b'.run? ss

end Builder

/-- What the steps of a build put in a message: the header as edited, and the entries of each
section in the order they were added. -/
structure Message where
  header : Header
  questions : List Question
  answers : List ResourceRecord
  nameservers : List ResourceRecord
  additional : List ResourceRecord

namespace Message

def empty (h : Header) : Message := ⟨h,[],[],[],[]⟩

/-- The records of a section; the question section holds none. -/
def records (m : Message) : Section → List ResourceRecord
  | .question => []
  | .answer => m.answers
  | .authority => m.nameservers
  | .additional => m.additional

def count (m : Message) : Section → Nat
  | .question => m.questions.length
  | .answer => m.answers.length
  | .authority => m.nameservers.length
  | .additional => m.additional.length

/-- The message with a record added at the end of a section. -/
def addRecord (m : Message) (rr : ResourceRecord) : Section → Message
  | .question => m
  | .answer => { m with answers := m.answers ++ [rr] }
  | .authority => { m with nameservers := m.nameservers ++ [rr] }
  | .additional => { m with additional := m.additional ++ [rr] }

/-- What a step adds to a message. -/
def step (m : Message) : BuildStep → Message
  | .question q => { m with questions := m.questions ++ [q] }
  | .record sec name rclass ttl data => m.addRecord (ResourceRecord.new name rclass ttl data) sec
  | .responseCode code =>
    { m with header := { m.header with responseCode := .wire (code.wireValue &&& 0x000F) } }
  | .truncate => { m with header := { m.header with truncated := true } }

/-- The message a build describes. -/
def build (start : Start) (steps : List BuildStep) : Message :=
  steps.foldl step (empty start.header)

/-- The header on the wire: the header with the number of entries of each section. -/
def wireHeader (m : Message) : Header :=
  { m.header with
    questions := m.questions.length.toUInt16, answers := m.answers.length.toUInt16,
    nameservers := m.nameservers.length.toUInt16, additional := m.additional.length.toUInt16 }

/-- The entries on the wire, section after section. -/
def body (m : Message) : List UInt8 :=
  m.questions.flatMap Question.toWire ++ m.answers.flatMap ResourceRecord.toWire ++
    m.nameservers.flatMap ResourceRecord.toWire ++ m.additional.flatMap ResourceRecord.toWire

theorem countOf_wireHeader (m : Message) (sec : Section) :
    m.wireHeader.countOf sec = (m.count sec).toUInt16 := by
  cases sec <;> rfl

theorem wireHeader_question (m : Message) (q : Question) :
    (m.step (.question q)).wireHeader =
      m.wireHeader.withCount .question (m.wireHeader.countOf .question+1) := by
  simp [step,wireHeader,Header.withCount,Header.countOf]

theorem wireHeader_addRecord (m : Message) (rr : ResourceRecord) {sec : Section}
    (hs : sec ≠ .question) :
    (m.addRecord rr sec).wireHeader = m.wireHeader.withCount sec (m.wireHeader.countOf sec+1) := by
  cases sec
  · exact absurd rfl hs
  all_goals simp [addRecord,wireHeader,Header.withCount,Header.countOf]

theorem count_addRecord_self (m : Message) (rr : ResourceRecord) {sec : Section}
    (hs : sec ≠ .question) : (m.addRecord rr sec).count sec = m.count sec+1 := by
  cases sec
  · exact absurd rfl hs
  all_goals simp [addRecord,count]

theorem count_addRecord_of_ne (m : Message) (rr : ResourceRecord) {sec sec' : Section}
    (hs : sec' ≠ sec) : (m.addRecord rr sec).count sec' = m.count sec' := by
  cases sec <;> cases sec' <;> first | exact absurd rfl hs | rfl

@[simp] theorem header_addRecord (m : Message) (rr : ResourceRecord) (sec : Section) :
    (m.addRecord rr sec).header = m.header := by
  cases sec <;> rfl

@[simp] theorem questions_addRecord (m : Message) (rr : ResourceRecord) (sec : Section) :
    (m.addRecord rr sec).questions = m.questions := by
  cases sec <;> rfl

theorem mem_records_addRecord {m : Message} {rr rr' : ResourceRecord} {sec sec' : Section}
    (h : rr' ∈ (m.addRecord rr sec).records sec') : rr' ∈ m.records sec' ∨ rr' = rr := by
  cases sec <;> cases sec' <;> simp_all [addRecord,records]

theorem body_addRecord (m : Message) (rr : ResourceRecord) {sec : Section} (hs : sec ≠ .question)
    (hlater : ∀ sec', sec.rank < sec'.rank → m.count sec' = 0) :
    (m.addRecord rr sec).body = m.body ++ rr.toWire := by
  cases sec
  · exact absurd rfl hs
  all_goals
    have h₂ := hlater .authority
    have h₃ := hlater .additional
    simp_all [addRecord,body,count,Section.rank]

theorem body_question (m : Message) (q : Question)
    (hlater : ∀ sec, Section.question.rank < sec.rank → m.count sec = 0) :
    (m.step (.question q)).body = m.body ++ q.toWire := by
  have h₁ := hlater .answer
  have h₂ := hlater .authority
  have h₃ := hlater .additional
  simp_all [step,body,count,Section.rank]

end Message

theorem and_fifteen_lt (x : UInt16) : x &&& 0x000F < 16 := by
  have h : x.toNat &&& 15 ≤ 15 := Nat.and_le_right
  rw [UInt16.lt_iff_toNat_lt,UInt16.toNat_and]
  simp
  omega

theorem Except.eq_ok_of_toOption {ε α : Type} {x : Except ε α} {a : α} (h : x.toOption = some a) :
    x = .ok a := by
  cases x with
  | error e => cases h
  | ok a' => cases h; rfl

/-! ### The invariant of a build -/

/-- A builder holds a message: its bytes are the header with the counts of the sections and then
the entries in order, every count fits its word, no section after the current one has an entry,
every entry reads back, and no maximum size is set. -/
structure Holds (b : Builder) (m : Message) : Prop where
  bytes : b.writer.toList = m.wireHeader.toBytes ++ m.body
  fits : m.header.Fits
  counts : ∀ sec, m.count sec < 65536
  later : ∀ sec, b.stage.rank < sec.rank → m.count sec = 0
  questions : ∀ q ∈ m.questions, q.qname.Valid
  records : ∀ sec, ∀ rr ∈ m.records sec, rr.Readable
  maxSize : b.maxSize = none

namespace Holds

theorem start (s : Start) : Holds s.builder (Message.empty s.header) where
  bytes := by
    have hw : (Message.empty s.header).wireHeader = s.header := by cases s <;> rfl
    rw [Start.builder_eq,hw,Builder.ofHeader,Writer.toList_writeBytes]
    simp [Message.body,Message.empty,Writer.toList_new]
  fits := by cases s <;> exact ⟨(by decide : Opcode.query.code < 16),0,by decide,rfl⟩
  counts := fun sec => by cases sec <;> simp [Message.empty,Message.count]
  later := fun sec _ => by cases sec <;> rfl
  questions := fun _ h => by cases h
  records := fun sec _ h => by cases sec <;> cases h
  maxSize := by cases s <;> rfl

theorem succ_lt_of_toUInt16_ne {n : Nat} (hn : n < 65536) (h : n.toUInt16 ≠ 0xFFFF) : n+1 < 65536 := by
  have : n ≠ 65535 := fun e => h (by rw [e]; rfl)
  omega

theorem question {b b' : Builder} {m : Message} {q : Question} (h : Holds b m) (hq : q.qname.Valid)
    (hb : b.step? (.question q) = some b') : Holds b' (m.step (.question q)) := by
  simp only [Builder.step?] at hb
  split at hb
  · next hr =>
      have hstage : b.stage = .question := Section.eq_question_of_rank_le hr
      have hlater : ∀ sec, Section.question.rank < sec.rank → m.count sec = 0 :=
        fun sec hs => h.later sec (by rw [hstage]; exact hs)
      obtain ⟨hfull,hbytes,hstage',hmax⟩ :=
        Builder.addQuestion_eq_ok h.bytes (Except.eq_ok_of_toOption hb)
      rw [Message.countOf_wireHeader] at hfull
      have hroom := succ_lt_of_toUInt16_ne (h.counts .question) hfull
      refine ⟨?_,h.fits,?_,?_,?_,h.records,hmax.trans h.maxSize⟩
      · rw [hbytes,Message.wireHeader_question,Message.countOf_wireHeader,Message.body_question m q hlater]
      · intro sec
        cases sec with
        | question => simpa [Message.step,Message.count] using hroom
        | answer => exact h.counts .answer
        | authority => exact h.counts .authority
        | additional => exact h.counts .additional
      · intro sec hs
        rw [hstage'] at hs
        cases sec
        · simp [Section.rank] at hs
        all_goals exact hlater _ hs
      · intro q' hq'
        simp only [Message.step,List.mem_append,List.mem_singleton] at hq'
        rcases hq' with hq' | rfl
        · exact h.questions q' hq'
        · exact hq
  · cases hb

theorem record {b b' : Builder} {m : Message} {sec : Section} {name : Name} {rclass : RecordClass}
    {ttl : UInt32} {data : RecordData} (h : Holds b m) (hn : name.Valid) (hd : data.WellFormed)
    (hb : b.step? (.record sec name rclass ttl data) = some b') :
    Holds b' (m.addRecord (ResourceRecord.new name rclass ttl data) sec) := by
  simp only [Builder.step?] at hb
  split at hb
  · next hr =>
      obtain ⟨hrank,hsq⟩ := hr
      have hlater : ∀ sec', sec.rank < sec'.rank → m.count sec' = 0 :=
        fun sec' hs => h.later sec' (by omega)
      obtain ⟨hs,hlen,hfull,hbytes,hstage,hmax⟩ :=
        Builder.addRecord_eq_ok h.bytes (Except.eq_ok_of_toOption hb)
      rw [Message.countOf_wireHeader] at hfull
      have hroom := succ_lt_of_toUInt16_ne (h.counts sec) hfull
      refine ⟨?_,by simpa using h.fits,?_,?_,by simpa using h.questions,?_,hmax.trans h.maxSize⟩
      · rw [hbytes,Message.wireHeader_addRecord _ _ hsq,Message.countOf_wireHeader,
          Message.body_addRecord _ _ hsq hlater]
      · intro sec'
        by_cases he : sec' = sec
        · rw [he,Message.count_addRecord_self _ _ hsq]
          exact hroom
        · rw [Message.count_addRecord_of_ne _ _ he]
          exact h.counts sec'
      · intro sec' hs'
        have hs'' : sec.rank < sec'.rank := by simpa [hstage] using hs'
        have he : sec' ≠ sec := fun e => by rw [e] at hs''; omega
        rw [Message.count_addRecord_of_ne _ _ he]
        exact hlater sec' hs''
      · intro sec' rr hrr
        rcases Message.mem_records_addRecord hrr with hrr | rfl
        · exact h.records sec' rr hrr
        · exact ⟨hn,rfl,hd,hs,Nat.lt_succ_of_le hlen⟩
  · cases hb

theorem responseCode {b : Builder} {m : Message} (h : Holds b m) (code : ResponseCode) :
    Holds (b.setResponseCode code) (m.step (.responseCode code)) where
  bytes := by
    have hset := Header.setResponseCode_toBytes m.wireHeader code []
    simp only [List.append_nil] at hset
    simp only [Builder.setResponseCode]
    rw [Builder.toList_editHeader h.bytes _ (fun buf => Header.size_setResponseCode buf code),hset]
    rfl
  fits := ⟨h.fits.1,_,and_fifteen_lt _,rfl⟩
  counts := h.counts
  later := h.later
  questions := h.questions
  records := h.records
  maxSize := h.maxSize

theorem truncate {b : Builder} {m : Message} (h : Holds b m) :
    Holds b.setTruncated (m.step .truncate) where
  bytes := by
    have hset := Header.setTruncated_toBytes m.wireHeader []
    simp only [List.append_nil] at hset
    simp only [Builder.setTruncated]
    rw [Builder.toList_editHeader h.bytes _ Header.size_setTruncated,hset]
    rfl
  fits := h.fits
  counts := h.counts
  later := h.later
  questions := h.questions
  records := h.records
  maxSize := h.maxSize

theorem step {b b' : Builder} {m : Message} {s : BuildStep} (h : Holds b m) (hs : s.WellFormed)
    (hb : b.step? s = some b') : Holds b' (m.step s) := by
  cases s with
  | question q => exact h.question hs hb
  | record sec name rclass ttl data => exact h.record hs.1 hs.2 hb
  | responseCode code =>
      cases hb
      exact h.responseCode code
  | truncate =>
      cases hb
      exact h.truncate

theorem run {b b' : Builder} {m : Message} {steps : List BuildStep} (h : Holds b m)
    (hs : ∀ s ∈ steps, s.WellFormed) (hb : b.run? steps = some b') :
    Holds b' (steps.foldl Message.step m) := by
  induction steps generalizing b m with
  | nil =>
      cases hb
      exact h
  | cons s ss ih =>
      simp only [Builder.run?] at hb
      obtain ⟨b₁,h₁,h₂⟩ := Option.bind_eq_some_iff.1 hb
      exact ih (h.step (hs s (by simp)) h₁) (fun s' hs' => hs s' (by simp [hs'])) h₂

end Holds

/-! ### Parsing the built message -/

namespace Response

/-- The read of the sections of a message whose header is known. -/
def readSections (f : RecordFactory) (header : Header) :
    ReadM (List Question × List ResourceRecord × List ResourceRecord × List ResourceRecord) := do
  Reader.skip Header.size
  let qs ← readTimes Question.parse header.questions.toNat
  let an ← readTimes f.parseRecord header.answers.toNat
  let ns ← readTimes f.parseRecord header.nameservers.toNat
  let ad ← readTimes f.parseRecord header.additional.toNat
  pure (qs,an,ns,ad)

/-- A response from its header and entries: the response code is extended, and the payload
size taken, from the first OPT record of the additional section. -/
def ofParts (header : Header) (qs : List Question) (an ns ad : List ResourceRecord) (size : Nat) :
    Response :=
  let opt := ad.find? fun rr => rr.rtype == .opt
  let code := match opt with
    | some o => ResponseCode.wire (((o.ttl >>> 24).toUInt16 <<< 4) ||| header.responseCode.wireValue)
    | none => header.responseCode
  ⟨header,code,qs,an,ns,ad,opt.map fun o => o.rclass.code,size⟩

theorem parse_eq (data : ByteArray) (f : RecordFactory) :
    parse data f = (Header.parse data >>= fun header =>
      match readSections f header (Reader.new data) with
      | .error e _ => .error e
      | .ok (qs,an,ns,ad) _ => .ok (ofParts header qs an ns ad data.size)) :=
  rfl

end Response

/-- What parsing a built message gives: its header with the counts of the sections, its
questions, and its records as a reader gets them back; the response code and the payload size
as the first OPT record of the additional section gives them. -/
def Message.response (m : Message) (size : Nat) : Response :=
  Response.ofParts m.wireHeader m.questions (m.answers.map ResourceRecord.received)
    (m.nameservers.map ResourceRecord.received) (m.additional.map ResourceRecord.received) size

namespace Holds

theorem toNat_count {b : Builder} {m : Message} (h : Holds b m) (sec : Section) :
    (m.count sec).toUInt16.toNat = m.count sec := by
  have := h.counts sec
  simp only [Nat.toUInt16_eq,UInt16.toNat_ofNat']
  omega

theorem reads_records {b : Builder} {m : Message} (h : Holds b m) (sec : Section) (p : Nat) :
    Reads p (Response.readTimes RecordFactory.new.parseRecord (m.records sec).length)
      ((m.records sec).flatMap ResourceRecord.toWire) ((m.records sec).map ResourceRecord.received) :=
  reads_readTimes _ _ _ (fun rr hrr q => ResourceRecord.reads_parseRecord (h.records sec rr hrr) q) p

theorem reads_readSections {b : Builder} {m : Message} (h : Holds b m) :
    Reads 0 (Response.readSections RecordFactory.new m.wireHeader) (m.wireHeader.toBytes ++ m.body)
      (m.questions,m.answers.map ResourceRecord.received,m.nameservers.map ResourceRecord.received,
        m.additional.map ResourceRecord.received) := by
  have hskip : Reads 0 (Reader.skip Header.size) m.wireHeader.toBytes () := by
    have hlen : m.wireHeader.toBytes.length = Header.size := by simp [Header.toBytes,Header.size]
    exact hlen ▸ reads_skip 0 m.wireHeader.toBytes
  have hqs : ∀ p, Reads p (Response.readTimes Question.parse m.questions.length)
      (m.questions.flatMap Question.toWire) m.questions := fun p => by
    simpa using reads_readTimes Question.toWire id m.questions
      (fun q hq p => Question.reads_parse (h.questions q hq) p) p
  have hq := h.toNat_count .question
  have ha := h.toNat_count .answer
  have hn := h.toNat_count .authority
  have hd := h.toNat_count .additional
  simp only [Message.count] at hq ha hn hd
  simp only [Response.readSections,Message.wireHeader,hq,ha,hn,hd,Message.body,List.append_assoc]
  apply Reads.bind hskip
  apply Reads.bind (hqs _)
  apply Reads.bind (h.reads_records .answer _)
  apply Reads.bind (h.reads_records .authority _)
  exact Reads.bind_pure (h.reads_records .additional _)

theorem parse {b : Builder} {m : Message} (h : Holds b m) :
    Response.parse b.build.bytes.toByteArray RecordFactory.new = .ok (m.response b.build.bytes.length) := by
  have hbuild : b.build.bytes = m.wireHeader.toBytes ++ m.body := by
    simp [Builder.build,h.maxSize,h.bytes]
  have hahead : (Reader.new (m.wireHeader.toBytes ++ m.body).toByteArray).Ahead
      (m.wireHeader.toBytes ++ m.body) :=
    ahead_of_append (show _ = [] ++ _ ++ [] by simp [Reader.new]) rfl (by simp [Reader.new])
  obtain ⟨r',hr',-⟩ := h.reads_readSections _ rfl hahead
  rw [hbuild,Response.parse_eq,Header.parse_toBytes (show m.wireHeader.Fits from h.fits)]
  simp only [bind,Except.bind]
  rw [hr']
  simp [Message.response]

end Holds

/-- A message started as a query or a response and built by steps that all succeed, with valid
names and well-formed data, parses with the built-in record parsers as the message the steps
describe: the header as edited with the numbers of entries as counts, the questions, and in each
section the records in the order added, each with its RDATA length filled in and its NSEC or NSEC3
types in ascending order (`RecordData.normalize_eq_self`: unchanged if they were already). -/
theorem parse_build {start : Start} {steps : List BuildStep} {b : Builder}
    (hsteps : ∀ s ∈ steps, s.WellFormed) (hrun : start.builder.run? steps = some b) :
    Response.parse b.build.bytes.toByteArray RecordFactory.new =
      .ok ((Message.build start steps).response b.build.bytes.length) :=
  ((Holds.start start).run hsteps hrun).parse

theorem parse_build_answered :
    let name : Name := ⟨[[119,119,119],[101,120,97,109,112,108,101]]⟩
    let steps := [BuildStep.question ⟨name,RecordType.a,RecordClass.inet⟩,
      .record .answer name RecordClass.inet 300 (.a (Ipv4Address.ofOctets 192 0 2 1)),
      .record .authority name RecordClass.inet 60 (.nsec name [RecordType.mx,RecordType.a,RecordType.caa]),
      .record .additional Name.root ⟨1232⟩ 0 (.opt []), .responseCode ResponseCode.noError, .truncate]
    (∀ s ∈ steps, s.WellFormed) ∧ ∃ b, (Start.response 7 true true).builder.run? steps = some b ∧
      Response.parse b.build.bytes.toByteArray RecordFactory.new =
        .ok ((Message.build (.response 7 true true) steps).response b.build.bytes.length) := by
  intro name steps
  have hw : ∀ s ∈ steps, s.WellFormed := by decide
  obtain ⟨b,hb⟩ := Option.isSome_iff_exists.1
    (by decide +kernel : ((Start.response 7 true true).builder.run? steps).isSome)
  exact ⟨hw,b,hb,parse_build hw hb⟩

end DnsStub
