import DnsStub.Message.Header
import DnsStub.Record.Info
import DnsStub.Record.Encode
/-!
# Building messages

A builder writes a message section by section: questions, then answers, then authority
records, then additional records. Adding to a section that comes before the latest one used is
ruled out by the section order argument of each step. Names are written uncompressed; the RDATA
length of each record is filled in after its data, which may take at most 65535 bytes. Every
entry added counts in the header, and a section holds at most 65535 entries.

A maximum size can be set: a message that ends up larger gets its TC bit set.

A request, the query sent to a name server, is built this way from one question, with its id,
the recursion desired flag and optionally an EDNS OPT record advertising a payload size.
-/
namespace DnsStub

/-- A message being built. -/
structure Builder where
  writer : Writer
  maxSize : Option Nat
  /-- The latest section written to. -/
  stage : Section

namespace Builder

/-- A builder over a written header. -/
def ofHeader (h : Header) : Builder :=
  ⟨Writer.new.writeBytes h.toBytes, none, .question⟩

/-- The header of a new message: a standard query, no flags, no error, empty sections. -/
def blankHeader (id : UInt16) : Header :=
  { id, query := true, opcode := Opcode.query, authoritative := false, truncated := false,
    recursionDesired := false, recursionAvailable := false, authenticatedData := false,
    checkingDisabled := false, responseCode := ResponseCode.noError, questions := 0,
    answers := 0, nameservers := 0, additional := 0 }

/-- A query; the only flag set is recursion desired, if asked for. -/
def newQuery (id : UInt16) (recursion : Bool) : Builder :=
  ofHeader { blankHeader id with recursionDesired := recursion }

/-- A response: recursion desired and available as asked, authoritative as asked. -/
def newResponse (id : UInt16) (recursion authoritative : Bool) : Builder :=
  let h := blankHeader id
  ofHeader { h with query := false, authoritative, recursionDesired := recursion, recursionAvailable := recursion }

def header (b : Builder) : ByteArray :=
  b.writer.front Header.size

/-- Rewrites the header bytes in place. -/
def editHeader (b : Builder) (f : ByteArray → ByteArray) : Builder :=
  { b with writer := b.writer.editFront Header.size f }

/-- Counts one more entry of a section, unless the section is full. -/
def count (b : Builder) (sec : Section) : Except WireError Builder :=
  match Header.nextCount? (Header.count b.header sec) with
  | none => .error (.sectionOverflow sec)
  | some n => .ok (b.editHeader (Header.setCount · sec n))

def addQuestion (b : Builder) (_order : b.stage.rank ≤ Section.question.rank) (qname : Name)
    (qtype : RecordType) (qclass : RecordClass) : Except WireError Builder :=
  let w := (Question.mk qname qtype qclass).writeTo b.writer
  count { b with writer := w, stage := .question } .question

/-- Writes a record: envelope, a placeholder for the RDATA length, the data, then the length. -/
def writeRecord (w : Writer) (name : Name) (rclass : RecordClass) (ttl : UInt32) (data : RecordData) :
    Except WireError Writer := do
  let w := (((name.writeTo w).writeU16 data.rtype.code).writeU16 rclass.code).writeU32 ttl
  let sizeOffset := w.position
  let w := w.writeU16 0
  let dataOffset := w.position
  let w ← data.writeTo w
  let size := w.position - dataOffset
  if 65535 < size then throw (.rdataTooLong size)
  pure (w.writeU16At sizeOffset size.toUInt16)

/-- Adds a record to the answer, authority or additional section. -/
def addRecord (b : Builder) (sec : Section) (_order : b.stage.rank ≤ sec.rank) (name : Name)
    (rclass : RecordClass) (ttl : UInt32) (data : RecordData) : Except WireError Builder := do
  let w ← writeRecord b.writer name rclass ttl data
  count { b with writer := w, stage := sec } sec

/-- Counting an entry keeps the section of the builder. -/
theorem stage_count {b b' : Builder} {sec : Section} (h : b.count sec = .ok b') :
    b'.stage = b.stage := by
  unfold count at h
  split at h
  · cases h
  · cases h
    rfl

/-- A builder that added a record is at the section of the record. -/
theorem stage_addRecord {b b' : Builder} {sec : Section} {order : b.stage.rank ≤ sec.rank}
    {name : Name} {rclass : RecordClass} {ttl : UInt32} {data : RecordData}
    (h : b.addRecord sec order name rclass ttl data = .ok b') : b'.stage = sec := by
  unfold addRecord at h
  simp only [bind, Except.bind] at h
  split at h
  · cases h
  · exact stage_count h

/-- Adds copies of one record to the answer section. -/
def addAnswerCopies (b : Builder) (order : b.stage.rank ≤ Section.answer.rank) (name : Name)
    (rclass : RecordClass) (ttl : UInt32) (data : RecordData) : Nat → Except WireError Builder
  | 0 => .ok b
  | n + 1 =>
    match h : b.addRecord .answer order name rclass ttl data with
    | .error e => .error e
    | .ok b' => addAnswerCopies b' (Nat.le_of_eq (congrArg Section.rank (stage_addRecord h))) name rclass ttl data n

/-- Adds an EDNS OPT pseudo-record advertising a payload size. -/
def addOpt (b : Builder) (payloadSize : UInt16) : Except WireError Builder :=
  b.addRecord .additional (by cases b.stage <;> decide) Name.root ⟨payloadSize⟩ 0 (.opt [])

/-- Replaces the response code bits of the header. -/
def setResponseCode (b : Builder) (code : ResponseCode) : Builder :=
  b.editHeader (Header.setResponseCode · code)

def setTruncated (b : Builder) : Builder :=
  b.editHeader Header.setTruncated

def setMaxSize (b : Builder) (size : Option Nat) : Builder :=
  { b with maxSize := size }

/-- No section has an entry. -/
def isEmpty (b : Builder) : Bool :=
  [Section.question, .answer, .authority, .additional].all fun s => Header.count b.writer.bytes s == 0

/-- The bytes of a finished message, and whether it passed the maximum size. -/
structure Packet where
  bytes : List UInt8
  oversized : Bool

/-- Finishes the message; one larger than the maximum size gets its TC bit set. -/
def build (b : Builder) : Packet :=
  match b.maxSize with
  | some m => if m < b.writer.position then ⟨b.setTruncated.writer.toList, true⟩
    else ⟨b.writer.toList, false⟩
  | none => ⟨b.writer.toList, false⟩

end Builder

/-- A query to send to a name server. -/
structure Request where
  id : UInt16
  question : Question
  recursionDesired : Bool := true
  ednsPayloadSize : Option UInt16 := none
  deriving Inhabited

namespace Request

/-- The wire form of the query. -/
def encode (r : Request) : Except WireError (List UInt8) := do
  let b ← (Builder.newQuery r.id r.recursionDesired).addQuestion (Nat.le_refl _)
    r.question.qname r.question.qtype r.question.qclass
  match r.ednsPayloadSize with
  | some size => pure (← b.addOpt size).build.bytes
  | none => pure b.build.bytes

end Request

end DnsStub
