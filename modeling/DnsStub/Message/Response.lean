import DnsStub.Message.Header
import DnsStub.Record.Decode
/-!
# Responses

A parsed message: its header, its questions and the records of its three record sections.
The response code is the header's four bits extended by the first OPT record of the additional
section, whose TTL carries the upper eight bits and whose class the advertised payload size.
-/
namespace DnsStub

/-- A parsed message. -/
structure Response where
  header : Header
  /-- The full response code, extended by an OPT record if there is one. -/
  responseCode : ResponseCode
  questions : List Question
  answers : List ResourceRecord
  nameservers : List ResourceRecord
  additional : List ResourceRecord
  /-- The payload size advertised by the OPT record. -/
  ednsPayloadSize : Option UInt16
  /-- The length of the message. -/
  size : Nat
  deriving Inhabited

namespace Response

/-- Runs a read the given number of times. -/
def readTimes {α : Type} (m : ReadM α) : Nat → ReadM (List α)
  | 0 => pure []
  | n + 1 => do
    let a ← m
    let rest ← readTimes m n
    pure (a :: rest)

/-- Parses a whole message, reading records with the factory. -/
def parse (data : ByteArray) (f : RecordFactory) : Except WireError Response := do
  let header ← Header.parse data
  let body : ReadM (List Question × List ResourceRecord × List ResourceRecord × List ResourceRecord) := do
    Reader.skip Header.size
    let qs ← readTimes Question.parse header.questions.toNat
    let an ← readTimes f.parseRecord header.answers.toNat
    let ns ← readTimes f.parseRecord header.nameservers.toNat
    let ad ← readTimes f.parseRecord header.additional.toNat
    pure (qs, an, ns, ad)
  match body (Reader.new data) with
  | .error e _ => .error e
  | .ok (qs, an, ns, ad) _ =>
    let opt := ad.find? fun rr => rr.rtype == .opt
    let code := match opt with
      | some o => ResponseCode.wire (((o.ttl >>> 24).toUInt16 <<< 4) ||| header.responseCode.wireValue)
      | none => header.responseCode
    .ok ⟨header, code, qs, an, ns, ad, opt.map fun o => o.rclass.code, data.size⟩

def id (r : Response) : UInt16 := r.header.id

def isTruncated (r : Response) : Bool := r.header.truncated

def question? (r : Response) : Option Question := r.questions.head?

/-- The records of the answer, authority and additional sections, in order. -/
def records (r : Response) : List ResourceRecord := r.answers ++ r.nameservers ++ r.additional

/-- The data of the answer records of a type. -/
def answersOf (r : Response) (t : RecordType) : List RecordData :=
  (r.answers.filter fun rr => rr.rtype == t).map (·.data)

/-- The smallest TTL of all records other than OPT, or zero when there is none. -/
def minTtl (r : Response) : UInt32 :=
  match (r.records.filter fun rr => rr.rtype != .opt).map (·.ttl) with
  | [] => 0
  | t :: ts => ts.foldl min t

end Response

end DnsStub
