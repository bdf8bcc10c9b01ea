import DnsStub.Name.Scan
import DnsStub.Record.Data
import DnsStub.Registry
/-!
# Questions and record envelopes

A question asks for a name, type and class. Every resource record starts with an envelope:
owner name, type, class, TTL and the length of its RDATA. TTLs are kept as received.
-/
namespace DnsStub

/-- A question: which records of which name are wanted. -/
structure Question where
  qname : Name
  qtype : RecordType
  qclass : RecordClass
  deriving Inhabited

instance : BEq Question := ⟨fun a b => a.qname == b.qname && a.qtype == b.qtype && a.qclass == b.qclass⟩

namespace Question

/-- Reads a question: a possibly compressed name, then type and class. -/
def parse : ReadM Question := do
  let qname ← Reader.readName
  let qtype ← Reader.readU16
  let qclass ← Reader.readU16
  pure ⟨qname, ⟨qtype⟩, ⟨qclass⟩⟩

/-- Writes a question with its name uncompressed. -/
def writeTo (q : Question) (w : Writer) : Writer :=
  ((q.qname.writeTo w).writeU16 q.qtype.code).writeU16 q.qclass.code

end Question

/-- The envelope of a resource record, up to and including the RDATA length. -/
structure RecordInfo where
  name : Name
  rtype : RecordType
  rclass : RecordClass
  ttl : UInt32
  rdlength : UInt16
  deriving Inhabited

namespace RecordInfo

def parse : ReadM RecordInfo := do
  let name ← Reader.readName
  let rtype ← Reader.readU16
  let rclass ← Reader.readU16
  let ttl ← Reader.readU32
  let rdlength ← Reader.readU16
  pure ⟨name, ⟨rtype⟩, ⟨rclass⟩, ttl, rdlength⟩

end RecordInfo

/-- A resource record: its envelope and its data. -/
structure ResourceRecord where
  info : RecordInfo
  data : RecordData
  deriving Inhabited

namespace ResourceRecord

/-- A record to send: its type comes from the data, and its RDATA length is filled in when it
is written. -/
def new (name : Name) (rclass : RecordClass) (ttl : UInt32) (data : RecordData) : ResourceRecord :=
  ⟨⟨name, data.rtype, rclass, ttl, 0⟩, data⟩

def name (rr : ResourceRecord) : Name := rr.info.name
def rtype (rr : ResourceRecord) : RecordType := rr.info.rtype
def rclass (rr : ResourceRecord) : RecordClass := rr.info.rclass
def ttl (rr : ResourceRecord) : UInt32 := rr.info.ttl

end ResourceRecord

end DnsStub
