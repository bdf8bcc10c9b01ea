import DnsStub.Text.Ascii
/-!
# Registries of codes

A registry lists the numeric codes of one protocol field that have a mnemonic. A code without
a mnemonic is written as a generic prefix followed by its decimal value, for instance
"TYPE4242". Mnemonics are looked up ignoring ASCII case, in registration order.

Record types, record classes and opcodes are sixteen-bit codes, every one of them a value of
its field. A response code is either a value a server sent, up to twelve bits once an OPT
record extends the four header bits, or the local verdict that no server answered at all,
which has no wire value and is written as zero.
-/
namespace DnsStub

/-- The codes of one protocol field that have a mnemonic, and the prefix of the generic form. -/
structure Registry where
  entries : List (UInt16 × String)
  generic : String

namespace Registry

/-- The mnemonic registered for a code. -/
def mnemonic? (r : Registry) (code : UInt16) : Option String :=
  (r.entries.find? (fun e => e.1 == code)).map Prod.snd

/-- The first code whose mnemonic equals the text ignoring ASCII case. -/
def code? (r : Registry) (text : String) : Option UInt16 :=
  (r.entries.find? (fun e => Ascii.eqIgnoreCase e.2 text)).map Prod.fst

/-- The mnemonic of a code, or the generic prefix followed by the decimal code. -/
def display (r : Registry) (code : UInt16) : String :=
  match r.mnemonic? code with
  | some m => m
  | none => r.generic ++ toString code.toNat

end Registry

/-! ## Record types -/

/-- The type of a resource record or of a question, as its wire code. -/
structure RecordType where
  code : UInt16
  deriving DecidableEq, Hashable, Repr, Inhabited

namespace RecordType

def a : RecordType := ⟨1⟩
def ns : RecordType := ⟨2⟩
def cname : RecordType := ⟨5⟩
def soa : RecordType := ⟨6⟩
def mb : RecordType := ⟨7⟩
def mg : RecordType := ⟨8⟩
def mr : RecordType := ⟨9⟩
def null : RecordType := ⟨10⟩
def ptr : RecordType := ⟨12⟩
def hinfo : RecordType := ⟨13⟩
def minfo : RecordType := ⟨14⟩
def mx : RecordType := ⟨15⟩
def txt : RecordType := ⟨16⟩
def rp : RecordType := ⟨17⟩
def afsdb : RecordType := ⟨18⟩
def aaaa : RecordType := ⟨28⟩
def srv : RecordType := ⟨33⟩
def naptr : RecordType := ⟨35⟩
def dname : RecordType := ⟨39⟩
def opt : RecordType := ⟨41⟩
def ds : RecordType := ⟨43⟩
def sshfp : RecordType := ⟨44⟩
def rrsig : RecordType := ⟨46⟩
def nsec : RecordType := ⟨47⟩
def dnskey : RecordType := ⟨48⟩
def nsec3 : RecordType := ⟨50⟩
def nsec3param : RecordType := ⟨51⟩
def tlsa : RecordType := ⟨52⟩
def cds : RecordType := ⟨59⟩
def cdnskey : RecordType := ⟨60⟩
def spf : RecordType := ⟨99⟩
def ixfr : RecordType := ⟨251⟩
def axfr : RecordType := ⟨252⟩
def mailb : RecordType := ⟨253⟩
/-- The query type that asks for all records. -/
def any : RecordType := ⟨255⟩
def uri : RecordType := ⟨256⟩
def caa : RecordType := ⟨257⟩

def registry : Registry where
  entries := [(1, "A"), (2, "NS"), (5, "CNAME"), (6, "SOA"), (7, "MB"), (8, "MG"), (9, "MR"),
    (10, "NULL"), (12, "PTR"), (13, "HINFO"), (14, "MINFO"), (15, "MX"), (16, "TXT"),
    (17, "RP"), (18, "AFSDB"), (28, "AAAA"), (33, "SRV"), (35, "NAPTR"), (39, "DNAME"),
    (41, "OPT"), (43, "DS"), (44, "SSHFP"), (46, "RRSIG"), (47, "NSEC"), (48, "DNSKEY"),
    (50, "NSEC3"), (51, "NSEC3PARAM"), (52, "TLSA"), (59, "CDS"), (60, "CDNSKEY"),
    (99, "SPF"), (251, "IXFR"), (252, "AXFR"), (253, "MAILB"), (255, "ANY"), (256, "URI"),
    (257, "CAA")]
  generic := "TYPE"

def mnemonic? (t : RecordType) : Option String :=
  registry.mnemonic? t.code

/-- The type whose mnemonic is the text, ignoring ASCII case. -/
def ofMnemonic? (text : String) : Option RecordType :=
  (registry.code? text).map RecordType.mk

/-- The type written as text: its mnemonic in any ASCII case, or "TYPE" and a decimal code. -/
def ofText? (s : String) : Option RecordType :=
  match ofMnemonic? s with
  | some t => some t
  | none =>
    let ds := s.toList.drop 4
    if s.toList.take 4 = "TYPE".toList ∧ ds ≠ [] ∧ ds.all Char.isDigit = true then
      let n := ds.foldl (fun acc c => acc * 10 + (c.toNat - 48)) (0 : Nat)
      if n < 65536 then some ⟨n.toUInt16⟩ else none
    else none

/-- The mnemonic, or "TYPE" and the decimal code. -/
def display (t : RecordType) : String :=
  registry.display t.code

instance : ToString RecordType := ⟨display⟩

end RecordType

/-! ## Record classes

The OPT pseudo-record reuses the class field for the payload size, which is then shown in the
same way. -/

/-- The class of a resource record or of a question, as its wire code. -/
structure RecordClass where
  code : UInt16
  deriving DecidableEq, Hashable, Repr, Inhabited

namespace RecordClass

/-- The Internet class. -/
def inet : RecordClass := ⟨1⟩
def cs : RecordClass := ⟨2⟩
def ch : RecordClass := ⟨3⟩
def hs : RecordClass := ⟨4⟩
def any : RecordClass := ⟨255⟩

def registry : Registry where
  entries := [(1, "IN"), (2, "CS"), (3, "CH"), (4, "HS"), (254, "NONE"), (255, "ANY")]
  generic := "CLASS"

def mnemonic? (c : RecordClass) : Option String :=
  registry.mnemonic? c.code

/-- The class whose mnemonic is the text, ignoring ASCII case. -/
def ofMnemonic? (text : String) : Option RecordClass :=
  (registry.code? text).map RecordClass.mk

/-- The mnemonic, or "CLASS" and the decimal code. -/
def display (c : RecordClass) : String :=
  registry.display c.code

instance : ToString RecordClass := ⟨display⟩

end RecordClass

/-! ## Opcodes

The value is kept as given; the header keeps only the four bits it has room for. -/

/-- The kind of query held in a message. -/
structure Opcode where
  code : UInt16
  deriving DecidableEq, Hashable, Repr, Inhabited

namespace Opcode

def query : Opcode := ⟨0⟩

def registry : Registry where
  entries := [(0, "QUERY"), (1, "IQUERY"), (2, "STATUS"), (4, "NOTIFY"), (5, "UPDATE")]
  generic := "OPCODE"

def mnemonic? (o : Opcode) : Option String :=
  registry.mnemonic? o.code

/-- The opcode whose mnemonic is the text, ignoring ASCII case. -/
def ofMnemonic? (text : String) : Option Opcode :=
  (registry.code? text).map Opcode.mk

/-- The mnemonic, or "OPCODE" and the decimal code. -/
def display (o : Opcode) : String :=
  registry.display o.code

instance : ToString Opcode := ⟨display⟩

end Opcode

/-! ## Response codes -/

/-- The outcome a response reports, or the failure to get any response. -/
inductive ResponseCode where
  /-- A code as carried on the wire. -/
  | wire (code : UInt16)
  /-- No name server gave an answer; never sent by a server. -/
  | connectionFailure
  deriving DecidableEq, Hashable, Repr, Inhabited

namespace ResponseCode

def noError : ResponseCode := .wire 0
def formatError : ResponseCode := .wire 1
def serverFailure : ResponseCode := .wire 2
def nameError : ResponseCode := .wire 3
def refused : ResponseCode := .wire 5

def registry : Registry where
  entries := [(0, "NOERROR"), (1, "FORMERR"), (2, "SERVFAIL"), (3, "NXDOMAIN"), (4, "NOTIMP"),
    (5, "REFUSED"), (6, "YXDOMAIN"), (7, "YXRRSET"), (8, "NXRRSET"), (9, "NOTAUTH"),
    (10, "NOTZONE"), (16, "BADVERS"), (17, "BADKEY"), (18, "BADTIME"), (19, "BADMODE"),
    (20, "BADNAME"), (21, "BADALG"), (22, "BADTRUNC"), (23, "BADCOOKIE")]
  generic := "RCODE"

/-- The code as written on the wire; a connection failure has none. -/
def toWire? : ResponseCode → Option UInt16
  | .wire c => some c
  | .connectionFailure => Option.none

/-- The code as written into a header or an OPT record: a connection failure writes zero. -/
def wireValue (r : ResponseCode) : UInt16 :=
  r.toWire?.getD 0

def mnemonic? : ResponseCode → Option String
  | .wire c => registry.mnemonic? c
  | .connectionFailure => some "CONNECTION_FAILURE"

def isSuccess (r : ResponseCode) : Bool :=
  r == noError

/-- The mnemonic, or "RCODE" and the decimal code. -/
def display (r : ResponseCode) : String :=
  match r with
  | .wire c => registry.display c
  | .connectionFailure => "CONNECTION_FAILURE"

instance : ToString ResponseCode := ⟨display⟩

end ResponseCode

end DnsStub
