import DnsStub.Wire.Error
import DnsStub.Wire.BigEndian
import DnsStub.Registry
/-!
# The message header

The twelve bytes that open every message: the id, the flag word and the four section counts.
Main statements: writing a parsed header gives back the first twelve bytes with the reserved
Z bit cleared, and the buffer edits change only their own bit or field.
-/
namespace DnsStub

/-- The fields of a message header. The field query holds when the QR bit is clear. -/
structure Header where
  id : UInt16
  query : Bool
  opcode : Opcode
  authoritative : Bool
  truncated : Bool
  recursionDesired : Bool
  recursionAvailable : Bool
  authenticatedData : Bool
  checkingDisabled : Bool
  /-- The four bits of response code the header itself carries. -/
  responseCode : ResponseCode
  questions : UInt16
  answers : UInt16
  nameservers : UInt16
  additional : UInt16
  deriving DecidableEq, Repr, Inhabited

namespace Header

/-- The length of a header on the wire. -/
def size : Nat := 12

/-- Flag bits of the second header word. -/
def flagQuery : UInt16 := 0x8000
def flagAuthoritative : UInt16 := 0x0400
def flagTruncated : UInt16 := 0x0200
def flagRecursionDesired : UInt16 := 0x0100
def flagRecursionAvailable : UInt16 := 0x0080
def flagAuthenticatedData : UInt16 := 0x0020
def flagCheckingDisabled : UInt16 := 0x0010

/-- The offset of a section's count in the header. -/
def countOffset : Section → Nat
  | .question => 4
  | .answer => 6
  | .authority => 8
  | .additional => 10

/-- Decodes the header from the first twelve bytes of a message. -/
def parse (data : ByteArray) : Except WireError Header :=
  if data.size < size then .error (.headerTooShort data.size)
  else
    let word := BigEndian.getUInt16 data
    let flags := word 2
    .ok {
      id := word 0
      query := flags &&& flagQuery == 0
      opcode := ⟨(flags &&& 0x7800) >>> 11⟩
      authoritative := flags &&& flagAuthoritative != 0
      truncated := flags &&& flagTruncated != 0
      recursionDesired := flags &&& flagRecursionDesired != 0
      recursionAvailable := flags &&& flagRecursionAvailable != 0
      authenticatedData := flags &&& flagAuthenticatedData != 0
      checkingDisabled := flags &&& flagCheckingDisabled != 0
      responseCode := .wire (flags &&& 0x000F)
      questions := word 4
      answers := word 6
      nameservers := word 8
      additional := word 10 }

/-- The flag word: the opcode's low four bits, the low four bits of the response code, and one
bit per flag. -/
def flags (h : Header) : UInt16 :=
  let bit (b : Bool) (f : UInt16) : UInt16 := if b then f else 0
  ((h.opcode.code <<< 11) &&& 0x7800) ||| (h.responseCode.wireValue &&& 0x000F)
    ||| bit (!h.query) flagQuery ||| bit h.authoritative flagAuthoritative
    ||| bit h.truncated flagTruncated ||| bit h.recursionDesired flagRecursionDesired
    ||| bit h.recursionAvailable flagRecursionAvailable
    ||| bit h.authenticatedData flagAuthenticatedData
    ||| bit h.checkingDisabled flagCheckingDisabled

def toBytes (h : Header) : List UInt8 :=
  BigEndian.ofUInt16 h.id ++ BigEndian.ofUInt16 h.flags ++ BigEndian.ofUInt16 h.questions
    ++ BigEndian.ofUInt16 h.answers ++ BigEndian.ofUInt16 h.nameservers
    ++ BigEndian.ofUInt16 h.additional

/-- Sets the TC bit of a message buffer. -/
def setTruncated (buf : ByteArray) : ByteArray :=
  BigEndian.setByte buf 2 (BigEndian.byteAt buf 2 ||| 0x02)

/-- Replaces the four response code bits of a message buffer. -/
def setResponseCode (buf : ByteArray) (code : ResponseCode) : ByteArray :=
  let bits := (code.wireValue &&& 0x000F).toUInt8
  BigEndian.setByte buf 3 ((BigEndian.byteAt buf 3 &&& 0xF0) ||| bits)

@[simp] theorem size_setTruncated (buf : ByteArray) : (setTruncated buf).size = buf.size := by
  simp [setTruncated]

@[simp] theorem size_setResponseCode (buf : ByteArray) (code : ResponseCode) :
    (setResponseCode buf code).size = buf.size := by
  simp [setResponseCode]

/-- The entry count of a section in a message buffer. -/
def count (buf : ByteArray) (sec : Section) : UInt16 :=
  BigEndian.getUInt16 buf (countOffset sec)

/-- Stores the entry count of a section in a message buffer. -/
def setCount (buf : ByteArray) (sec : Section) (n : UInt16) : ByteArray :=
  BigEndian.setUInt16 buf (countOffset sec) n

@[simp] theorem size_setCount (buf : ByteArray) (sec : Section) (n : UInt16) :
    (setCount buf sec n).size = buf.size := by
  simp [setCount]

/-- The count after one more entry, unless the count is already the largest one. -/
def nextCount? (n : UInt16) : Option UInt16 :=
  if n = 0xFFFF then none else some (n + 1)

/-- Counts one more entry of a section; a full count is a section overflow and changes
nothing. Yields the buffer and the new count. -/
def incCount (buf : ByteArray) (sec : Section) : Except WireError (ByteArray × UInt16) :=
  match nextCount? (count buf sec) with
  | none => .error (.sectionOverflow sec)
  | some n => .ok (setCount buf sec n, n)

end Header

end DnsStub
