import DnsStub.Registry
import DnsStub.Text.Ascii
/-!
# Codec errors

Every way reading or writing a message can fail, each with the offsets and lengths that locate
the fault. The text of each error is given by one function, WireError.message.
-/
namespace DnsStub

/-- A message section, named as in error texts. -/
inductive Section where
  | question
  | answer
  | authority
  | additional
  deriving DecidableEq, Repr, Inhabited

namespace Section

/-- The order of sections in a message. -/
def rank : Section → Nat
  | .question => 0
  | .answer => 1
  | .authority => 2
  | .additional => 3

/-- The section's word in error texts. -/
def word : Section → String
  | .question => "question"
  | .answer => "answer"
  | .authority => "authority"
  | .additional => "additional"

end Section

/-- A fault found while reading or writing the wire form of a message. -/
inductive WireError where
  /-- The message is shorter than its twelve-byte header. -/
  | headerTooShort (len : Nat)
  /-- A read of needed bytes at offset would pass the limit. -/
  | unexpectedEof (offset needed : Nat)
  /-- A label starts with a byte whose top bits are 01 or 10. -/
  | unknownLabelFormat (offset : Nat) (byte : UInt8)
  /-- A compression pointer does not point strictly before the segment holding it. -/
  | invalidPointer (offset target : Nat)
  /-- A name follows more than 127 compression pointers. -/
  | tooManyPointers (offset : Nat)
  | labelTooLong (len : Nat)
  | nameTooLong (len : Nat)
  | emptyLabel
  | invalidEscape
  | invalidPunycode
  /-- A fixed-size record has RDATA of another size. -/
  | wrongRdataLength (rtype : RecordType) (expected actual : Nat)
  /-- A record's parser did not use exactly the declared RDATA. -/
  | rdataLengthMismatch (rtype : RecordType) (declared consumed offset : Nat)
  | invalidTypeBitmap (offset : Nat)
  | characterStringTooLong (len : Nat)
  | rdataTooLong (len : Nat)
  | sectionOverflow (sec : Section)
  | noQuestion
  deriving DecidableEq, Repr, Inhabited

namespace WireError

def message : WireError → String
  | .headerTooShort len => s!"packet of {len} bytes is smaller than header size"
  | .unexpectedEof offset needed =>
    s!"packet has incomplete data: {needed} bytes wanted at offset {offset}"
  | .unknownLabelFormat offset byte =>
    s!"label at offset {offset} has unknown label format 0x" ++ Hex.ofByte byte
  | .invalidPointer offset target =>
    s!"compression pointer at offset {offset} refers to offset {target} which is not before it"
  | .tooManyPointers offset => s!"name at offset {offset} follows too many compression pointers"
  | .labelTooLong len => s!"label of {len} bytes exceeds 63 bytes"
  | .nameTooLong len => s!"name of {len} bytes exceeds 255 bytes"
  | .emptyLabel => "name contains an empty label"
  | .invalidEscape => "invalid escape sequence in name"
  | .invalidPunycode => "label cannot be converted to or from punycode"
  | .wrongRdataLength rtype expected actual =>
    s!"{rtype} record has RDATA of {actual} bytes, {expected} expected"
  | .rdataLengthMismatch rtype declared consumed offset =>
    s!"{rtype} record at offset {offset} declared {declared} bytes of RDATA but {consumed} were consumed"
  | .invalidTypeBitmap offset => s!"invalid type bitmap at offset {offset}"
  | .characterStringTooLong len => s!"character string of {len} bytes exceeds 255 bytes"
  | .rdataTooLong len => s!"RDATA of {len} bytes does not fit into a record"
  | .sectionOverflow sec => "too many entries in " ++ sec.word ++ " section"
  | .noQuestion => "message has no question"

end WireError

end DnsStub
