import DnsStub.Record.Info
import DnsStub.Record.TypeBitmap
/-!
# Reading record data

Each known record type has a parser that reads its RDATA from a reader placed at its start
and limited to its end; compression pointers still reach the rest of the message. A record
factory maps types to parsers and keeps every other type as opaque bytes.

Reading RDATA of a declared length, the factory requires the parser to use exactly that length:
a parser that wants to read past the end, or stops before it, fails with a length mismatch.
Direct reads stay within the record's bytes, but a name's compression pointer reaches the rest
of the message, and the name may go on there past the record. Fixed-size types check the
declared length before reading.
-/
namespace DnsStub

/-- Reads the RDATA of a record, given its envelope. -/
abbrev RdataParser := RecordInfo → ReadM RecordData

namespace RecordData

/-- The offset where the RDATA ends, for a reader at its start. -/
def rdataEnd (info : RecordInfo) : ReadM Nat := do
  pure ((← get).pos + info.rdlength.toNat)

/-- Fails unless the declared length is the expected one. -/
def expectLength (info : RecordInfo) (expected : Nat) : ReadM Unit :=
  if info.rdlength.toNat = expected then pure ()
  else throw (.wrongRdataLength info.rtype expected info.rdlength.toNat)

/-- Reads one EDNS option: code, length and data. -/
def readOption : ReadM EdnsOption :=
  Reader.readU16 >>= fun code => Reader.readU16 >>= fun len =>
    EdnsOption.mk code <$> Reader.readBytes len.toNat

theorem advances_readOption : Reader.Advances readOption :=
  Reader.advances_bind_left Reader.advances_readU16 fun _ =>
    Reader.forward_bind Reader.advances_readU16.forward fun _ =>
      Reader.forward_map _ (Reader.forward_readBytes _)

def parseA : RdataParser := fun info => do
  expectLength info 4
  RecordData.a <$> Reader.readIpv4

def parseAaaa : RdataParser := fun info => do
  expectLength info 16
  RecordData.aaaa <$> Reader.readIpv6

/-- The parser of a type whose data is one name. -/
def parseName (mk : Name → RecordData) : RdataParser := fun _ =>
  mk <$> Reader.readName

def parseSoa : RdataParser := fun _ => do
  let mname ← Reader.readName
  let rname ← Reader.readName
  let serial ← Reader.readU32
  let refresh ← Reader.readU32
  let retry ← Reader.readU32
  let expire ← Reader.readU32
  let minimum ← Reader.readU32
  pure (.soa mname rname serial refresh retry expire minimum)

def parseHinfo : RdataParser := fun _ => do
  let cpu ← Reader.readCharacterString
  let os ← Reader.readCharacterString
  pure (.hinfo cpu os)

def parseMinfo : RdataParser := fun _ => do
  let rmailbx ← Reader.readName
  let emailbx ← Reader.readName
  pure (.minfo rmailbx emailbx)

def parseMx : RdataParser := fun _ => do
  let preference ← Reader.readU16
  let exchange ← Reader.readName
  pure (.mx preference exchange)

/-- Character strings up to the end of the RDATA. -/
def readStrings (info : RecordInfo) : ReadM (List (List UInt8)) := do
  let stop ← rdataEnd info
  Reader.repeatBefore Reader.readCharacterString Reader.advances_readCharacterString stop

def parseRp : RdataParser := fun _ => do
  let mbox ← Reader.readName
  let txt ← Reader.readName
  pure (.rp mbox txt)

def parseAfsdb : RdataParser := fun _ => do
  let subtype ← Reader.readU16
  let hostname ← Reader.readName
  pure (.afsdb subtype hostname)

def parseSrv : RdataParser := fun _ => do
  let priority ← Reader.readU16
  let weight ← Reader.readU16
  let port ← Reader.readU16
  let target ← Reader.readName
  pure (.srv priority weight port target)

def parseNaptr : RdataParser := fun _ => do
  let order ← Reader.readU16
  let preference ← Reader.readU16
  let flags ← Reader.readCharacterString
  let services ← Reader.readCharacterString
  let regexp ← Reader.readCharacterString
  let replacement ← Reader.readName
  pure (.naptr order preference flags services regexp replacement)

def parseOpt : RdataParser := fun info => do
  let stop ← rdataEnd info
  RecordData.opt <$> Reader.repeatBefore readOption advances_readOption stop

def readSigner (info : RecordInfo) : ReadM DelegationSigner := do
  let stop ← rdataEnd info
  let keyTag ← Reader.readU16
  let algorithm ← Reader.readU8
  let digestType ← Reader.readU8
  let digest ← Reader.readUpTo stop
  pure ⟨keyTag, algorithm, digestType, digest⟩

def parseSshfp : RdataParser := fun info => do
  let stop ← rdataEnd info
  let algorithm ← Reader.readU8
  let fingerprintType ← Reader.readU8
  let fingerprint ← Reader.readUpTo stop
  pure (.sshfp algorithm fingerprintType fingerprint)

def parseRrsig : RdataParser := fun info => do
  let stop ← rdataEnd info
  let typeCovered ← Reader.readU16
  let algorithm ← Reader.readU8
  let labels ← Reader.readU8
  let coveredTtl ← Reader.readU32
  let expiration ← Reader.readU32
  let inception ← Reader.readU32
  let keyTag ← Reader.readU16
  let signerName ← Reader.readName
  let signature ← Reader.readUpTo stop
  pure (.rrsig ⟨typeCovered⟩ algorithm labels coveredTtl expiration inception keyTag signerName
    signature)

def parseNsec : RdataParser := fun info => do
  let stop ← rdataEnd info
  let nextDomain ← Reader.readName
  let types ← TypeBitmap.read stop
  pure (.nsec nextDomain types)

def readPublicKey (info : RecordInfo) : ReadM PublicKey := do
  let stop ← rdataEnd info
  let flags ← Reader.readU16
  let protocol ← Reader.readU8
  let algorithm ← Reader.readU8
  let key ← Reader.readUpTo stop
  pure ⟨flags, protocol, algorithm, key⟩

def parseNsec3 : RdataParser := fun info => do
  let stop ← rdataEnd info
  let hashAlgorithm ← Reader.readU8
  let flags ← Reader.readU8
  let iterations ← Reader.readU16
  let salt ← Reader.readCharacterString
  let nextHashedOwner ← Reader.readCharacterString
  let types ← TypeBitmap.read stop
  pure (.nsec3 hashAlgorithm flags iterations salt nextHashedOwner types)

def parseNsec3param : RdataParser := fun _ => do
  let hashAlgorithm ← Reader.readU8
  let flags ← Reader.readU8
  let iterations ← Reader.readU16
  let salt ← Reader.readCharacterString
  pure (.nsec3param hashAlgorithm flags iterations salt)

def parseTlsa : RdataParser := fun info => do
  let stop ← rdataEnd info
  let certUsage ← Reader.readU8
  let selector ← Reader.readU8
  let matchingType ← Reader.readU8
  let data ← Reader.readUpTo stop
  pure (.tlsa certUsage selector matchingType data)

def parseUri : RdataParser := fun info => do
  let stop ← rdataEnd info
  let priority ← Reader.readU16
  let weight ← Reader.readU16
  let target ← Reader.readUpTo stop
  pure (.uri priority weight target)

def parseCaa : RdataParser := fun info => do
  let stop ← rdataEnd info
  let flags ← Reader.readU8
  let tag ← Reader.readCharacterString
  let value ← Reader.readUpTo stop
  pure (.caa flags tag value)

def parseNull : RdataParser := fun info => do
  let stop ← rdataEnd info
  RecordData.null <$> Reader.readUpTo stop

/-- The parsers of the known record types. -/
def builtinParsers : List (RecordType × RdataParser) :=
  [(.a, parseA), (.aaaa, parseAaaa), (.ns, parseName .ns), (.cname, parseName .cname),
   (.ptr, parseName .ptr), (.dname, parseName .dname), (.mb, parseName .mb),
   (.mg, parseName .mg), (.mr, parseName .mr), (.soa, parseSoa), (.hinfo, parseHinfo),
   (.minfo, parseMinfo), (.mx, parseMx), (.txt, fun i => RecordData.txt <$> readStrings i),
   (.spf, fun i => RecordData.spf <$> readStrings i), (.rp, parseRp), (.afsdb, parseAfsdb),
   (.srv, parseSrv), (.naptr, parseNaptr), (.opt, parseOpt),
   (.ds, fun i => RecordData.ds <$> readSigner i), (.cds, fun i => RecordData.cds <$> readSigner i),
   (.sshfp, parseSshfp), (.rrsig, parseRrsig), (.nsec, parseNsec),
   (.dnskey, fun i => RecordData.dnskey <$> readPublicKey i),
   (.cdnskey, fun i => RecordData.cdnskey <$> readPublicKey i), (.nsec3, parseNsec3),
   (.nsec3param, parseNsec3param), (.tlsa, parseTlsa), (.uri, parseUri), (.caa, parseCaa),
   (.null, parseNull)]

/-- A parser that skips the declared RDATA and yields empty NULL data. -/
def skipParser : RdataParser := fun info => do
  Reader.skip info.rdlength.toNat
  pure (.null [])

end RecordData

/-- Maps record types to the parsers of their RDATA. -/
structure RecordFactory where
  parser? : RecordType → Option RdataParser

namespace RecordFactory

/-- Treats every type as opaque. -/
def empty : RecordFactory := ⟨fun _ => none⟩

/-- Knows every built-in type. -/
def new : RecordFactory := ⟨fun t => RecordData.builtinParsers.lookup t⟩

instance : Inhabited RecordFactory := ⟨new⟩

/-- Registers, or replaces, the parser of a type. -/
def withParser (f : RecordFactory) (t : RecordType) (p : RdataParser) : RecordFactory :=
  ⟨fun u => if u = t then some p else f.parser? u⟩

def knows (f : RecordFactory) (t : RecordType) : Bool :=
  (f.parser? t).isSome

/-- The error for a parser that used consumed bytes of the declared RDATA. -/
def mismatch (info : RecordInfo) (consumed start : Nat) : WireError :=
  .rdataLengthMismatch info.rtype info.rdlength.toNat consumed start

/-- Reads RDATA of the declared length and leaves the reader behind it, with its limit as it
was. A parser's request for bytes past the end of the RDATA, or an end at another offset, is a
length mismatch. -/
def parseRdata (f : RecordFactory) (info : RecordInfo) : ReadM RecordData := fun r =>
  let start := r.pos
  let declared := info.rdlength.toNat
  if r.remaining < declared then .error (.unexpectedEof start declared) r
  else
    let stop := start + declared
    match Reader.setLimit stop r with
    | .error e r1 => .error e r1
    | .ok outer r1 =>
      let parser : ReadM RecordData := match f.parser? info.rtype with
        | some p => p info
        | none => RecordData.unknown info.rtype <$> Reader.readBytes declared
      let (outcome, r2) : Except WireError RecordData × Reader := match parser r1 with
        | .ok d s => (.ok d, s)
        | .error e s => (.error e, s)
      match Reader.setLimit outer r2 with
      | .error e r3 => .error e r3
      | .ok _ r3 =>
        match outcome with
        | .error (.unexpectedEof offset needed) =>
          if start ≤ offset ∧ offset ≤ stop ∧ stop < offset + needed then
            .error (mismatch info (offset + needed - start) start) r3
          else .error (.unexpectedEof offset needed) r3
        | .error e => .error e r3
        | .ok d =>
          if r3.pos = stop then .ok d r3 else .error (mismatch info (r3.pos - start) start) r3

def parseRecord (f : RecordFactory) : ReadM ResourceRecord := do
  let info ← RecordInfo.parse
  let data ← f.parseRdata info
  pure ⟨info, data⟩

end RecordFactory

end DnsStub
