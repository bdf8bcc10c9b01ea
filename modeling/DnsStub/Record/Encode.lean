import DnsStub.Record.Data
import DnsStub.Record.TypeBitmap
import DnsStub.Name.Basic
/-!
# Writing record data

The wire form of RDATA. Names are written uncompressed, character strings after a length
byte, and open-ended fields, such as a digest or a signature, as they are. A character string
over 255 bytes cannot be written. The length of an EDNS option is written as the low sixteen
bits of its data length.
-/
namespace DnsStub

namespace RecordData

/-- Writes character strings in order; the first one over 255 bytes fails the write. -/
def writeStrings (ss : List (List UInt8)) (w : Writer) : Except WireError Writer :=
  ss.foldlM (fun w s => w.writeCharacterString s) w

/-- Writes EDNS options: code, data length and data each. -/
def writeOptions (os : List EdnsOption) (w : Writer) : Writer :=
  os.foldl (fun w o => ((w.writeU16 o.code).writeU16 o.data.length.toUInt16).writeBytes o.data) w

/-- Appends the wire form of the data to a writer. -/
def writeTo (d : RecordData) (w : Writer) : Except WireError Writer :=
  match d with
  | .a ip => .ok (w.writeBytes ip.octets.toList)
  | .aaaa ip => .ok (w.writeBytes ip.octets.toList)
  | .ns n | .cname n | .ptr n | .dname n | .mb n | .mg n | .mr n => .ok (n.writeTo w)
  | .soa mname rname serial refresh retry expire minimum =>
    .ok ((((((rname.writeTo (mname.writeTo w)).writeU32 serial).writeU32 refresh).writeU32 retry
      ).writeU32 expire).writeU32 minimum)
  | .hinfo cpu os => do
    let w ← w.writeCharacterString cpu
    w.writeCharacterString os
  | .minfo rmailbx emailbx => .ok (emailbx.writeTo (rmailbx.writeTo w))
  | .mx preference exchange => .ok (exchange.writeTo (w.writeU16 preference))
  | .txt ss | .spf ss => writeStrings ss w
  | .rp mbox txtName => .ok (txtName.writeTo (mbox.writeTo w))
  | .afsdb subtype hostname => .ok (hostname.writeTo (w.writeU16 subtype))
  | .srv priority weight port target =>
    .ok (target.writeTo (((w.writeU16 priority).writeU16 weight).writeU16 port))
  | .naptr order preference flags services regexp replacement => do
    let w ← ((w.writeU16 order).writeU16 preference).writeCharacterString flags
    let w ← w.writeCharacterString services
    let w ← w.writeCharacterString regexp
    pure (replacement.writeTo w)
  | .opt os => .ok (writeOptions os w)
  | .ds s | .cds s =>
    .ok ((((w.writeU16 s.keyTag).writeU8 s.algorithm).writeU8 s.digestType).writeBytes s.digest)
  | .sshfp algorithm fingerprintType fingerprint =>
    .ok (((w.writeU8 algorithm).writeU8 fingerprintType).writeBytes fingerprint)
  | .rrsig typeCovered algorithm labels coveredTtl expiration inception keyTag signerName
      signature =>
    .ok ((signerName.writeTo (((((((w.writeU16 typeCovered.code).writeU8 algorithm).writeU8 labels
      ).writeU32 coveredTtl).writeU32 expiration).writeU32 inception).writeU16 keyTag)
      ).writeBytes signature)
  | .nsec nextDomain types => .ok (TypeBitmap.write types (nextDomain.writeTo w))
  | .dnskey k | .cdnskey k =>
    .ok ((((w.writeU16 k.flags).writeU8 k.protocol).writeU8 k.algorithm).writeBytes k.publicKey)
  | .nsec3 hashAlgorithm flags iterations salt nextHashedOwner types => do
    let w ← (((w.writeU8 hashAlgorithm).writeU8 flags).writeU16 iterations).writeCharacterString salt
    let w ← w.writeCharacterString nextHashedOwner
    pure (TypeBitmap.write types w)
  | .nsec3param hashAlgorithm flags iterations salt =>
    (((w.writeU8 hashAlgorithm).writeU8 flags).writeU16 iterations).writeCharacterString salt
  | .tlsa certUsage selector matchingType data =>
    .ok ((((w.writeU8 certUsage).writeU8 selector).writeU8 matchingType).writeBytes data)
  | .uri priority weight target => .ok (((w.writeU16 priority).writeU16 weight).writeBytes target)
  | .caa flags tag value => do
    let w ← (w.writeU8 flags).writeCharacterString tag
    pure (w.writeBytes value)
  | .null data | .unknown _ data => .ok (w.writeBytes data)

end RecordData

end DnsStub
