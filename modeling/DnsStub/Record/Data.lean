import DnsStub.Name.Basic
import DnsStub.Net.Address
import DnsStub.Registry
/-!
# Record data

The RDATA of the record types this library knows, field by field, and opaque bytes for every
other type. Records compare as the domain name system compares them: names inside ignore
ASCII case, all other fields must be equal.
-/
namespace DnsStub

/-- One option of an OPT pseudo-record. -/
structure EdnsOption where
  code : UInt16
  data : List UInt8
  deriving BEq, Repr, Inhabited

/-- Delegation signer data, shared by DS and CDS. -/
structure DelegationSigner where
  keyTag : UInt16
  algorithm : UInt8
  digestType : UInt8
  digest : List UInt8
  deriving BEq, Repr, Inhabited

/-- Public key data, shared by DNSKEY and CDNSKEY. -/
structure PublicKey where
  flags : UInt16
  protocol : UInt8
  algorithm : UInt8
  publicKey : List UInt8
  deriving BEq, Repr, Inhabited

/-- The RDATA of a resource record. -/
inductive RecordData where
  | a (address : Ipv4Address)
  | aaaa (address : Ipv6Address)
  | ns (name : Name)
  | cname (name : Name)
  | ptr (name : Name)
  | dname (name : Name)
  | mb (name : Name)
  | mg (name : Name)
  | mr (name : Name)
  | soa (mname rname : Name) (serial refresh retry expire minimum : UInt32)
  | hinfo (cpu os : List UInt8)
  | minfo (rmailbx emailbx : Name)
  | mx (preference : UInt16) (exchange : Name)
  | txt (strings : List (List UInt8))
  | spf (strings : List (List UInt8))
  | rp (mbox txt : Name)
  | afsdb (subtype : UInt16) (hostname : Name)
  | srv (priority weight port : UInt16) (target : Name)
  | naptr (order preference : UInt16) (flags services regexp : List UInt8) (replacement : Name)
  | opt (options : List EdnsOption)
  | ds (signer : DelegationSigner)
  | cds (signer : DelegationSigner)
  | sshfp (algorithm fingerprintType : UInt8) (fingerprint : List UInt8)
  | rrsig (typeCovered : RecordType) (algorithm labels : UInt8)
      (coveredTtl expiration inception : UInt32) (keyTag : UInt16) (signerName : Name)
      (signature : List UInt8)
  | nsec (nextDomain : Name) (types : List RecordType)
  | dnskey (key : PublicKey)
  | cdnskey (key : PublicKey)
  | nsec3 (hashAlgorithm flags : UInt8) (iterations : UInt16) (salt nextHashedOwner : List UInt8)
      (types : List RecordType)
  | nsec3param (hashAlgorithm flags : UInt8) (iterations : UInt16) (salt : List UInt8)
  | tlsa (certUsage selector matchingType : UInt8) (data : List UInt8)
  | uri (priority weight : UInt16) (target : List UInt8)
  | caa (flags : UInt8) (tag value : List UInt8)
  | null (data : List UInt8)
  /-- Data of a type without a parser, kept as bytes. -/
  | unknown (rtype : RecordType) (data : List UInt8)
  deriving BEq, Inhabited

namespace RecordData

/-- The record type the data belongs to. -/
def rtype : RecordData → RecordType
  | .a .. => .a | .aaaa .. => .aaaa | .ns .. => .ns | .cname .. => .cname | .ptr .. => .ptr
  | .dname .. => .dname | .mb .. => .mb | .mg .. => .mg | .mr .. => .mr | .soa .. => .soa
  | .hinfo .. => .hinfo | .minfo .. => .minfo | .mx .. => .mx | .txt .. => .txt | .spf .. => .spf
  | .rp .. => .rp | .afsdb .. => .afsdb | .srv .. => .srv | .naptr .. => .naptr | .opt .. => .opt
  | .ds .. => .ds | .cds .. => .cds | .sshfp .. => .sshfp | .rrsig .. => .rrsig
  | .nsec .. => .nsec | .dnskey .. => .dnskey | .cdnskey .. => .cdnskey | .nsec3 .. => .nsec3
  | .nsec3param .. => .nsec3param | .tlsa .. => .tlsa | .uri .. => .uri | .caa .. => .caa
  | .null .. => .null | .unknown t _ => t

/-- The address of A and AAAA data. -/
def address? : RecordData → Option IpAddress
  | .a ip => some (.v4 ip)
  | .aaaa ip => some (.v6 ip)
  | _ => none

/-- The name that data of a pointing type leads to: the single-name types, the MX exchange and
the SRV target. -/
def target? : RecordData → Option Name
  | .ns n | .cname n | .ptr n | .dname n | .mb n | .mg n | .mr n => some n
  | .mx _ n => some n
  | .srv _ _ _ n => some n
  | _ => none

end RecordData

end DnsStub
