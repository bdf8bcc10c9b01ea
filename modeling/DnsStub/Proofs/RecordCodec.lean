import DnsStub.Proofs.TypeBitmapCodec
import DnsStub.Record.Encode
import DnsStub.Record.Decode
/-!
# Record data on the wire

The bytes each kind of RDATA is written as (`RecordData.toWire`), and the parser the built-in
factory runs for its type reading exactly those bytes back. Names are written in full and read
back when valid, a character string when it fits its length byte, an EDNS option when its data
fits its length word; the types of NSEC and NSEC3 data come back sorted, each once. Reading RDATA
of its declared length around the parser keeps what the parser read, so a whole record reads
back from its envelope and data.

Main statements: `writeTo_eq_ok`, `reads_rdataRead`, `reads_parseRdata` and `reads_parseRecord`.
-/
namespace DnsStub
open Reader

theorem Except.bind_eq_ok {ε α β : Type} {x : Except ε α} {f : α → Except ε β} {b : β}
    (h : (x >>= f) = .ok b) : ∃ a, x = .ok a ∧ f a = .ok b := by
  cases x with
  | error e => cases h
  | ok a => exact ⟨a,rfl,h⟩

/-- A character string on the wire: its length byte, then its bytes. -/
def stringBytes (s : List UInt8) : List UInt8 := s.length.toUInt8 :: s

/-- An EDNS option on the wire: its code, the length of its data, then the data. -/
def EdnsOption.toWire (o : EdnsOption) : List UInt8 :=
  BigEndian.ofUInt16 o.code ++ BigEndian.ofUInt16 o.data.length.toUInt16 ++ o.data

/-- DS and CDS data on the wire. -/
def DelegationSigner.toWire (s : DelegationSigner) : List UInt8 :=
  BigEndian.ofUInt16 s.keyTag ++ [s.algorithm,s.digestType] ++ s.digest

/-- DNSKEY and CDNSKEY data on the wire. -/
def PublicKey.toWire (k : PublicKey) : List UInt8 :=
  BigEndian.ofUInt16 k.flags ++ [k.protocol,k.algorithm] ++ k.publicKey

namespace RecordData

/-- The wire form of RDATA: names in full, character strings after their length byte, and
open-ended fields as they are. -/
def toWire : RecordData → List UInt8
  | .a ip => ip.octets.toList
  | .aaaa ip => ip.octets.toList
  | .ns n | .cname n | .ptr n | .dname n | .mb n | .mg n | .mr n => n.toWire
  | .soa mname rname serial refresh retry expire minimum =>
    mname.toWire ++ rname.toWire ++ BigEndian.ofUInt32 serial ++ BigEndian.ofUInt32 refresh ++
      BigEndian.ofUInt32 retry ++ BigEndian.ofUInt32 expire ++ BigEndian.ofUInt32 minimum
  | .hinfo cpu os => stringBytes cpu ++ stringBytes os
  | .minfo rmailbx emailbx => rmailbx.toWire ++ emailbx.toWire
  | .mx preference exchange => BigEndian.ofUInt16 preference ++ exchange.toWire
  | .txt ss | .spf ss => ss.flatMap stringBytes
  | .rp mbox txtName => mbox.toWire ++ txtName.toWire
  | .afsdb subtype hostname => BigEndian.ofUInt16 subtype ++ hostname.toWire
  | .srv priority weight port target =>
    BigEndian.ofUInt16 priority ++ BigEndian.ofUInt16 weight ++ BigEndian.ofUInt16 port ++ target.toWire
  | .naptr order preference flags services regexp replacement =>
    BigEndian.ofUInt16 order ++ BigEndian.ofUInt16 preference ++ stringBytes flags ++
      stringBytes services ++ stringBytes regexp ++ replacement.toWire
  | .opt os => os.flatMap EdnsOption.toWire
  | .ds s | .cds s => s.toWire
  | .sshfp algorithm fingerprintType fingerprint => [algorithm,fingerprintType] ++ fingerprint
  | .rrsig typeCovered algorithm labels coveredTtl expiration inception keyTag signerName signature =>
    BigEndian.ofUInt16 typeCovered.code ++ [algorithm,labels] ++ BigEndian.ofUInt32 coveredTtl ++
      BigEndian.ofUInt32 expiration ++ BigEndian.ofUInt32 inception ++ BigEndian.ofUInt16 keyTag ++
      signerName.toWire ++ signature
  | .nsec nextDomain types => nextDomain.toWire ++ TypeBitmap.bytes types
  | .dnskey k | .cdnskey k => k.toWire
  | .nsec3 hashAlgorithm flags iterations salt nextHashedOwner types =>
    [hashAlgorithm,flags] ++ BigEndian.ofUInt16 iterations ++ stringBytes salt ++
      stringBytes nextHashedOwner ++ TypeBitmap.bytes types
  | .nsec3param hashAlgorithm flags iterations salt =>
    [hashAlgorithm,flags] ++ BigEndian.ofUInt16 iterations ++ stringBytes salt
  | .tlsa certUsage selector matchingType data => [certUsage,selector,matchingType] ++ data
  | .uri priority weight target => BigEndian.ofUInt16 priority ++ BigEndian.ofUInt16 weight ++ target
  | .caa flags tag value => flags :: stringBytes tag ++ value
  | .null data | .unknown _ data => data

def names : RecordData → List Name
  | .ns n | .cname n | .ptr n | .dname n | .mb n | .mg n | .mr n => [n]
  | .soa mname rname .. => [mname,rname]
  | .minfo rmailbx emailbx => [rmailbx,emailbx]
  | .mx _ exchange => [exchange]
  | .rp mbox txtName => [mbox,txtName]
  | .afsdb _ hostname => [hostname]
  | .srv _ _ _ target => [target]
  | .naptr _ _ _ _ _ replacement => [replacement]
  | .rrsig _ _ _ _ _ _ _ signerName _ => [signerName]
  | .nsec nextDomain _ => [nextDomain]
  | _ => []

def strings : RecordData → List (List UInt8)
  | .hinfo cpu os => [cpu,os]
  | .txt ss | .spf ss => ss
  | .naptr _ _ flags services regexp _ => [flags,services,regexp]
  | .nsec3 _ _ _ salt nextHashedOwner _ => [salt,nextHashedOwner]
  | .nsec3param _ _ _ salt => [salt]
  | .caa _ tag _ => [tag]
  | _ => []

/-- Every character string of the data fits its length byte. -/
def StringsFit (d : RecordData) : Prop :=
  ∀ s ∈ d.strings, s.length ≤ 255

/-- Opaque bytes of a type that a built-in parser reads. -/
def opaqueOfKnownType : RecordData → Bool
  | .unknown t _ => RecordFactory.new.knows t
  | _ => false

/-- Data that reading can give back: its names are valid, and opaque data is of a type without
a built-in parser. -/
def WellFormed (d : RecordData) : Prop :=
  (∀ n ∈ d.names, n.Valid) ∧ d.opaqueOfKnownType = false

instance (d : RecordData) : Decidable d.WellFormed :=
  inferInstanceAs (Decidable (_ ∧ _))

/-- The data as it is read back: the type lists of NSEC and NSEC3 data sorted, each type once. -/
def normalize : RecordData → RecordData
  | .nsec nextDomain types => .nsec nextDomain (TypeBitmap.sorted types)
  | .nsec3 hashAlgorithm flags iterations salt nextHashedOwner types =>
    .nsec3 hashAlgorithm flags iterations salt nextHashedOwner (TypeBitmap.sorted types)
  | d => d

def typeLists : RecordData → List (List RecordType)
  | .nsec _ types | .nsec3 _ _ _ _ _ types => [types]
  | _ => []

theorem normalize_eq_self {d : RecordData} (h : ∀ ts ∈ d.typeLists, ts.Pairwise fun a b => a.code < b.code) :
    d.normalize = d := by
  cases d <;> simp_all [normalize,typeLists,TypeBitmap.sorted_eq_self]

/-! ### Writing -/

theorem writeStrings_eq_ok {ss : List (List UInt8)} {w w' : Writer} (h : writeStrings ss w = .ok w') :
    (∀ s ∈ ss, s.length ≤ 255) ∧ w'.toList = w.toList ++ ss.flatMap stringBytes := by
  induction ss generalizing w with
  | nil =>
      cases h
      simp
  | cons s ss ih =>
      simp only [writeStrings,List.foldlM_cons] at h
      obtain ⟨w₁,h₁,h₂⟩ := Except.bind_eq_ok h
      obtain ⟨hs,e₁⟩ := Writer.writeCharacterString_eq_ok h₁
      obtain ⟨hss,e₂⟩ := ih h₂
      refine ⟨?_,by simp [e₁,e₂,stringBytes]⟩
      intro s' hs'
      rcases List.mem_cons.1 hs' with rfl | hs'
      · exact hs
      · exact hss s' hs'

@[simp] theorem toList_writeOptions (os : List EdnsOption) (w : Writer) :
    (writeOptions os w).toList = w.toList ++ os.flatMap EdnsOption.toWire := by
  induction os generalizing w with
  | nil => simp [writeOptions]
  | cons o os ih =>
      show (writeOptions os (((w.writeU16 o.code).writeU16 o.data.length.toUInt16).writeBytes
        o.data)).toList = _
      simp [ih,EdnsOption.toWire]

theorem writeTo_eq_ok {d : RecordData} {w w' : Writer} (h : d.writeTo w = .ok w') :
    d.StringsFit ∧ w'.toList = w.toList ++ d.toWire := by
  cases d
  -- the data with character strings: each write of one may fail
  case hinfo cpu os =>
    obtain ⟨w₁,h₁,h₂⟩ := Except.bind_eq_ok h
    obtain ⟨hc,e₁⟩ := Writer.writeCharacterString_eq_ok h₁
    obtain ⟨ho,e₂⟩ := Writer.writeCharacterString_eq_ok h₂
    exact ⟨by simp [StringsFit,strings,hc,ho],by simp [e₁,e₂,toWire,stringBytes]⟩
  case txt ss =>
    obtain ⟨hs,e⟩ := writeStrings_eq_ok h
    exact ⟨hs,e⟩
  case spf ss =>
    obtain ⟨hs,e⟩ := writeStrings_eq_ok h
    exact ⟨hs,e⟩
  case naptr order preference flags services regexp replacement =>
    obtain ⟨w₁,h₁,h'⟩ := Except.bind_eq_ok h
    obtain ⟨w₂,h₂,h''⟩ := Except.bind_eq_ok h'
    obtain ⟨w₃,h₃,h₄⟩ := Except.bind_eq_ok h''
    obtain ⟨hf,e₁⟩ := Writer.writeCharacterString_eq_ok h₁
    obtain ⟨hs,e₂⟩ := Writer.writeCharacterString_eq_ok h₂
    obtain ⟨hr,e₃⟩ := Writer.writeCharacterString_eq_ok h₃
    cases h₄
    exact ⟨by simp [StringsFit,strings,hf,hs,hr],by simp [e₁,e₂,e₃,toWire,stringBytes]⟩
  case nsec3 hashAlgorithm flags iterations salt nextHashedOwner types =>
    obtain ⟨w₁,h₁,h'⟩ := Except.bind_eq_ok h
    obtain ⟨w₂,h₂,h₃⟩ := Except.bind_eq_ok h'
    obtain ⟨hs,e₁⟩ := Writer.writeCharacterString_eq_ok h₁
    obtain ⟨hn,e₂⟩ := Writer.writeCharacterString_eq_ok h₂
    cases h₃
    exact ⟨by simp [StringsFit,strings,hs,hn],
      by simp [e₁,e₂,toWire,stringBytes,TypeBitmap.toList_write]⟩
  case nsec3param hashAlgorithm flags iterations salt =>
    obtain ⟨hs,e⟩ := Writer.writeCharacterString_eq_ok h
    exact ⟨by simp [StringsFit,strings,hs],by simp [e,toWire,stringBytes]⟩
  case caa flags tag value =>
    obtain ⟨w₁,h₁,h₂⟩ := Except.bind_eq_ok h
    obtain ⟨ht,e⟩ := Writer.writeCharacterString_eq_ok h₁
    cases h₂
    exact ⟨by simp [StringsFit,strings,ht],by simp [e,toWire,stringBytes]⟩
  all_goals
    simp only [writeTo] at h
    obtain rfl := Except.ok.inj h
    simp [StringsFit,strings,toWire,TypeBitmap.toList_write,DelegationSigner.toWire,PublicKey.toWire]

/-! ### Reading -/

section Reads
variable {α : Type} {p : Nat} {info : RecordInfo} {bs : List UInt8} {a : α}

theorem reads_expectLength_bind {n : Nat} {k : Unit → ReadM α} (hl : info.rdlength.toNat = n)
    (hk : Reads p (k ()) bs a) : Reads p (expectLength info n >>= k) bs a := by
  intro r hp ha
  obtain ⟨r',h,hd,hlim,hp'⟩ := hk r hp ha
  refine ⟨r',?_,hd,hlim,hp'⟩
  simp only [expectLength,hl,if_true]
  exact h

theorem reads_rdataEnd_bind {k : Nat → ReadM α} (hk : Reads p (k (p+info.rdlength.toNat)) bs a) :
    Reads p (rdataEnd info >>= k) bs a := by
  intro r hp ha
  obtain ⟨r',h,hd,hlim,hp'⟩ := hk r hp ha
  refine ⟨r',?_,hd,hlim,hp'⟩
  subst hp
  exact h

theorem reads_readUpTo_of_eq {q stop : Nat} (bs : List UInt8) (h : stop = q+bs.length) :
    Reads q (readUpTo stop) bs bs :=
  h ▸ reads_readUpTo q bs

theorem reads_typeBitmap_of_eq {q stop : Nat} (ts : List RecordType)
    (h : stop = q+(TypeBitmap.bytes ts).length) :
    Reads q (TypeBitmap.read stop) (TypeBitmap.bytes ts) (TypeBitmap.sorted ts) :=
  h ▸ TypeBitmap.reads_read q ts

end Reads

/-! ### The built-in parsers -/

section Parsers
variable {p : Nat} {info : RecordInfo}

theorem reads_parseA (ip : Ipv4Address) (hl : info.rdlength.toNat = 4) :
    Reads p (parseA info) (RecordData.a ip).toWire (.a ip) :=
  reads_expectLength_bind hl ((reads_readIpv4 p ip).map RecordData.a)

theorem reads_parseAaaa (ip : Ipv6Address) (hl : info.rdlength.toNat = 16) :
    Reads p (parseAaaa info) (RecordData.aaaa ip).toWire (.aaaa ip) :=
  reads_expectLength_bind hl ((reads_readIpv6 p ip).map RecordData.aaaa)

theorem reads_parseName (mk : Name → RecordData) {n : Name} (hn : n.Valid) :
    Reads p (parseName mk info) n.toWire (mk n) :=
  (reads_readName hn p).map mk

theorem reads_parseSoa {mname rname : Name} (hm : mname.Valid) (hr : rname.Valid)
    (serial refresh retry expire minimum : UInt32) :
    Reads p (parseSoa info) (RecordData.soa mname rname serial refresh retry expire minimum).toWire
      (.soa mname rname serial refresh retry expire minimum) := by
  simp only [toWire,List.append_assoc]
  apply Reads.bind (reads_readName hm p)
  apply Reads.bind (reads_readName hr _)
  apply Reads.bind (reads_readU32 _ serial)
  apply Reads.bind (reads_readU32 _ refresh)
  apply Reads.bind (reads_readU32 _ retry)
  apply Reads.bind (reads_readU32 _ expire)
  exact Reads.bind_pure (reads_readU32 _ minimum)

theorem reads_parseHinfo {cpu os : List UInt8} (hc : cpu.length ≤ 255) (ho : os.length ≤ 255) :
    Reads p (parseHinfo info) (RecordData.hinfo cpu os).toWire (.hinfo cpu os) := by
  simp only [toWire]
  apply Reads.bind (reads_readCharacterString p cpu hc)
  exact Reads.bind_pure (reads_readCharacterString _ os ho)

theorem reads_parseMinfo {rmailbx emailbx : Name} (hr : rmailbx.Valid) (he : emailbx.Valid) :
    Reads p (parseMinfo info) (RecordData.minfo rmailbx emailbx).toWire (.minfo rmailbx emailbx) := by
  simp only [toWire]
  apply Reads.bind (reads_readName hr p)
  exact Reads.bind_pure (reads_readName he _)

theorem reads_parseMx (preference : UInt16) {exchange : Name} (he : exchange.Valid) :
    Reads p (parseMx info) (RecordData.mx preference exchange).toWire (.mx preference exchange) := by
  simp only [toWire]
  apply Reads.bind (reads_readU16 p preference)
  exact Reads.bind_pure (reads_readName he _)

theorem reads_readStrings {ss : List (List UInt8)} (hs : ∀ s ∈ ss, s.length ≤ 255)
    (hl : info.rdlength.toNat = (ss.flatMap stringBytes).length) :
    Reads p (readStrings info) (ss.flatMap stringBytes) ss := by
  apply reads_rdataEnd_bind
  rw [hl]
  simpa using reads_repeatBefore advances_readCharacterString stringBytes id p ss
    (fun s _ => by simp [stringBytes]) (fun s hs' q _ => reads_readCharacterString q s (hs s hs'))

theorem reads_parseRp {mbox txtName : Name} (hm : mbox.Valid) (ht : txtName.Valid) :
    Reads p (parseRp info) (RecordData.rp mbox txtName).toWire (.rp mbox txtName) := by
  simp only [toWire]
  apply Reads.bind (reads_readName hm p)
  exact Reads.bind_pure (reads_readName ht _)

theorem reads_parseAfsdb (subtype : UInt16) {hostname : Name} (hh : hostname.Valid) :
    Reads p (parseAfsdb info) (RecordData.afsdb subtype hostname).toWire (.afsdb subtype hostname) := by
  simp only [toWire]
  apply Reads.bind (reads_readU16 p subtype)
  exact Reads.bind_pure (reads_readName hh _)

theorem reads_parseSrv (priority weight port : UInt16) {target : Name} (ht : target.Valid) :
    Reads p (parseSrv info) (RecordData.srv priority weight port target).toWire
      (.srv priority weight port target) := by
  simp only [toWire,List.append_assoc]
  apply Reads.bind (reads_readU16 p priority)
  apply Reads.bind (reads_readU16 _ weight)
  apply Reads.bind (reads_readU16 _ port)
  exact Reads.bind_pure (reads_readName ht _)

theorem reads_parseNaptr (order preference : UInt16) {flags services regexp : List UInt8}
    (hf : flags.length ≤ 255) (hs : services.length ≤ 255) (hr : regexp.length ≤ 255)
    {replacement : Name} (hn : replacement.Valid) :
    Reads p (parseNaptr info) (RecordData.naptr order preference flags services regexp replacement).toWire
      (.naptr order preference flags services regexp replacement) := by
  simp only [toWire,List.append_assoc]
  apply Reads.bind (reads_readU16 p order)
  apply Reads.bind (reads_readU16 _ preference)
  apply Reads.bind (reads_readCharacterString _ flags hf)
  apply Reads.bind (reads_readCharacterString _ services hs)
  apply Reads.bind (reads_readCharacterString _ regexp hr)
  exact Reads.bind_pure (reads_readName hn _)

theorem reads_readOption (o : EdnsOption) (ho : o.data.length < 65536) (q : Nat) :
    Reads q readOption o.toWire o := by
  have hlen : o.data.length.toUInt16.toNat = o.data.length := by simp; omega
  simp only [EdnsOption.toWire,List.append_assoc]
  apply Reads.bind (reads_readU16 q o.code)
  apply Reads.bind (reads_readU16 _ o.data.length.toUInt16)
  rw [hlen]
  exact (reads_readBytes _ o.data).map _

theorem reads_parseOpt {os : List EdnsOption} (hos : ∀ o ∈ os, o.data.length < 65536)
    (hl : info.rdlength.toNat = (RecordData.opt os).toWire.length) :
    Reads p (parseOpt info) (RecordData.opt os).toWire (.opt os) := by
  apply reads_rdataEnd_bind
  rw [hl]
  have hne : ∀ o ∈ os, 0 < o.toWire.length := fun o _ => by
    simp only [EdnsOption.toWire,List.length_append,BigEndian.length_ofUInt16]
    omega
  simpa [toWire] using (reads_repeatBefore advances_readOption EdnsOption.toWire id p os hne
    (fun o ho q _ => reads_readOption o (hos o ho) q)).map RecordData.opt

theorem reads_readSigner (s : DelegationSigner) (hl : info.rdlength.toNat = s.toWire.length) :
    Reads p (readSigner info) s.toWire s := by
  apply reads_rdataEnd_bind
  simp only [DelegationSigner.toWire,List.append_assoc,List.cons_append,List.nil_append]
  apply Reads.bind (reads_readU16 p s.keyTag)
  apply Reads.bind (reads_readU8 _ s.algorithm)
  apply Reads.bind (reads_readU8 _ s.digestType)
  refine Reads.bind_pure (reads_readUpTo_of_eq s.digest ?_)
  simp [DelegationSigner.toWire] at hl ⊢
  omega

theorem reads_parseSshfp (algorithm fingerprintType : UInt8) (fingerprint : List UInt8)
    (hl : info.rdlength.toNat = (RecordData.sshfp algorithm fingerprintType fingerprint).toWire.length) :
    Reads p (parseSshfp info) (RecordData.sshfp algorithm fingerprintType fingerprint).toWire
      (.sshfp algorithm fingerprintType fingerprint) := by
  apply reads_rdataEnd_bind
  simp only [toWire,List.cons_append,List.nil_append]
  apply Reads.bind (reads_readU8 p algorithm)
  apply Reads.bind (reads_readU8 _ fingerprintType)
  refine Reads.bind_pure (reads_readUpTo_of_eq fingerprint ?_)
  simp [toWire] at hl ⊢
  omega

theorem reads_parseRrsig (typeCovered : RecordType) (algorithm labels : UInt8)
    (coveredTtl expiration inception : UInt32) (keyTag : UInt16) {signerName : Name}
    (hn : signerName.Valid) (signature : List UInt8)
    (hl : info.rdlength.toNat = (RecordData.rrsig typeCovered algorithm labels coveredTtl expiration
      inception keyTag signerName signature).toWire.length) :
    Reads p (parseRrsig info) (RecordData.rrsig typeCovered algorithm labels coveredTtl expiration
      inception keyTag signerName signature).toWire
      (.rrsig typeCovered algorithm labels coveredTtl expiration inception keyTag signerName signature) := by
  apply reads_rdataEnd_bind
  simp only [toWire,List.append_assoc,List.cons_append,List.nil_append]
  apply Reads.bind (reads_readU16 p typeCovered.code)
  apply Reads.bind (reads_readU8 _ algorithm)
  apply Reads.bind (reads_readU8 _ labels)
  apply Reads.bind (reads_readU32 _ coveredTtl)
  apply Reads.bind (reads_readU32 _ expiration)
  apply Reads.bind (reads_readU32 _ inception)
  apply Reads.bind (reads_readU16 _ keyTag)
  apply Reads.bind (reads_readName hn _)
  refine Reads.bind_pure (reads_readUpTo_of_eq signature ?_)
  simp [toWire] at hl ⊢
  omega

theorem reads_parseNsec {nextDomain : Name} (hn : nextDomain.Valid) (types : List RecordType)
    (hl : info.rdlength.toNat = (RecordData.nsec nextDomain types).toWire.length) :
    Reads p (parseNsec info) (RecordData.nsec nextDomain types).toWire
      (.nsec nextDomain (TypeBitmap.sorted types)) := by
  apply reads_rdataEnd_bind
  simp only [toWire]
  apply Reads.bind (reads_readName hn p)
  refine Reads.bind_pure (reads_typeBitmap_of_eq types ?_)
  simp [toWire] at hl ⊢
  omega

theorem reads_readPublicKey (k : PublicKey) (hl : info.rdlength.toNat = k.toWire.length) :
    Reads p (readPublicKey info) k.toWire k := by
  apply reads_rdataEnd_bind
  simp only [PublicKey.toWire,List.append_assoc,List.cons_append,List.nil_append]
  apply Reads.bind (reads_readU16 p k.flags)
  apply Reads.bind (reads_readU8 _ k.protocol)
  apply Reads.bind (reads_readU8 _ k.algorithm)
  refine Reads.bind_pure (reads_readUpTo_of_eq k.publicKey ?_)
  simp [PublicKey.toWire] at hl ⊢
  omega

theorem reads_parseNsec3 (hashAlgorithm flags : UInt8) (iterations : UInt16)
    {salt nextHashedOwner : List UInt8} (hs : salt.length ≤ 255) (hn : nextHashedOwner.length ≤ 255)
    (types : List RecordType)
    (hl : info.rdlength.toNat = (RecordData.nsec3 hashAlgorithm flags iterations salt nextHashedOwner
      types).toWire.length) :
    Reads p (parseNsec3 info) (RecordData.nsec3 hashAlgorithm flags iterations salt nextHashedOwner
      types).toWire
      (.nsec3 hashAlgorithm flags iterations salt nextHashedOwner (TypeBitmap.sorted types)) := by
  apply reads_rdataEnd_bind
  simp only [toWire,List.append_assoc,List.cons_append,List.nil_append]
  apply Reads.bind (reads_readU8 p hashAlgorithm)
  apply Reads.bind (reads_readU8 _ flags)
  apply Reads.bind (reads_readU16 _ iterations)
  apply Reads.bind (reads_readCharacterString _ salt hs)
  apply Reads.bind (reads_readCharacterString _ nextHashedOwner hn)
  refine Reads.bind_pure (reads_typeBitmap_of_eq types ?_)
  simp [toWire,stringBytes] at hl ⊢
  omega

theorem reads_parseNsec3param (hashAlgorithm flags : UInt8) (iterations : UInt16)
    {salt : List UInt8} (hs : salt.length ≤ 255) :
    Reads p (parseNsec3param info) (RecordData.nsec3param hashAlgorithm flags iterations salt).toWire
      (.nsec3param hashAlgorithm flags iterations salt) := by
  simp only [toWire,List.cons_append,List.nil_append]
  apply Reads.bind (reads_readU8 p hashAlgorithm)
  apply Reads.bind (reads_readU8 _ flags)
  apply Reads.bind (reads_readU16 _ iterations)
  exact Reads.bind_pure (reads_readCharacterString _ salt hs)

theorem reads_parseTlsa (certUsage selector matchingType : UInt8) (data : List UInt8)
    (hl : info.rdlength.toNat = (RecordData.tlsa certUsage selector matchingType data).toWire.length) :
    Reads p (parseTlsa info) (RecordData.tlsa certUsage selector matchingType data).toWire
      (.tlsa certUsage selector matchingType data) := by
  apply reads_rdataEnd_bind
  simp only [toWire,List.cons_append,List.nil_append]
  apply Reads.bind (reads_readU8 p certUsage)
  apply Reads.bind (reads_readU8 _ selector)
  apply Reads.bind (reads_readU8 _ matchingType)
  refine Reads.bind_pure (reads_readUpTo_of_eq data ?_)
  simp [toWire] at hl ⊢
  omega

theorem reads_parseUri (priority weight : UInt16) (target : List UInt8)
    (hl : info.rdlength.toNat = (RecordData.uri priority weight target).toWire.length) :
    Reads p (parseUri info) (RecordData.uri priority weight target).toWire (.uri priority weight target) := by
  apply reads_rdataEnd_bind
  simp only [toWire,List.append_assoc]
  apply Reads.bind (reads_readU16 p priority)
  apply Reads.bind (reads_readU16 _ weight)
  refine Reads.bind_pure (reads_readUpTo_of_eq target ?_)
  simp [toWire] at hl ⊢
  omega

theorem reads_parseCaa (flags : UInt8) {tag : List UInt8} (ht : tag.length ≤ 255) (value : List UInt8)
    (hl : info.rdlength.toNat = (RecordData.caa flags tag value).toWire.length) :
    Reads p (parseCaa info) (RecordData.caa flags tag value).toWire (.caa flags tag value) := by
  apply reads_rdataEnd_bind
  simp only [toWire,List.cons_append]
  apply Reads.bind (reads_readU8 p flags)
  apply Reads.bind (reads_readCharacterString _ tag ht)
  refine Reads.bind_pure (reads_readUpTo_of_eq value ?_)
  simp [toWire,stringBytes] at hl ⊢
  omega

theorem reads_parseNull (data : List UInt8) (hl : info.rdlength.toNat = data.length) :
    Reads p (parseNull info) (RecordData.null data).toWire (.null data) := by
  apply reads_rdataEnd_bind
  exact (reads_readUpTo_of_eq data (by rw [hl])).map RecordData.null

end Parsers

end RecordData

namespace RecordFactory

/-- What a factory reads as RDATA with the given envelope: the parser of its type, or else its
bytes kept opaque. -/
def rdataRead (f : RecordFactory) (info : RecordInfo) : ReadM RecordData :=
  match f.parser? info.rtype with
  | some p => p info
  | none => RecordData.unknown info.rtype <$> Reader.readBytes info.rdlength.toNat

theorem rdataRead_new {info : RecordInfo} {t : RecordType} {q : RdataParser} (ht : info.rtype = t)
    (h : RecordData.builtinParsers.lookup t = some q) : new.rdataRead info = q info := by
  simp [rdataRead,new,ht,h]

end RecordFactory

namespace RecordData

/-- Well-formed data whose strings fit and whose wire form fits a length word reads back, up to
the order of NSEC and NSEC3 types, with the built-in parser of its type. -/
theorem reads_rdataRead {d : RecordData} (hw : d.WellFormed) (hs : d.StringsFit)
    (hlen : d.toWire.length < 65536) {info : RecordInfo} (ht : info.rtype = d.rtype)
    (hl : info.rdlength.toNat = d.toWire.length) (p : Nat) :
    Reads p (RecordFactory.new.rdataRead info) d.toWire d.normalize := by
  have hn : ∀ n ∈ d.names, n.Valid := hw.1
  cases d
  case unknown t data =>
    -- opaque data is of a type without a parser, so its bytes are kept as they are
    have hk : RecordFactory.new.parser? t = none := by
      simpa [opaqueOfKnownType,RecordFactory.knows] using hw.2
    simp only [rtype] at ht
    simp only [RecordFactory.rdataRead,ht,hk,hl]
    exact (reads_readBytes p data).map _
  -- every other type has a built-in parser; the names and strings of the case become its facts
  all_goals
    rw [RecordFactory.rdataRead_new ht rfl]
    simp only [names,strings,StringsFit,List.forall_mem_cons,List.not_mem_nil,false_imp_iff,
      imp_true_iff,and_true] at hn hs
  case a ip => exact reads_parseA ip (by simpa [toWire] using hl)
  case aaaa ip => exact reads_parseAaaa ip (by simpa [toWire] using hl)
  case ns n => exact reads_parseName _ hn
  case cname n => exact reads_parseName _ hn
  case ptr n => exact reads_parseName _ hn
  case dname n => exact reads_parseName _ hn
  case mb n => exact reads_parseName _ hn
  case mg n => exact reads_parseName _ hn
  case mr n => exact reads_parseName _ hn
  case soa => exact reads_parseSoa hn.1 hn.2 _ _ _ _ _
  case hinfo => exact reads_parseHinfo hs.1 hs.2
  case minfo => exact reads_parseMinfo hn.1 hn.2
  case mx => exact reads_parseMx _ hn
  case txt => exact (reads_readStrings hs hl).map _
  case spf => exact (reads_readStrings hs hl).map _
  case rp => exact reads_parseRp hn.1 hn.2
  case afsdb => exact reads_parseAfsdb _ hn
  case srv => exact reads_parseSrv _ _ _ hn
  case naptr => exact reads_parseNaptr _ _ hs.1 hs.2.1 hs.2.2 hn
  case opt os =>
    -- an option's data is part of the RDATA, so it fits a length word too
    refine reads_parseOpt (fun o ho => ?_) hl
    obtain ⟨l₁,l₂,rfl⟩ := List.append_of_mem ho
    simp [toWire,EdnsOption.toWire] at hlen
    omega
  case ds s => exact (reads_readSigner s hl).map _
  case cds s => exact (reads_readSigner s hl).map _
  case sshfp => exact reads_parseSshfp _ _ _ hl
  case rrsig => exact reads_parseRrsig _ _ _ _ _ _ _ hn _ hl
  case nsec => exact reads_parseNsec hn _ hl
  case dnskey k => exact (reads_readPublicKey k hl).map _
  case cdnskey k => exact (reads_readPublicKey k hl).map _
  case nsec3 => exact reads_parseNsec3 _ _ _ hs.1 hs.2 _ hl
  case nsec3param => exact reads_parseNsec3param _ _ _ hs
  case tlsa => exact reads_parseTlsa _ _ _ _ hl
  case uri => exact reads_parseUri _ _ _ hl
  case caa => exact reads_parseCaa _ hs _ hl
  case null => exact reads_parseNull _ hl

end RecordData

theorem Reader.setLimit_of_le {l : Nat} {r : Reader} (h : l ≤ r.data.size ∧ r.pos ≤ l) :
    Reader.setLimit l r = .ok r.limit { r with limit := l, pos_le_limit := h.2, limit_le_size := h.1 } := by
  simp [Reader.setLimit,h]

namespace RecordFactory

/-- RDATA of the declared length reads back what the factory's read makes of it, the reader
ending after it with the limit it had. -/
theorem reads_parseRdata {f : RecordFactory} {info : RecordInfo} {bs : List UInt8} {d : RecordData}
    {p : Nat} (hl : info.rdlength.toNat = bs.length) (hd : Reads p (f.rdataRead info) bs d) :
    Reads p (f.parseRdata info) bs d := by
  intro r hp ha
  have hend : p+bs.length ≤ r.limit := hp ▸ ha.2
  have hsize := r.limit_le_size
  have h₁ : p+bs.length ≤ r.data.size ∧ r.pos ≤ p+bs.length := ⟨by omega,by omega⟩
  obtain ⟨r₂,h₂,hd₂,hl₂,hp₂⟩ := hd ⟨r.data,r.pos,p+bs.length,h₁.2,h₁.1⟩ hp ⟨ha.1,by simp [hp]⟩
  have hsize₂ : r₂.data.size = r.data.size := by rw [hd₂]
  have h₃ : r.limit ≤ r₂.data.size ∧ r₂.pos ≤ r.limit := ⟨by omega,by omega⟩
  refine ⟨{ r₂ with limit := r.limit, pos_le_limit := h₃.2, limit_le_size := h₃.1 },?_,hd₂,rfl,hp₂⟩
  simp only [rdataRead,hl] at h₂
  have hrem : ¬r.remaining < info.rdlength.toNat := by simp only [Reader.remaining]; omega
  unfold parseRdata
  dsimp only
  rw [if_neg hrem,hp,hl,Reader.setLimit_of_le h₁]
  dsimp only
  -- the read is the factory's parser or the opaque one; what follows does not depend on which
  cases hq : f.parser? info.rtype <;> simp only [hq] at h₂ ⊢
  all_goals
    rw [h₂]
    dsimp only
    rw [Reader.setLimit_of_le h₃]
    dsimp only
    rw [if_pos hp₂]

end RecordFactory

/-- The envelope of a record on the wire. -/
def RecordInfo.toWire (info : RecordInfo) : List UInt8 :=
  info.name.toWire ++ BigEndian.ofUInt16 info.rtype.code ++ BigEndian.ofUInt16 info.rclass.code ++
    BigEndian.ofUInt32 info.ttl ++ BigEndian.ofUInt16 info.rdlength

theorem RecordInfo.reads_parse {info : RecordInfo} (hn : info.name.Valid) (p : Nat) :
    Reads p RecordInfo.parse info.toWire info := by
  simp only [RecordInfo.toWire,List.append_assoc]
  apply Reads.bind (reads_readName hn p)
  apply Reads.bind (reads_readU16 _ info.rtype.code)
  apply Reads.bind (reads_readU16 _ info.rclass.code)
  apply Reads.bind (reads_readU32 _ info.ttl)
  exact Reads.bind_pure (reads_readU16 _ info.rdlength)

namespace RecordFactory

theorem reads_parseRecord {f : RecordFactory} {info : RecordInfo} {bs : List UInt8} {d : RecordData}
    {p : Nat} (hn : info.name.Valid) (hl : info.rdlength.toNat = bs.length)
    (hd : Reads (p+info.toWire.length) (f.rdataRead info) bs d) :
    Reads p f.parseRecord (info.toWire ++ bs) ⟨info,d⟩ := by
  apply Reads.bind (RecordInfo.reads_parse hn p)
  exact Reads.bind_pure (reads_parseRdata hl hd)

end RecordFactory

end DnsStub
