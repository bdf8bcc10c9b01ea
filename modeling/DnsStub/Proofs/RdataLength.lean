import DnsStub.Proofs.RecordCodec
/-!
# The declared length of RDATA

Parsers of the types whose data ends by itself (names, character strings and fixed fields) read
exactly the bytes of their data, wherever they stand: with the limit cut inside those bytes they
ask for bytes past it, and the request does not depend on what surrounds the cut. Around such a
parser the factory holds the data to its declared length: the written bytes read back when the
length is theirs, a longer declared length ends the parser early, and a shorter one makes it
ask past the end, each a length mismatch that names how much the parser took or wanted.

Main statements: `Reader.Delimits` with its composition `Delimits.bind`, `delimits_readName`,
`RecordData.delimits_rdataRead`, and `RecordFactory.parseRdata_enforces_rdlength`.
-/
namespace DnsStub

namespace Name

section
variable {data : ByteArray} {limit start : Nat} {hlimit : limit ≤ data.size} {pos seg hops wireLen : Nat}
  {done : Array (List UInt8)}

theorem scanFrom_at_limit (h : limit ≤ pos) :
    scanFrom data limit start hlimit pos seg none hops wireLen done = .error (.unexpectedEof pos 1) := by
  rw [scanFrom]
  simp [show ¬pos < limit by omega]

theorem scanFrom_label_cut {l : List UInt8} (hl : data.data.toList[pos]? = some l.length.toUInt8)
    (hpos : 0 < l.length) (h63 : l.length ≤ maxLabelLength) (hlt : pos < limit)
    (hcut : limit < pos+1+l.length) :
    scanFrom data limit start hlimit pos seg none hops wireLen done =
      .error (.unexpectedEof (pos+1) l.length) := by
  have hbyte : (l.length.toUInt8).toNat = l.length := by
    simp only [Nat.toUInt8_eq,UInt8.toNat_ofNat']
    simp only [maxLabelLength] at h63
    omega
  have hne : l.length.toUInt8 ≠ 0 := by
    intro h
    rw [h] at hbyte
    simp at hbyte
    omega
  rw [scanFrom]
  simp only [Option.isNone_none,if_true,dif_pos hlt,get_eq_of_getElem? hl,hne,if_false,
    toUInt8_and_192 h63,hbyte,if_neg (by decide : ¬(0 : UInt8) = 192)]
  rw [dif_pos hcut]

end

/-- Labels written out in full and cut by the limit `k` bytes in, outside a pointer: the scan
asks for the length byte at the cut, or for the whole label the cut falls in. -/
theorem scanFrom_cut : ∀ {ls : List (List UInt8)}, (∀ l ∈ ls, 0 < l.length ∧ l.length ≤ maxLabelLength) →
    ∀ k ≤ (labelBytes ls).length, ∃ o n, o ≤ k ∧ k < o+n ∧
      ∀ (data : ByteArray) (limit start : Nat) (hlimit : limit ≤ data.size) (pos seg hops wireLen : Nat)
        (done : Array (List UInt8)), limit = pos+k → (labelBytes ls).take k <+: data.data.toList.drop pos →
        wireLen+(ls.map (·.length+1)).sum+1 ≤ maxWireLength →
        scanFrom data limit start hlimit pos seg none hops wireLen done = .error (.unexpectedEof (pos+o) n)
  | [],_,k,hk => by
      have hk0 : k = 0 := by simpa using hk
      exact ⟨0,1,by omega,by omega,fun _ _ _ _ _ _ _ _ _ hl _ _ => by
        simpa using scanFrom_at_limit (by omega)⟩
  | l :: ls,hv,k,hk => by
      have hl := hv l (by simp)
      by_cases hk0 : k = 0
      · exact ⟨0,1,by omega,by omega,fun _ _ _ _ _ _ _ _ _ hl _ _ => by
          simpa using scanFrom_at_limit (by omega)⟩
      by_cases hkl : k ≤ l.length
      · -- the cut falls inside the first label
        refine ⟨1,l.length,by omega,by omega,fun data limit start hlimit pos seg hops wireLen done hlim hpre _ => ?_⟩
        obtain ⟨k',rfl⟩ : ∃ k', k = k'+1 := ⟨k-1,by omega⟩
        rw [labelBytes_cons,List.cons_append,List.take_succ_cons,prefix_drop_cons] at hpre
        exact scanFrom_label_cut hpre.1 hl.1 hl.2 (by omega) (by omega)
      · -- the first label is whole and the cut falls in the rest
        simp only [labelBytes_cons,List.length_cons,List.length_append] at hk
        obtain ⟨o,n,hok,hkn,h⟩ := @scanFrom_cut ls (fun l' hl' => hv l' (by simp [hl']))
          (k-(l.length+1)) (by omega)
        refine ⟨l.length+1+o,n,by omega,by omega,
          fun data limit start hlimit pos seg hops wireLen done hlim hpre hw => ?_⟩
        have e : labelBytes (l :: ls) = (l.length.toUInt8 :: l)++labelBytes ls := rfl
        rw [e,List.take_append,List.take_of_length_le (by simp; omega),List.cons_append,
          prefix_drop_cons,prefix_drop_append] at hpre
        simp only [List.map_cons,List.sum_cons] at hw
        rw [scanFrom_label hpre.1 hl.1 hl.2 hpre.2.1 (fun _ => by omega) (by omega),
          h data limit start hlimit (pos+1+l.length) seg hops _ _ (by omega)
            (by simpa [Nat.add_assoc] using hpre.2.2) (by omega)]
        simp [Nat.add_comm,Nat.add_left_comm]

end Name

namespace Reader

/-- With the limit cut `k` bytes into `bs`, the read fails asking for `n` bytes `o` bytes after
the position, with `o ≤ k < o + n`: the request reaches past the cut, and it is the same wherever
the first `k` bytes of `bs` stand. -/
def Cuts {α : Type} (m : ReadM α) (bs : List UInt8) : Prop :=
  ∀ k < bs.length, ∃ o n, o ≤ k ∧ k < o+n ∧ ∀ r : Reader, r.limit = r.pos+k →
    bs.take k <+: r.data.data.toList.drop r.pos →
    ∃ r', m r = .error (.unexpectedEof (r.pos+o) n) r' ∧ r'.data = r.data ∧ r'.limit = r.limit

/-- A read of exactly the bytes `bs`, as the value `a`: whole before the limit they read back
wherever they stand, and cut by the limit they fail as `Cuts` says. -/
structure Delimits {α : Type} (m : ReadM α) (bs : List UInt8) (a : α) : Prop where
  reads : ∀ p, Reads p m bs a
  cuts : Cuts m bs

section
variable {α β : Type}

theorem Cuts.bind {m : ReadM α} {f : α → ReadM β} {bs cs : List UInt8} {a : α}
    (hm : Delimits m bs a) (hf : Cuts (f a) cs) : Cuts (m >>= f) (bs++cs) := by
  intro k hk
  by_cases hkb : k < bs.length
  · -- the cut falls in the first read, which fails there
    obtain ⟨o,n,hok,hkn,h⟩ := hm.cuts k hkb
    refine ⟨o,n,hok,hkn,fun r hl hpre => ?_⟩
    obtain ⟨r',h',hd,hl'⟩ := h r hl (by rwa [List.take_append_of_le_length (by omega)] at hpre)
    refine ⟨r',?_,hd,hl'⟩
    show EStateM.bind m f r = _
    simp only [EStateM.bind,h']
  · -- the first read is whole and the second one meets the cut
    have hk' : k-bs.length < cs.length := by simp only [List.length_append] at hk; omega
    obtain ⟨o,n,hok,hkn,h⟩ := hf (k-bs.length) hk'
    refine ⟨bs.length+o,n,by omega,by omega,fun r hl hpre => ?_⟩
    rw [List.take_append,List.take_of_length_le (by omega)] at hpre
    obtain ⟨r₁,h₁,hd₁,hl₁,hp₁⟩ := hm.reads r.pos r rfl ⟨(prefix_drop_append.mp hpre).1,by omega⟩
    obtain ⟨r₂,h₂,hd₂,hl₂⟩ := h r₁ (by omega)
      (by rw [hd₁,hp₁]; exact (prefix_drop_append.mp hpre).2)
    refine ⟨r₂,?_,hd₂.trans hd₁,hl₂.trans hl₁⟩
    show EStateM.bind m f r = _
    simp only [EStateM.bind,h₁,h₂,hp₁,Nat.add_assoc]

theorem Delimits.bind {m : ReadM α} {f : α → ReadM β} {bs cs : List UInt8} {a : α} {b : β}
    (hm : Delimits m bs a) (hf : Delimits (f a) cs b) : Delimits (m >>= f) (bs++cs) b :=
  ⟨fun p => (hm.reads p).bind (hf.reads _),Cuts.bind hm hf.cuts⟩

theorem Delimits.pure (a : α) : Delimits (Pure.pure a) [] a :=
  ⟨fun p => Reads.pure p a,fun k hk => absurd hk (Nat.not_lt_zero k)⟩

theorem Delimits.map {m : ReadM α} {bs : List UInt8} {a : α} (f : α → β)
    (hm : Delimits m bs a) : Delimits (f <$> m) bs (f a) := by
  refine ⟨fun p => (hm.reads p).map f,fun k hk => ?_⟩
  obtain ⟨o,n,hok,hkn,h⟩ := hm.cuts k hk
  refine ⟨o,n,hok,hkn,fun r hl hpre => ?_⟩
  obtain ⟨r',h',hd,hl'⟩ := h r hl hpre
  exact ⟨r',by simp only [Functor.map,EStateM.map,h'],hd,hl'⟩

theorem Delimits.bind_pure {m : ReadM α} {bs : List UInt8} {a : α} {f : α → β}
    (hm : Delimits m bs a) : Delimits (m >>= fun x => Pure.pure (f x)) bs (f a) := by
  simpa using hm.bind (f := fun x => (Pure.pure (f x) : ReadM β)) (Delimits.pure (f a))

end

theorem delimits_readVector {n : Nat} (v : Vector UInt8 n) : Delimits (readVector n) v.toList v := by
  refine ⟨fun p => reads_readVector p v,fun k hk => ⟨0,n,Nat.zero_le k,by simpa using hk,
    fun r hl _ => ⟨r,?_,rfl,rfl⟩⟩⟩
  have hk' : k < n := by simpa using hk
  simp only [readVector,show ¬r.pos+n ≤ r.limit by omega,dite_false,Nat.add_zero]

theorem delimits_readBytes (bs : List UInt8) : Delimits (readBytes bs.length) bs bs := by
  simpa [readBytes] using
    (delimits_readVector (⟨bs.toArray,by simp⟩ : Vector UInt8 bs.length)).map (·.toList)

theorem delimits_readU8 (b : UInt8) : Delimits readU8 [b] b := by
  have h := (delimits_readVector #v[b]).bind
    (f := fun v : Vector UInt8 1 => (Pure.pure v[0] : ReadM UInt8)) (Delimits.pure _)
  simpa [readU8] using h

theorem delimits_readU16 (v : UInt16) : Delimits readU16 (BigEndian.ofUInt16 v) v := by
  have h := (delimits_readVector #v[(v >>> 8).toUInt8,v.toUInt8]).bind
    (f := fun w : Vector UInt8 2 => (Pure.pure (BigEndian.toUInt16 w[0] w[1]) : ReadM UInt16))
    (Delimits.pure _)
  simpa [readU16,BigEndian.ofUInt16] using h

theorem delimits_readU32 (v : UInt32) : Delimits readU32 (BigEndian.ofUInt32 v) v := by
  have h := (delimits_readVector
    #v[(v >>> 24).toUInt8,(v >>> 16).toUInt8,(v >>> 8).toUInt8,v.toUInt8]).bind
    (f := fun w : Vector UInt8 4 =>
      (Pure.pure (BigEndian.toUInt32 w[0] w[1] w[2] w[3]) : ReadM UInt32))
    (Delimits.pure _)
  simpa [readU32,BigEndian.ofUInt32] using h

theorem delimits_readCharacterString (s : List UInt8) (hs : s.length ≤ 255) :
    Delimits readCharacterString (s.length.toUInt8 :: s) s := by
  have hlen : s.length.toUInt8.toNat = s.length := by
    simp only [Nat.toUInt8_eq,UInt8.toNat_ofNat']
    omega
  have h := (delimits_readU8 s.length.toUInt8).bind
    (f := fun len => readBytes len.toNat) (hlen ▸ delimits_readBytes s)
  simpa [readCharacterString] using h

/-- A valid name written out in full is read exactly: cut by the limit, the scan asks past the
cut for a length byte or for the rest of a label. -/
theorem delimits_readName {n : Name} (hn : n.Valid) : Delimits readName n.toWire n := by
  refine ⟨reads_readName hn,fun k hk => ?_⟩
  have hk' : k ≤ (Name.labelBytes n.labels).length := by
    simp only [Name.toWire_eq,List.length_append,List.length_singleton] at hk
    omega
  obtain ⟨o,m,hok,hkm,h⟩ := Name.scanFrom_cut hn.1 k hk'
  refine ⟨o,m,hok,hkm,fun r hl hpre => ⟨r,?_,rfl,rfl⟩⟩
  rw [Name.toWire_eq,List.take_append_of_le_length hk'] at hpre
  have hw : 0+(n.labels.map (·.length+1)).sum+1 ≤ Name.maxWireLength := by
    simpa [Name.wireLength_eq_sum] using hn.2
  simp only [readName,h r.data r.limit r.pos r.limit_le_size r.pos r.pos 0 0 #[] hl hpre hw]

end Reader

namespace RecordData
open Reader

section Parsers
variable {info : RecordInfo}

theorem delimits_parseName (mk : Name → RecordData) {n : Name} (hn : n.Valid) :
    Delimits (parseName mk info) n.toWire (mk n) :=
  (delimits_readName hn).map mk

theorem delimits_parseSoa {mname rname : Name} (hm : mname.Valid) (hr : rname.Valid)
    (serial refresh retry expire minimum : UInt32) :
    Delimits (parseSoa info) (RecordData.soa mname rname serial refresh retry expire minimum).toWire
      (.soa mname rname serial refresh retry expire minimum) := by
  simp only [toWire,List.append_assoc]
  apply Delimits.bind (delimits_readName hm)
  apply Delimits.bind (delimits_readName hr)
  apply Delimits.bind (delimits_readU32 serial)
  apply Delimits.bind (delimits_readU32 refresh)
  apply Delimits.bind (delimits_readU32 retry)
  apply Delimits.bind (delimits_readU32 expire)
  exact Delimits.bind_pure (delimits_readU32 minimum)

theorem delimits_parseHinfo {cpu os : List UInt8} (hc : cpu.length ≤ 255) (ho : os.length ≤ 255) :
    Delimits (parseHinfo info) (RecordData.hinfo cpu os).toWire (.hinfo cpu os) := by
  simp only [toWire]
  apply Delimits.bind (delimits_readCharacterString cpu hc)
  exact Delimits.bind_pure (delimits_readCharacterString os ho)

theorem delimits_parseMinfo {rmailbx emailbx : Name} (hr : rmailbx.Valid) (he : emailbx.Valid) :
    Delimits (parseMinfo info) (RecordData.minfo rmailbx emailbx).toWire (.minfo rmailbx emailbx) := by
  simp only [toWire]
  apply Delimits.bind (delimits_readName hr)
  exact Delimits.bind_pure (delimits_readName he)

theorem delimits_parseMx (preference : UInt16) {exchange : Name} (he : exchange.Valid) :
    Delimits (parseMx info) (RecordData.mx preference exchange).toWire (.mx preference exchange) := by
  simp only [toWire]
  apply Delimits.bind (delimits_readU16 preference)
  exact Delimits.bind_pure (delimits_readName he)

theorem delimits_parseRp {mbox txtName : Name} (hm : mbox.Valid) (ht : txtName.Valid) :
    Delimits (parseRp info) (RecordData.rp mbox txtName).toWire (.rp mbox txtName) := by
  simp only [toWire]
  apply Delimits.bind (delimits_readName hm)
  exact Delimits.bind_pure (delimits_readName ht)

theorem delimits_parseAfsdb (subtype : UInt16) {hostname : Name} (hh : hostname.Valid) :
    Delimits (parseAfsdb info) (RecordData.afsdb subtype hostname).toWire (.afsdb subtype hostname) := by
  simp only [toWire]
  apply Delimits.bind (delimits_readU16 subtype)
  exact Delimits.bind_pure (delimits_readName hh)

theorem delimits_parseSrv (priority weight port : UInt16) {target : Name} (ht : target.Valid) :
    Delimits (parseSrv info) (RecordData.srv priority weight port target).toWire
      (.srv priority weight port target) := by
  simp only [toWire,List.append_assoc]
  apply Delimits.bind (delimits_readU16 priority)
  apply Delimits.bind (delimits_readU16 weight)
  apply Delimits.bind (delimits_readU16 port)
  exact Delimits.bind_pure (delimits_readName ht)

theorem delimits_parseNaptr (order preference : UInt16) {flags services regexp : List UInt8}
    (hf : flags.length ≤ 255) (hs : services.length ≤ 255) (hr : regexp.length ≤ 255)
    {replacement : Name} (hn : replacement.Valid) :
    Delimits (parseNaptr info) (RecordData.naptr order preference flags services regexp replacement).toWire
      (.naptr order preference flags services regexp replacement) := by
  simp only [toWire,List.append_assoc]
  apply Delimits.bind (delimits_readU16 order)
  apply Delimits.bind (delimits_readU16 preference)
  apply Delimits.bind (delimits_readCharacterString flags hf)
  apply Delimits.bind (delimits_readCharacterString services hs)
  apply Delimits.bind (delimits_readCharacterString regexp hr)
  exact Delimits.bind_pure (delimits_readName hn)

theorem delimits_parseNsec3param (hashAlgorithm flags : UInt8) (iterations : UInt16)
    {salt : List UInt8} (hs : salt.length ≤ 255) :
    Delimits (parseNsec3param info) (RecordData.nsec3param hashAlgorithm flags iterations salt).toWire
      (.nsec3param hashAlgorithm flags iterations salt) := by
  simp only [toWire,List.cons_append,List.nil_append]
  apply Delimits.bind (delimits_readU8 hashAlgorithm)
  apply Delimits.bind (delimits_readU8 flags)
  apply Delimits.bind (delimits_readU16 iterations)
  exact Delimits.bind_pure (delimits_readCharacterString salt hs)

end Parsers

/-- Data of the types whose RDATA ends by itself, made of names, character strings and fixed
fields with none running to the end of the RDATA: NS, CNAME, PTR, DNAME, MB, MG, MR, SOA, HINFO,
MINFO, MX, RP, AFSDB, SRV, NAPTR and NSEC3PARAM. -/
def selfDelimiting : RecordData → Bool
  | .ns _ | .cname _ | .ptr _ | .dname _ | .mb _ | .mg _ | .mr _ | .soa .. | .hinfo .. | .minfo ..
  | .mx .. | .rp .. | .afsdb .. | .srv .. | .naptr .. | .nsec3param .. => true
  | _ => false

/-- Self-delimiting data with valid names and strings that fit is read exactly, as itself, by
the built-in parser of its type, whatever the declared length. -/
theorem delimits_rdataRead {d : RecordData} (hd : d.selfDelimiting = true)
    (hn : ∀ n ∈ d.names, n.Valid) (hs : d.StringsFit) {info : RecordInfo} (ht : info.rtype = d.rtype) :
    Delimits (RecordFactory.new.rdataRead info) d.toWire d := by
  cases d <;> simp only [selfDelimiting,Bool.false_eq_true] at hd
  all_goals
    rw [RecordFactory.rdataRead_new ht rfl]
    simp only [names,strings,StringsFit,List.forall_mem_cons,List.not_mem_nil,false_imp_iff,
      imp_true_iff,and_true] at hn hs
  case ns n => exact delimits_parseName _ hn
  case cname n => exact delimits_parseName _ hn
  case ptr n => exact delimits_parseName _ hn
  case dname n => exact delimits_parseName _ hn
  case mb n => exact delimits_parseName _ hn
  case mg n => exact delimits_parseName _ hn
  case mr n => exact delimits_parseName _ hn
  case soa => exact delimits_parseSoa hn.1 hn.2 _ _ _ _ _
  case hinfo => exact delimits_parseHinfo hs.1 hs.2
  case minfo => exact delimits_parseMinfo hn.1 hn.2
  case mx => exact delimits_parseMx _ hn
  case rp => exact delimits_parseRp hn.1 hn.2
  case afsdb => exact delimits_parseAfsdb _ hn
  case srv => exact delimits_parseSrv _ _ _ hn
  case naptr => exact delimits_parseNaptr _ _ hs.1 hs.2.1 hs.2.2 hn
  case nsec3param => exact delimits_parseNsec3param _ _ _ hs

end RecordData

namespace RecordFactory
open Reader

section
variable {f : RecordFactory} {info : RecordInfo} {r : Reader}

/-- A parser that ends at `q` on the RDATA gives its data when `q` is the declared end, and a
length mismatch naming how much it took otherwise; the limit goes back either way. -/
theorem parseRdata_of_parsed (hend : r.pos+info.rdlength.toNat ≤ r.limit) {d : RecordData} {q : Nat}
    (h : ∀ r₁ : Reader, r₁.data = r.data → r₁.pos = r.pos → r₁.limit = r.pos+info.rdlength.toNat →
      ∃ r₂, f.rdataRead info r₁ = .ok d r₂ ∧ r₂.data = r₁.data ∧ r₂.limit = r₁.limit ∧ r₂.pos = q) :
    ∃ r', f.parseRdata info r = (if q = r.pos+info.rdlength.toNat then .ok d r'
        else .error (mismatch info (q-r.pos) r.pos) r') ∧ r'.pos = q ∧ r'.limit = r.limit := by
  have hsize := r.limit_le_size
  have h₁ : r.pos+info.rdlength.toNat ≤ r.data.size ∧ r.pos ≤ r.pos+info.rdlength.toNat :=
    ⟨by omega,by omega⟩
  obtain ⟨r₂,h₂,hd₂,hl₂,hp₂⟩ := h ⟨r.data,r.pos,_,h₁.2,h₁.1⟩ rfl rfl rfl
  have hsize₂ : r₂.data.size = r.data.size := by rw [hd₂]
  have hl₂' : r₂.limit = r.pos+info.rdlength.toNat := hl₂
  have h₃ : r.limit ≤ r₂.data.size ∧ r₂.pos ≤ r.limit := ⟨by omega,by have := r₂.pos_le_limit; omega⟩
  refine ⟨{ r₂ with limit := r.limit, pos_le_limit := h₃.2, limit_le_size := h₃.1 },?_,hp₂,rfl⟩
  have hrem : ¬r.remaining < info.rdlength.toNat := by simp only [Reader.remaining]; omega
  simp only [rdataRead] at h₂
  unfold parseRdata
  dsimp only
  rw [if_neg hrem,Reader.setLimit_of_le h₁]
  dsimp only
  cases hq : f.parser? info.rtype <;> simp only [hq] at h₂ ⊢
  all_goals
    rw [h₂]
    dsimp only
    rw [Reader.setLimit_of_le h₃]
    dsimp only
    simp only [hp₂]

/-- A parser that asks for `n` bytes at `o`, reaching past the declared end from within the
RDATA, makes a length mismatch naming how far it wanted to read; the limit goes back. -/
theorem parseRdata_of_eof (hend : r.pos+info.rdlength.toNat ≤ r.limit) {o n : Nat}
    (ho : r.pos ≤ o ∧ o ≤ r.pos+info.rdlength.toNat ∧ r.pos+info.rdlength.toNat < o+n)
    (h : ∀ r₁ : Reader, r₁.data = r.data → r₁.pos = r.pos → r₁.limit = r.pos+info.rdlength.toNat →
      ∃ r₂, f.rdataRead info r₁ = .error (.unexpectedEof o n) r₂ ∧ r₂.data = r₁.data ∧
        r₂.limit = r₁.limit) :
    ∃ r', f.parseRdata info r = .error (mismatch info (o+n-r.pos) r.pos) r' ∧ r'.limit = r.limit := by
  have hsize := r.limit_le_size
  have h₁ : r.pos+info.rdlength.toNat ≤ r.data.size ∧ r.pos ≤ r.pos+info.rdlength.toNat :=
    ⟨by omega,by omega⟩
  obtain ⟨r₂,h₂,hd₂,hl₂⟩ := h ⟨r.data,r.pos,_,h₁.2,h₁.1⟩ rfl rfl rfl
  have hsize₂ : r₂.data.size = r.data.size := by rw [hd₂]
  have hl₂' : r₂.limit = r.pos+info.rdlength.toNat := hl₂
  have h₃ : r.limit ≤ r₂.data.size ∧ r₂.pos ≤ r.limit := ⟨by omega,by have := r₂.pos_le_limit; omega⟩
  refine ⟨{ r₂ with limit := r.limit, pos_le_limit := h₃.2, limit_le_size := h₃.1 },?_,rfl⟩
  have hrem : ¬r.remaining < info.rdlength.toNat := by simp only [Reader.remaining]; omega
  simp only [rdataRead] at h₂
  unfold parseRdata
  dsimp only
  rw [if_neg hrem,Reader.setLimit_of_le h₁]
  dsimp only
  cases hq : f.parser? info.rtype <;> simp only [hq] at h₂ ⊢
  all_goals
    rw [h₂]
    dsimp only
    rw [Reader.setLimit_of_le h₃]
    dsimp only
    rw [if_pos ho]

/-- A parser that fails for another reason than missing bytes fails the record with that
error; the limit goes back. -/
theorem parseRdata_of_error (hend : r.pos+info.rdlength.toNat ≤ r.limit) {e : WireError}
    (he : ∀ o n, e ≠ .unexpectedEof o n)
    (h : ∀ r₁ : Reader, r₁.data = r.data → r₁.pos = r.pos → r₁.limit = r.pos+info.rdlength.toNat →
      ∃ r₂, f.rdataRead info r₁ = .error e r₂ ∧ r₂.data = r₁.data ∧ r₂.limit = r₁.limit) :
    ∃ r', f.parseRdata info r = .error e r' ∧ r'.limit = r.limit := by
  have hsize := r.limit_le_size
  have h₁ : r.pos+info.rdlength.toNat ≤ r.data.size ∧ r.pos ≤ r.pos+info.rdlength.toNat :=
    ⟨by omega,by omega⟩
  obtain ⟨r₂,h₂,hd₂,hl₂⟩ := h ⟨r.data,r.pos,_,h₁.2,h₁.1⟩ rfl rfl rfl
  have hsize₂ : r₂.data.size = r.data.size := by rw [hd₂]
  have hl₂' : r₂.limit = r.pos+info.rdlength.toNat := hl₂
  have h₃ : r.limit ≤ r₂.data.size ∧ r₂.pos ≤ r.limit := ⟨by omega,by have := r₂.pos_le_limit; omega⟩
  refine ⟨{ r₂ with limit := r.limit, pos_le_limit := h₃.2, limit_le_size := h₃.1 },?_,rfl⟩
  have hrem : ¬r.remaining < info.rdlength.toNat := by simp only [Reader.remaining]; omega
  simp only [rdataRead] at h₂
  unfold parseRdata
  dsimp only
  rw [if_neg hrem,Reader.setLimit_of_le h₁]
  dsimp only
  cases hq : f.parser? info.rtype <;> simp only [hq] at h₂ ⊢
  all_goals
    rw [h₂]
    dsimp only
    rw [Reader.setLimit_of_le h₃]
    dsimp only
    split
    · next o n heq =>
        cases heq
        exact absurd rfl (he o n)
    · next heq =>
        cases heq
        rfl
    · next heq => cases heq

variable {bs : List UInt8} {d : RecordData}

/-- RDATA declared longer than the bytes its parser reads: the parser stops early, a length
mismatch naming how many bytes it took. -/
theorem parseRdata_of_short (hd : Delimits (f.rdataRead info) bs d)
    (hlt : bs.length < info.rdlength.toNat) (hb : bs <+: r.data.data.toList.drop r.pos)
    (hend : r.pos+info.rdlength.toNat ≤ r.limit) :
    ∃ r', f.parseRdata info r = .error (mismatch info bs.length r.pos) r' ∧ r'.limit = r.limit := by
  obtain ⟨r',h,_,hl⟩ := parseRdata_of_parsed hend (d := d) (q := r.pos+bs.length)
    fun r₁ hd₁ hp₁ hl₁ => hd.reads r.pos r₁ hp₁ ⟨by rw [hd₁,hp₁]; exact hb,by omega⟩
  refine ⟨r',?_,hl⟩
  rw [h,if_neg (by omega),Nat.add_sub_cancel_left]

/-- RDATA declared shorter than the bytes its parser reads: the parser asks past the end, a
length mismatch naming one count past the declared length, the same for every reader that holds
the declared bytes. -/
theorem parseRdata_of_cut (hd : Cuts (f.rdataRead info) bs) (hlt : info.rdlength.toNat < bs.length) :
    ∃ c, info.rdlength.toNat < c ∧ ∀ r : Reader,
      bs.take info.rdlength.toNat <+: r.data.data.toList.drop r.pos →
      r.pos+info.rdlength.toNat ≤ r.limit →
      ∃ r', f.parseRdata info r = .error (mismatch info c r.pos) r' ∧ r'.limit = r.limit := by
  obtain ⟨o,n,hok,hkn,h⟩ := hd _ hlt
  refine ⟨o+n,hkn,fun r hb hend => ?_⟩
  obtain ⟨r',h',hl⟩ := parseRdata_of_eof hend (o := r.pos+o) (n := n) ⟨by omega,by omega,by omega⟩
    fun r₁ hd₁ hp₁ hl₁ => by
      obtain ⟨r₂,h₂,hd₂,hl₂⟩ := h r₁ (by omega) (by rwa [hd₁,hp₁])
      exact ⟨r₂,by rw [h₂,hp₁],hd₂,hl₂⟩
  refine ⟨r',?_,hl⟩
  rw [h',show r.pos+o+n-r.pos = o+n by omega]

theorem parseRdata_of_wrongLength {n : Nat} {k : Unit → ReadM RecordData}
    (hq : f.rdataRead info = (RecordData.expectLength info n >>= k)) (hl : info.rdlength.toNat ≠ n)
    (hend : r.pos+info.rdlength.toNat ≤ r.limit) :
    ∃ r', f.parseRdata info r = .error (.wrongRdataLength info.rtype n info.rdlength.toNat) r' ∧
      r'.limit = r.limit :=
  parseRdata_of_error hend (fun _ _ => by simp) fun r₁ _ _ _ =>
    ⟨r₁,by simp [hq,RecordData.expectLength,hl,bind,EStateM.bind,throw,throwThe,
      MonadExceptOf.throw,EStateM.throw],rfl,rfl⟩

end

/-- The factory holds RDATA to its declared length `L`. Self-delimiting data with valid names,
written out as the bytes `b`, reads back as itself when `L` is the length of `b`, the reader
stopping right after it. A longer `L` that the message covers ends the parser early, a length
mismatch naming the length of `b`. A shorter `L` makes the parser ask past the end, a length
mismatch naming one count `c` past `L`, which depends neither on where `b` stands nor on what
the message holds after its first `L` bytes. A and AAAA data declared at another length than 4
or 16 bytes fails as such. The limit is as it was in every case. -/
theorem parseRdata_enforces_rdlength :
    (∀ (d : RecordData) (w : Writer) (info : RecordInfo), d.selfDelimiting = true →
      (∀ n ∈ d.names, n.Valid) → d.writeTo Writer.new = .ok w → info.rtype = d.rtype →
      (info.rdlength.toNat = w.toList.length → ∀ r : Reader, r.Ahead w.toList →
        ∃ r', new.parseRdata info r = .ok d r' ∧ r'.pos = r.pos+w.toList.length ∧
          r'.limit = r.limit) ∧
      (w.toList.length < info.rdlength.toNat → ∀ r : Reader,
        w.toList <+: r.data.data.toList.drop r.pos → r.pos+info.rdlength.toNat ≤ r.limit →
        ∃ r', new.parseRdata info r =
          .error (.rdataLengthMismatch d.rtype info.rdlength.toNat w.toList.length r.pos) r' ∧
          r'.limit = r.limit) ∧
      (info.rdlength.toNat < w.toList.length → ∃ c, info.rdlength.toNat < c ∧ ∀ r : Reader,
        w.toList.take info.rdlength.toNat <+: r.data.data.toList.drop r.pos →
        r.pos+info.rdlength.toNat ≤ r.limit →
        ∃ r', new.parseRdata info r =
          .error (.rdataLengthMismatch d.rtype info.rdlength.toNat c r.pos) r' ∧
          r'.limit = r.limit)) ∧
    (∀ (info : RecordInfo) (r : Reader), r.pos+info.rdlength.toNat ≤ r.limit →
      (info.rtype = .a → info.rdlength.toNat ≠ 4 →
        ∃ r', new.parseRdata info r = .error (.wrongRdataLength .a 4 info.rdlength.toNat) r' ∧
          r'.limit = r.limit) ∧
      (info.rtype = .aaaa → info.rdlength.toNat ≠ 16 →
        ∃ r', new.parseRdata info r = .error (.wrongRdataLength .aaaa 16 info.rdlength.toNat) r' ∧
          r'.limit = r.limit)) := by
  refine ⟨fun d w info hd hn hw ht => ?_,fun info r hend => ⟨fun ha hl => ?_,fun ha hl => ?_⟩⟩
  · -- the written bytes are the wire form, which the parser of the type reads exactly
    obtain ⟨hs,hb⟩ := RecordData.writeTo_eq_ok hw
    rw [Writer.toList_new,List.nil_append] at hb
    have hdl := RecordData.delimits_rdataRead hd hn hs ht
    rw [hb]
    refine ⟨fun hl r ha => ?_,fun hlt r hpre hend => ?_,fun hlt => ?_⟩
    · obtain ⟨r',h,_,hl',hp'⟩ := reads_parseRdata hl (hdl.reads r.pos) r rfl ha
      exact ⟨r',h,hp',hl'⟩
    · simpa [mismatch,ht] using parseRdata_of_short hdl hlt hpre hend
    · simpa [mismatch,ht] using parseRdata_of_cut hdl.cuts hlt
  · simpa [ha] using parseRdata_of_wrongLength (rdataRead_new ha rfl) hl hend
  · simpa [ha] using parseRdata_of_wrongLength (rdataRead_new ha rfl) hl hend

/-- MX data with the exchange `m` takes five bytes; declared at three, the parser asks for the
exchange's label past the end, one fixed count past the declared length. -/
theorem parseRdata_enforces_rdlength_mx :
    ∃ c, 3 < c ∧ ∀ r : Reader, [0,10,1] <+: r.data.data.toList.drop r.pos → r.pos+3 ≤ r.limit →
      ∃ r', new.parseRdata ⟨Name.root,.mx,.inet,3600,3⟩ r =
        .error (.rdataLengthMismatch .mx 3 c r.pos) r' ∧ r'.limit = r.limit := by
  have hw : (RecordData.mx 10 ⟨[[109]]⟩).writeTo Writer.new =
      .ok ((Name.mk [[109]]).writeTo (Writer.new.writeU16 10)) := rfl
  have hb : ((Name.mk [[109]]).writeTo (Writer.new.writeU16 10)).toList = [0,10,1,109,0] := by
    rw [(RecordData.writeTo_eq_ok hw).2,Writer.toList_new]
    rfl
  have h := (parseRdata_enforces_rdlength.1 _ _ ⟨Name.root,.mx,.inet,3600,3⟩ rfl (by decide) hw
    rfl).2.2 (by rw [hb]; decide)
  simpa [hb,RecordData.rtype] using h

end RecordFactory

end DnsStub
