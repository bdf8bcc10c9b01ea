import DnsStub.Proofs.RdataLocality
/-!
# RDATA read back writes the same bytes

Reading loses nothing: what each read takes from the message is the encoding of the value it
gives, a character string its length byte and bytes, a name its labels and zero byte. A name
may instead end in a compression pointer, which names one of the first 16384 offsets. When those
bytes all hold 0x40, a reserved label type, every pointer fails, so a name that is read was
written out in full. A type bitmap comes back as the types of its bits, and one in canonical form
(windows ascending, each cut after its last non-zero byte) is what writing those types gives.

So RDATA that reads as the same data after any prefix, with a canonical type bitmap, is written
back as the bytes it was read from.

Main statements: `Reader.Emits` with its composition `Emits.bind`, `Reader.emits_readName`,
`TypeBitmap.bytes_of_canonical`, `RecordData.emits_rdataRead`,
`RecordFactory.parseRdata_writeTo_eq` and `RecordFactory.parseRdata_afterPrefix_toWire`.
-/
namespace DnsStub

namespace BigEndian

@[simp] theorem ofUInt16_toUInt16 (hi lo : UInt8) : ofUInt16 (toUInt16 hi lo) = [hi,lo] := by
  have hh := hi.toNat_lt
  have hl := lo.toNat_lt
  have h := toNat_toUInt16 hi lo
  simp only [ofUInt16,List.cons.injEq,and_true]
  constructor <;> apply UInt8.toNat_inj.mp
  · simp [UInt16.toNat_shiftRight,Nat.shiftRight_eq_div_pow,h]
    omega
  · simp [h]

@[simp] theorem ofUInt32_toUInt32 (b₀ b₁ b₂ b₃ : UInt8) :
    ofUInt32 (toUInt32 b₀ b₁ b₂ b₃) = [b₀,b₁,b₂,b₃] := by
  have h₀ := b₀.toNat_lt
  have h₁ := b₁.toNat_lt
  have h₂ := b₂.toNat_lt
  have h₃ := b₃.toNat_lt
  have h := toNat_toUInt32 b₀ b₁ b₂ b₃
  simp only [ofUInt32,List.cons.injEq,and_true]
  refine ⟨?_,?_,?_,?_⟩ <;> apply UInt8.toNat_inj.mp <;>
    simp [UInt32.toNat_shiftRight,Nat.shiftRight_eq_div_pow,h] <;> omega

end BigEndian

namespace Reader

/-- No label starts in the first 16384 bytes of the message, the offsets a compression pointer
can name: each holds 0x40, a length byte of the reserved label format. -/
def Shielded (data : ByteArray) : Prop :=
  ∀ i < 16384, data.data.toList[i]? = some 0x40

/-- Every success of the read on a shielded message took bytes `bs` from the position, and `P`
relates the value it gave to them; the message and the limit stay as they were. -/
def Emits {α : Type} (m : ReadM α) (P : α → List UInt8 → Prop) : Prop :=
  ∀ r a r', Shielded r.data → m r = .ok a r' →
    r'.data = r.data ∧ r'.limit = r.limit ∧
      ∃ bs, bs <+: r.data.data.toList.drop r.pos ∧ r'.pos = r.pos+bs.length ∧ P a bs

section
variable {α β : Type}

theorem bind_eq_ok {m : ReadM α} {f : α → ReadM β} {r r'' : Reader} {b : β}
    (h : (m >>= f) r = .ok b r'') : ∃ a r', m r = .ok a r' ∧ f a r' = .ok b r'' := by
  change EStateM.bind m f r = _ at h
  simp only [EStateM.bind] at h
  cases hm : m r with
  | ok a r' => rw [hm] at h; exact ⟨a,r',rfl,h⟩
  | error e r' => rw [hm] at h; cases h

theorem map_eq_ok {m : ReadM α} {f : α → β} {r r' : Reader} {b : β}
    (h : (f <$> m) r = .ok b r') : ∃ a, m r = .ok a r' ∧ b = f a := by
  change EStateM.map f m r = _ at h
  simp only [EStateM.map] at h
  cases hm : m r with
  | ok a s => rw [hm] at h; cases h; exact ⟨a,rfl,rfl⟩
  | error e s => rw [hm] at h; cases h

theorem Emits.mono {m : ReadM α} {P Q : α → List UInt8 → Prop} (hm : Emits m P)
    (h : ∀ a bs, P a bs → Q a bs) : Emits m Q := by
  intro r a r' hs hr
  obtain ⟨hd,hl,bs,hp,hq,hP⟩ := hm r a r' hs hr
  exact ⟨hd,hl,bs,hp,hq,h a bs hP⟩

theorem Emits.bind {m : ReadM α} {f : α → ReadM β} {P : α → List UInt8 → Prop}
    {Q : α → β → List UInt8 → Prop} (hm : Emits m P) (hf : ∀ a, Emits (f a) (Q a)) :
    Emits (m >>= f) fun b bs => ∃ a bs₁ bs₂, bs = bs₁++bs₂ ∧ P a bs₁ ∧ Q a b bs₂ := by
  intro r b r'' hs h
  obtain ⟨a,r',h₁,h₂⟩ := bind_eq_ok h
  obtain ⟨hd₁,hl₁,bs₁,hp₁,hq₁,hP⟩ := hm r a r' hs h₁
  obtain ⟨hd₂,hl₂,bs₂,hp₂,hq₂,hQ⟩ := hf a r' b r'' (hd₁ ▸ hs) h₂
  refine ⟨hd₂.trans hd₁,hl₂.trans hl₁,bs₁++bs₂,?_,by simp only [hq₂,hq₁,List.length_append]; omega,
    a,bs₁,bs₂,rfl,hP,hQ⟩
  rw [prefix_drop_append]
  exact ⟨hp₁,by rw [← hd₁,← hq₁]; exact hp₂⟩

theorem Emits.bind_enc {m : ReadM α} {f : α → ReadM β} {e : α → List UInt8}
    {Q : α → β → List UInt8 → Prop} (hm : Emits m fun a bs => bs = e a)
    (hf : ∀ a, Emits (f a) (Q a)) :
    Emits (m >>= f) fun b bs => ∃ a bs₂, bs = e a ++ bs₂ ∧ Q a b bs₂ := by
  refine (hm.bind hf).mono ?_
  rintro b _ ⟨a,_,bs₂,rfl,rfl,hQ⟩
  exact ⟨a,bs₂,rfl,hQ⟩

theorem Emits.pure (a : α) : Emits (Pure.pure a : ReadM α) fun b bs => b = a ∧ bs = [] := by
  intro r b r' _ h
  cases h
  exact ⟨rfl,rfl,[],List.nil_prefix,rfl,rfl,rfl⟩

theorem Emits.map {m : ReadM α} {P : α → List UInt8 → Prop} (f : α → β) (hm : Emits m P) :
    Emits (f <$> m) fun b bs => ∃ a, b = f a ∧ P a bs := by
  intro r b r' hs h
  obtain ⟨a,ha,rfl⟩ := map_eq_ok h
  obtain ⟨hd,hl,bs,hp,hq,hP⟩ := hm r a r' hs ha
  exact ⟨hd,hl,bs,hp,hq,a,rfl,hP⟩

theorem Emits.throw {P : α → List UInt8 → Prop} (e : WireError) :
    Emits (MonadExcept.throw e : ReadM α) P := by
  intro r a r' _ h
  cases h

theorem Emits.ite {c : Prop} [Decidable c] {m m' : ReadM α} {P : α → List UInt8 → Prop}
    (hm : c → Emits m P) (hm' : ¬c → Emits m' P) : Emits (if c then m else m') P := by
  split
  · exact hm ‹_›
  · exact hm' ‹_›

theorem Emits.get_bind {k : Reader → ReadM α} {P : α → List UInt8 → Prop}
    (hk : ∀ r₀, Emits (k r₀) P) : Emits (get >>= k) P :=
  fun r a r' hs h => hk r r a r' hs h

end

theorem emits_readVector (n : Nat) : Emits (readVector n) fun v bs => bs = v.toList := by
  intro r v r' _ h
  by_cases hn : r.pos+n ≤ r.limit
  · rw [readVector,dif_pos hn] at h
    cases h
    refine ⟨rfl,rfl,_,?_,by simp,rfl⟩
    have hsize := r.limit_le_size
    have e : (Vector.ofFn fun i : Fin n => r.data.get (r.pos+i.val) (by omega)).toList =
        (r.data.data.toList.drop r.pos).take n := by
      apply List.ext_getElem
      · simp; omega
      · intro i h₁ _
        simp only [Vector.length_toList] at h₁
        simp only [Vector.getElem_toList,Vector.getElem_ofFn,List.getElem_take,List.getElem_drop]
        rfl
    rw [e]
    exact List.take_prefix _ _
  · rw [readVector,dif_neg hn] at h
    cases h

theorem emits_readBytes (n : Nat) : Emits (readBytes n) fun v bs => bs = v ∧ v.length = n := by
  refine ((emits_readVector n).map _).mono ?_
  rintro _ _ ⟨w,rfl,rfl⟩
  simp

theorem emits_readU8 : Emits readU8 fun v bs => bs = [v] := by
  refine ((emits_readVector 1).bind fun w => Emits.pure w[0]).mono ?_
  rintro v _ ⟨w,_,_,rfl,rfl,rfl,rfl⟩
  apply List.ext_getElem (by simp)
  intro i h₁ _
  simp only [List.length_append,Vector.length_toList,List.length_nil] at h₁
  interval_cases i
  simp

theorem emits_readU16 : Emits readU16 fun v bs => bs = BigEndian.ofUInt16 v := by
  refine ((emits_readVector 2).bind fun w => Emits.pure (BigEndian.toUInt16 w[0] w[1])).mono ?_
  rintro v _ ⟨w,_,_,rfl,rfl,rfl,rfl⟩
  rw [BigEndian.ofUInt16_toUInt16]
  apply List.ext_getElem (by simp)
  intro i h₁ _
  simp only [List.length_append,Vector.length_toList,List.length_nil] at h₁
  interval_cases i <;> simp

theorem emits_readU32 : Emits readU32 fun v bs => bs = BigEndian.ofUInt32 v := by
  refine ((emits_readVector 4).bind fun w =>
    Emits.pure (BigEndian.toUInt32 w[0] w[1] w[2] w[3])).mono ?_
  rintro v _ ⟨w,_,_,rfl,rfl,rfl,rfl⟩
  rw [BigEndian.ofUInt32_toUInt32]
  apply List.ext_getElem (by simp)
  intro i h₁ _
  simp only [List.length_append,Vector.length_toList,List.length_nil] at h₁
  interval_cases i <;> simp

theorem emits_readCharacterString :
    Emits readCharacterString fun s bs => bs = stringBytes s ∧ s.length ≤ 255 := by
  refine (emits_readU8.bind_enc fun len => emits_readBytes len.toNat).mono ?_
  rintro s _ ⟨len,_,rfl,rfl,hl⟩
  have := len.toNat_lt
  refine ⟨?_,by omega⟩
  simp [stringBytes,hl]

theorem emits_readIpv4 : Emits readIpv4 fun ip bs => bs = ip.octets.toList := by
  refine ((emits_readVector 4).map _).mono ?_
  rintro _ _ ⟨_,rfl,rfl⟩
  rfl

theorem emits_readIpv6 : Emits readIpv6 fun ip bs => bs = ip.octets.toList := by
  refine ((emits_readVector 16).map _).mono ?_
  rintro _ _ ⟨_,rfl,rfl⟩
  rfl

theorem emits_readUpTo (stop : Nat) : Emits (readUpTo stop) fun v bs => bs = v := by
  refine Emits.get_bind fun r =>
    Emits.ite (fun _ => (Emits.pure _).mono ?_) (fun _ => (emits_readBytes _).mono ?_)
  · rintro _ _ ⟨rfl,rfl⟩
    rfl
  · exact fun _ _ h => h.1

theorem emits_repeatFrom {α : Type} {step : ReadM α} {P : α → List UInt8 → Prop}
    (adv : Advances step) (hs : Emits step P) (stop : Nat) (acc : Array α) :
    Emits (repeatFrom step adv stop acc) fun xs bs => ∃ ps : List (α × List UInt8),
      xs = acc.toList ++ ps.map Prod.fst ∧ bs = (ps.map Prod.snd).flatten ∧ ∀ p ∈ ps, P p.1 p.2 := by
  intro r xs r'' hsh h
  fun_induction repeatFrom step adv stop acc r
  case case1 acc r _ a r' hstep ih =>
    obtain ⟨hd₁,hl₁,bs₁,hp₁,hq₁,hP⟩ := hs r a r' hsh hstep
    obtain ⟨hd₂,hl₂,bs₂,hp₂,hq₂,ps,hxs,hbs,hps⟩ := ih (hd₁ ▸ hsh) h
    refine ⟨hd₂.trans hd₁,hl₂.trans hl₁,bs₁++bs₂,?_,?_,(a,bs₁) :: ps,?_,?_,?_⟩
    · rw [prefix_drop_append]
      exact ⟨hp₁,by rw [← hd₁,← hq₁]; exact hp₂⟩
    · simp only [hq₂,hq₁,List.length_append]
      omega
    · simp [hxs]
    · simp [hbs]
    · intro p hp
      rcases List.mem_cons.1 hp with rfl | hp
      · exact hP
      · exact hps p hp
  case case2 => cases h
  case case3 =>
    cases h
    exact ⟨rfl,rfl,[],List.nil_prefix,rfl,[],by simp,rfl,by simp⟩

theorem emits_repeatBefore {α : Type} {step : ReadM α} {P : α → List UInt8 → Prop}
    (adv : Advances step) (hs : Emits step P) (stop : Nat) :
    Emits (repeatBefore step adv stop) fun xs bs => ∃ ps : List (α × List UInt8),
      xs = ps.map Prod.fst ∧ bs = (ps.map Prod.snd).flatten ∧ ∀ p ∈ ps, P p.1 p.2 := by
  refine (emits_repeatFrom adv hs stop #[]).mono ?_
  rintro _ _ ⟨ps,hxs,hbs,hps⟩
  exact ⟨ps,by simpa using hxs,hbs,hps⟩

theorem emits_repeatBefore_flatMap {α : Type} {step : ReadM α} {f : α → List UInt8}
    {Q : α → Prop} (adv : Advances step) (hs : Emits step fun a bs => bs = f a ∧ Q a) (stop : Nat) :
    Emits (repeatBefore step adv stop) fun xs bs => bs = xs.flatMap f ∧ ∀ x ∈ xs, Q x := by
  refine (emits_repeatBefore adv hs stop).mono ?_
  rintro _ _ ⟨ps,rfl,rfl,hps⟩
  induction ps with
  | nil => simp
  | cons p ps ih =>
    obtain ⟨hb,hq⟩ := hps p List.mem_cons_self
    obtain ⟨e,hqs⟩ := ih fun q hq => hps q (List.mem_cons_of_mem _ hq)
    refine ⟨by rw [List.map_cons,List.map_cons,List.flatten_cons,List.flatMap_cons,hb,e],?_⟩
    simp only [List.map_cons,List.forall_mem_cons]
    exact ⟨hq,hqs⟩

end Reader

namespace Name

theorem getElem?_toList {data : ByteArray} {i : Nat} (h : i < data.size) :
    data.data.toList[i]? = some data[i] := by
  rw [Array.getElem?_toList,Array.getElem?_eq_getElem h]
  rfl

theorem ofFn_prefix_drop {data : ByteArray} {q n : Nat} (h : q+n ≤ data.size) :
    (List.ofFn fun i : Fin n => data[q+i.val]) <+: data.data.toList.drop q := by
  have e : (List.ofFn fun i : Fin n => data[q+i.val]) = (data.data.toList.drop q).take n := by
    apply List.ext_getElem
    · simp
      omega
    · intro i _ _
      simp
      rfl
  rw [e]
  exact List.take_prefix _ _

theorem toNat_pointer_lt (hi lo : UInt8) : (BigEndian.toUInt16 (hi &&& 0x3F) lo).toNat < 16384 := by
  have hhi : (hi &&& 0x3F).toNat ≤ 63 := by
    rw [UInt8.toNat_and]
    exact Nat.and_le_right
  have := lo.toNat_lt
  rw [BigEndian.toNat_toUInt16]
  omega

section
variable {data : ByteArray} {limit start : Nat} {hlimit : limit ≤ data.size} {pos seg : Nat}
  {resume : Option Nat} {hops wireLen : Nat} {done : Array (List UInt8)}

theorem scanFrom_reserved {x : Array (List UInt8) × Nat} (h : data.data.toList[pos]? = some 0x40) :
    scanFrom data limit start hlimit pos seg resume hops wireLen done ≠ .ok x := by
  have hsize := lt_size_of_getElem? h
  have hb : data[pos] = 0x40 := get_eq_of_getElem? h hsize
  have hp : (0x40 : UInt8) &&& 0xC0 ≠ 0xC0 := by decide
  have hl : (0x40 : UInt8) &&& 0xC0 ≠ 0 := by decide
  rw [scanFrom]
  -- the byte fits no format; before a pointer the limit decides which error it is
  split
  · simp [hb,hp,hl]
    split <;> simp
  · simp [hb,hp,hl]

/-- On a shielded message every pointer fails, so a scan that succeeds read its labels written
out in full from the position, and then a zero byte. -/
theorem scanFrom_shielded (hs : Reader.Shielded data) {labels : Array (List UInt8)} {next : Nat}
    (h : scanFrom data limit start hlimit pos seg resume hops wireLen done = .ok (labels,next)) :
    ∃ ls, labels.toList = done.toList ++ ls ∧ labelBytes ls ++ [0] <+: data.data.toList.drop pos ∧
      next = resume.getD (pos+(labelBytes ls).length+1) := by
  fun_induction scanFrom data limit start hlimit pos seg resume hops wireLen done
  case case1 pos seg resume hops wireLen done bound hbound hp hpos byte h0 =>
    cases h
    refine ⟨[],by simp,?_,by simp⟩
    rw [labelBytes_nil,List.nil_append,prefix_drop_cons,getElem?_toList hpos]
    exact ⟨congrArg some h0,List.nil_prefix⟩
  case case6 pos seg resume hops wireLen done bound hbound hp hpos byte hne hc h2 low target hsize
      hseg hh ih =>
    -- the pointer lands in the shielded bytes, where the scan fails
    exact absurd h (scanFrom_reserved (hs _ (toNat_pointer_lt byte low)))
  case case9 pos seg resume hops wireLen done bound hbound hp hpos byte hne hnc hc len hb total hmax
      label ih =>
    obtain ⟨ls,hls,hpre,hnext⟩ := ih h
    have hlen : label.length = len := List.length_ofFn
    have hbyte : byte = len.toUInt8 := by
      apply UInt8.toNat_inj.mp
      simp [len]
    refine ⟨label :: ls,by simp [hls],?_,?_⟩
    · rw [labelBytes_cons,List.append_assoc,List.cons_append,prefix_drop_cons,prefix_drop_append,
        getElem?_toList hpos,hlen]
      exact ⟨congrArg some hbyte,ofFn_prefix_drop (by omega),hpre⟩
    · rw [hnext]
      simp only [labelBytes_cons,List.length_cons,List.length_append,hlen]
      congr 1
      omega
  all_goals cases h

end

end Name

namespace Reader

/-- On a shielded message a name that is read was written out in full. -/
theorem emits_readName : Emits readName fun n bs => bs = n.toWire := by
  intro r n r' hs h
  unfold readName at h
  split at h
  · cases h
  · rename_i labels next hscan
    obtain ⟨ls,hls,hpre,hnext⟩ := Name.scanFrom_shielded hs hscan
    split at h
    · rename_i r₁ hseek
      cases h
      unfold seek at hseek
      split at hseek
      · cases hseek
        refine ⟨rfl,rfl,Name.labelBytes ls++[0],hpre,?_,?_⟩
        · simp [hnext]
          omega
        · simp [Name.toWire_eq,hls]
      · cases hseek
    · cases h

end Reader

namespace TypeBitmap
open Reader

/-- Windows on the wire, each as its number, the length of its bitmap and the bitmap. -/
def windowsBytes (ws : List (UInt8 × List UInt8)) : List UInt8 :=
  ws.flatMap fun p => p.1 :: p.2.length.toUInt8 :: p.2

/-- The types the bits of windows stand for. -/
def windowsTypes (ws : List (UInt8 × List UInt8)) : List RecordType :=
  ws.flatMap fun p => typesOfWindow p.1 p.2

/-- Every bitmap has one to 32 bytes, as reading requires. -/
def Fit (ws : List (UInt8 × List UInt8)) : Prop :=
  ∀ p ∈ ws, 0 < p.2.length ∧ p.2.length ≤ maxWindowLength

/-- A type bitmap in the form writing gives it: windows of one to 32 bytes in strictly ascending
order, each bitmap ending in a non-zero byte. -/
def Canonical (bs : List UInt8) : Prop :=
  ∃ ws, bs = windowsBytes ws ∧ Fit ws ∧ (ws.map fun p => p.1.toNat).Pairwise (· < ·) ∧
    ∀ p ∈ ws, p.2.getLast? ≠ some 0

theorem emits_readWindow (stop : Nat) : Emits (readWindow stop) fun ts bs => ∃ w bm,
    bs = w :: bm.length.toUInt8 :: bm ∧ ts = typesOfWindow w bm ∧ 0 < bm.length ∧
      bm.length ≤ maxWindowLength := by
  -- the bitmap that a length byte which passed the checks announces
  have hbm : ∀ (q : Nat) (w len : UInt8), Emits (get >>= fun r' : Reader =>
      if len = 0 ∨ maxWindowLength < len.toNat ∨ stop < r'.pos+len.toNat then
        throw (WireError.invalidTypeBitmap q)
      else typesOfWindow w <$> readBytes len.toNat) fun ts bm =>
        ts = typesOfWindow w bm ∧ bm.length = len.toNat ∧ 0 < bm.length ∧
          bm.length ≤ maxWindowLength := by
    intro q w len
    refine Emits.get_bind fun r' => Emits.ite (fun _ => Emits.throw _) fun hc => ?_
    refine ((emits_readBytes len.toNat).map _).mono ?_
    rintro _ _ ⟨bm,rfl,rfl,hl⟩
    have h0 : len.toNat ≠ 0 := fun h => hc (.inl (by simpa [← UInt8.toNat_inj] using h))
    have hmax : len.toNat ≤ maxWindowLength := Nat.le_of_not_lt fun h => hc (.inr (.inl h))
    exact ⟨rfl,hl,by omega,by omega⟩
  unfold readWindow
  refine Emits.get_bind fun r => Emits.ite (fun _ => Emits.throw _) fun _ => ?_
  refine (emits_readU8.bind_enc fun w => emits_readU8.bind_enc fun len => hbm r.pos w len).mono ?_
  rintro _ _ ⟨w,_,rfl,len,bm,rfl,rfl,hl,hpos,hmax⟩
  refine ⟨w,bm,?_,rfl,hpos,hmax⟩
  simp [hl]

theorem emits_read (stop : Nat) : Emits (read stop) fun ts bs =>
    ∃ ws, bs = windowsBytes ws ∧ ts = windowsTypes ws ∧ Fit ws := by
  refine ((emits_repeatBefore _ (emits_readWindow stop) stop).map _).mono ?_
  rintro _ _ ⟨_,rfl,ps,rfl,rfl,hps⟩
  induction ps with
  | nil => exact ⟨[],rfl,rfl,by simp [Fit]⟩
  | cons p ps ih =>
    obtain ⟨w,bm,hb,ht,hpos,hmax⟩ := hps p List.mem_cons_self
    obtain ⟨ws,hbs,hts,hfit⟩ := ih fun q hq => hps q (List.mem_cons_of_mem _ hq)
    refine ⟨(w,bm) :: ws,?_,?_,?_⟩
    · rw [List.map_cons,List.flatten_cons,hb,hbs]
      rfl
    · rw [List.map_cons,List.flatten_cons,ht,hts]
      rfl
    · intro q hq
      rcases List.mem_cons.1 hq with rfl | hq
      · exact ⟨hpos,hmax⟩
      · exact hfit q hq

/-- The length byte of each window delimits its bitmap, so the bytes of windows that fit give
the windows back. -/
theorem windowsBytes_inj {ws ws' : List (UInt8 × List UInt8)} (h : Fit ws) (h' : Fit ws')
    (e : windowsBytes ws = windowsBytes ws') : ws = ws' := by
  induction ws generalizing ws' with
  | nil =>
    cases ws' with
    | nil => rfl
    | cons p ws' => simp [windowsBytes] at e
  | cons p ws ih =>
    cases ws' with
    | nil => simp [windowsBytes] at e
    | cons p' ws' =>
      obtain ⟨w,bm⟩ := p
      obtain ⟨w',bm'⟩ := p'
      simp only [windowsBytes,List.flatMap_cons,List.cons_append,List.cons.injEq] at e
      obtain ⟨rfl,hl,e⟩ := e
      have hb := h _ List.mem_cons_self
      have hb' := h' _ List.mem_cons_self
      have hlen : bm.length = bm'.length := by
        have := congrArg UInt8.toNat hl
        simp only [maxWindowLength] at hb hb'
        simp at this
        omega
      obtain ⟨rfl,e'⟩ := List.append_inj e hlen
      rw [ih (fun q hq => h q (List.mem_cons_of_mem _ hq))
        (fun q hq => h' q (List.mem_cons_of_mem _ hq)) e']

/-! ### Bits of windows -/

theorem mem_typesOfWindow {w : UInt8} {bm : List UInt8} {t : RecordType} :
    t ∈ typesOfWindow w bm ↔ ∃ i < bm.length, ∃ bit < 8,
      (bm.getD i 0).toNat.testBit (7-bit) = true ∧ t = ⟨(w.toNat*256+i*8+bit).toUInt16⟩ := by
  simp only [typesOfWindow,List.mem_flatMap,List.mem_range,List.mem_filterMap]
  constructor
  · rintro ⟨i,hi,bit,hbit,h⟩
    split at h
    · exact ⟨i,hi,bit,hbit,‹_›,(Option.some.inj h).symm⟩
    · cases h
  · rintro ⟨i,hi,bit,hbit,hset,rfl⟩
    exact ⟨i,hi,bit,hbit,by rw [if_pos hset]⟩

theorem toNat_windowCode (w : UInt8) {i bit : Nat} (hi : i < 32) (hbit : bit < 8) :
    (w.toNat*256+i*8+bit).toUInt16.toNat = w.toNat*256+i*8+bit := by
  have := w.toNat_lt
  simp only [Nat.toUInt16_eq,UInt16.toNat_ofNat']
  omega

theorem byte_eq_of_testBit {a b : UInt8}
    (h : ∀ bit < 8, a.toNat.testBit (7-bit) = b.toNat.testBit (7-bit)) : a = b := by
  apply UInt8.toNat_inj.mp
  apply Nat.eq_of_testBit_eq
  intro j
  by_cases hj : j < 8
  · have := h (7-j) (by omega)
    rwa [show 7-(7-j) = j by omega] at this
  · have hp : 2^8 ≤ 2^j := Nat.pow_le_pow_right (by decide) (by omega)
    rw [Nat.testBit_eq_false_of_lt (by have := a.toNat_lt; omega),
      Nat.testBit_eq_false_of_lt (by have := b.toNat_lt; omega)]

theorem exists_testBit {b : UInt8} (h : b ≠ 0) : ∃ bit < 8, b.toNat.testBit (7-bit) = true := by
  obtain ⟨j,hj⟩ := Nat.exists_testBit_of_ne_zero fun h0 => h (by simpa [← UInt8.toNat_inj] using h0)
  have hj8 : j < 8 := by
    by_contra hn
    have hp : 2^8 ≤ 2^j := Nat.pow_le_pow_right (by decide) (by omega)
    rw [Nat.testBit_eq_false_of_lt (by have := b.toNat_lt; omega)] at hj
    cases hj
  exact ⟨7-j,by omega,by rwa [show 7-(7-j) = j by omega]⟩

theorem trimmed_append_replicate {bm : List UInt8} (h : bm.getLast? ≠ some 0) (k : Nat) :
    trimmed (bm ++ List.replicate k 0) = bm := by
  have hz : (List.replicate k (0 : UInt8)).dropWhile (· = 0) = [] := by
    induction k with
    | zero => rfl
    | succ k ih => simp [List.replicate_succ,ih]
  have hr : bm.reverse.dropWhile (· = 0) = bm.reverse := by
    cases hb : bm.reverse with
    | nil => rfl
    | cons b rest =>
      have hb0 : b ≠ 0 := fun h0 => h (by rw [← List.head?_reverse,hb,h0]; rfl)
      simp [hb0]
  rw [trimmed,List.reverse_append,List.reverse_replicate,List.dropWhile_append,hz]
  simp [hr]

section
variable {ws : List (UInt8 × List UInt8)}

/-- Among windows with distinct numbers, the type of a byte and bit of one window is there
exactly when that window's bitmap has the bit set. -/
theorem any_windowsTypes (hfit : Fit ws) (huniq : ∀ p ∈ ws, ∀ q ∈ ws, p.1 = q.1 → p = q)
    {p : UInt8 × List UInt8} (hp : p ∈ ws) {i bit : Nat} (hi : i < 32) (hbit : bit < 8) :
    ((windowsTypes ws).any fun t => t.code.toNat = p.1.toNat*256+(i*8+bit)) =
      (p.2.getD i 0).toNat.testBit (7-bit) := by
  apply Bool.eq_iff_iff.2
  simp only [List.any_eq_true,decide_eq_true_eq,windowsTypes,List.mem_flatMap]
  constructor
  · rintro ⟨t,⟨q,hq,ht⟩,hc⟩
    obtain ⟨j,hj,b,hb,hset,rfl⟩ := mem_typesOfWindow.1 ht
    have hj' : j < 32 := by
      have := (hfit q hq).2
      simp only [maxWindowLength] at this
      omega
    rw [toNat_windowCode _ hj' hb] at hc
    -- the code names the window, the byte and the bit
    have hw := q.1.toNat_lt
    have hw' := p.1.toNat_lt
    have e₁ : q.1.toNat = p.1.toNat := by omega
    have e₂ : j = i := by omega
    have e₃ : b = bit := by omega
    obtain rfl := huniq q hq p hp (UInt8.toNat_inj.mp e₁)
    rwa [← e₂,← e₃]
  · intro hset
    have hi' : i < p.2.length := by
      by_contra hn
      rw [List.getD_eq_default _ _ (by omega)] at hset
      simp at hset
    refine ⟨⟨(p.1.toNat*256+i*8+bit).toUInt16⟩,⟨p,hp,mem_typesOfWindow.2 ⟨i,hi',bit,hbit,hset,rfl⟩⟩,?_⟩
    rw [toNat_windowCode _ hi hbit]
    omega

/-- For the types of windows with distinct numbers, writing makes each window's own bitmap,
padded with zeros to 32 bytes. -/
theorem windowBitmap_windowsTypes (hfit : Fit ws) (huniq : ∀ p ∈ ws, ∀ q ∈ ws, p.1 = q.1 → p = q)
    {p : UInt8 × List UInt8} (hp : p ∈ ws) :
    windowBitmap p.1.toNat (windowsTypes ws) =
      p.2 ++ List.replicate (maxWindowLength-p.2.length) 0 := by
  have hlen := (hfit p hp).2
  apply List.ext_getElem
  · simp only [windowBitmap,List.length_map,List.length_range,List.length_append,
      List.length_replicate]
    omega
  · intro i h₁ h₂
    have hi : i < 32 := by simpa [windowBitmap,maxWindowLength] using h₁
    have hbyte : (p.2 ++ List.replicate (maxWindowLength-p.2.length) 0)[i] = p.2.getD i 0 := by
      by_cases hi' : i < p.2.length
      · rw [List.getElem_append_left hi',List.getD_eq_getElem _ _ hi']
      · rw [List.getElem_append_right (by omega),List.getElem_replicate,
          List.getD_eq_default _ _ (by omega)]
    rw [hbyte]
    apply byte_eq_of_testBit
    intro bit hbit
    simp only [windowBitmap,List.getElem_map,List.getElem_range]
    rw [testBit_bitmapByte _ _ hbit,contains_lows _ (by omega),any_windowsTypes hfit huniq hp hi hbit]

theorem windows_windowsTypes (hfit : Fit ws) (hinc : (ws.map fun p => p.1.toNat).Pairwise (· < ·))
    (hlast : ∀ p ∈ ws, p.2.getLast? ≠ some 0) :
    windows (windowsTypes ws) = ws.map fun p => p.1.toNat := by
  have hsorted : (windows (windowsTypes ws)).Pairwise (· < ·) := List.pairwise_lt_range.filter _
  refine hsorted.eq_of_mem_iff hinc fun v => ?_
  simp only [windows,List.mem_filter,List.mem_range,List.any_eq_true,decide_eq_true_eq,
    List.mem_map,windowsTypes,List.mem_flatMap]
  constructor
  · rintro ⟨-,t,⟨p,hp,ht⟩,hc⟩
    obtain ⟨i,hi,bit,hbit,-,rfl⟩ := mem_typesOfWindow.1 ht
    have hi' : i < 32 := by
      have := (hfit p hp).2
      simp only [maxWindowLength] at this
      omega
    rw [toNat_windowCode _ hi' hbit] at hc
    exact ⟨p,hp,by omega⟩
  · rintro ⟨p,hp,rfl⟩
    -- the last byte of the bitmap is not zero, so one of its bits stands for a type
    obtain ⟨hpos,hmax⟩ := hfit p hp
    have hne : p.2 ≠ [] := List.ne_nil_of_length_pos hpos
    have hlast' : p.2.getD (p.2.length-1) 0 ≠ 0 := by
      rw [List.getD_eq_getElem _ _ (by omega),← List.getLast_eq_getElem hne]
      intro h0
      exact hlast p hp (by rw [List.getLast?_eq_some_getLast hne,h0])
    obtain ⟨bit,hbit,hset⟩ := exists_testBit hlast'
    have hi : p.2.length-1 < 32 := by simp only [maxWindowLength] at hmax; omega
    refine ⟨p.1.toNat_lt,⟨(p.1.toNat*256+(p.2.length-1)*8+bit).toUInt16⟩,
      ⟨p,hp,mem_typesOfWindow.2 ⟨_,by omega,bit,hbit,hset,rfl⟩⟩,?_⟩
    rw [toNat_windowCode _ hi hbit]
    omega

theorem bytes_windowsTypes (hfit : Fit ws) (hinc : (ws.map fun p => p.1.toNat).Pairwise (· < ·))
    (hlast : ∀ p ∈ ws, p.2.getLast? ≠ some 0) :
    bytes (windowsTypes ws) = windowsBytes ws := by
  have huniq : ∀ p ∈ ws, ∀ q ∈ ws, p.1 = q.1 → p = q := fun p hp q hq e =>
    List.inj_on_of_nodup_map (hinc.imp Nat.ne_of_lt) hp hq (by rw [e])
  rw [bytes,windows_windowsTypes hfit hinc hlast,List.flatMap_map]
  apply List.flatMap_congr
  intro p hp
  have hw : p.1.toNat.toUInt8 = p.1 := by simp
  rw [windowBytes,windowBitmap_windowsTypes hfit huniq hp,trimmed_append_replicate (hlast p hp),hw]

theorem bytes_of_canonical (hfit : Fit ws) (hc : Canonical (windowsBytes ws)) :
    bytes (windowsTypes ws) = windowsBytes ws := by
  obtain ⟨ws',e,hfit',hinc,hlast⟩ := hc
  obtain rfl := windowsBytes_inj hfit hfit' e
  exact bytes_windowsTypes hfit hinc hlast

end

end TypeBitmap

namespace RecordData
open Reader

/-- Where the type bitmap starts in the wire form of NSEC and NSEC3 data. -/
def bitmapStart : RecordData → Option Nat
  | .nsec nextDomain _ => some nextDomain.wireLength
  | .nsec3 _ _ _ salt nextHashedOwner _ => some (6+salt.length+nextHashedOwner.length)
  | _ => none

/-- Data read from bytes that writing gives back: its character strings fit their length bytes,
and when the type bitmap among the bytes is canonical, its wire form is the bytes. -/
def WritesBack (d : RecordData) (bs : List UInt8) : Prop :=
  d.StringsFit ∧ ((∀ k, d.bitmapStart = some k → TypeBitmap.Canonical (bs.drop k)) → d.toWire = bs)

theorem WritesBack.of_toWire {d : RecordData} {bs : List UInt8} (hs : d.StringsFit)
    (h : d.toWire = bs) : WritesBack d bs :=
  ⟨hs,fun _ => h⟩

theorem WritesBack.of_bitmap {d : RecordData} {pre : List UInt8} {ws : List (UInt8 × List UInt8)}
    (hs : d.StringsFit) (hk : d.bitmapStart = some pre.length) (hfit : TypeBitmap.Fit ws)
    (h : d.toWire = pre ++ TypeBitmap.bytes (TypeBitmap.windowsTypes ws)) :
    WritesBack d (pre ++ TypeBitmap.windowsBytes ws) := by
  refine ⟨hs,fun hc => ?_⟩
  have hc' := hc _ hk
  rw [List.drop_left] at hc'
  rw [h,TypeBitmap.bytes_of_canonical hfit hc']

section Parsers
variable {info : RecordInfo}

theorem emits_expectLength (n : Nat) : Emits (expectLength info n) fun _ bs => bs = [] :=
  Emits.ite (fun _ => (Emits.pure _).mono fun _ _ h => h.2) fun _ => Emits.throw _

theorem emits_rdataEnd : Emits (rdataEnd info) fun _ bs => bs = [] :=
  Emits.get_bind fun _ => (Emits.pure _).mono fun _ _ h => h.2

theorem emits_readOption : Emits readOption fun o bs => bs = o.toWire ∧ o.data.length < 65536 := by
  refine (emits_readU16.bind_enc fun code => emits_readU16.bind_enc fun len =>
    (emits_readBytes len.toNat).map (EdnsOption.mk code)).mono ?_
  rintro _ _ ⟨code,_,rfl,len,_,rfl,data,rfl,rfl,hl⟩
  have := len.toNat_lt
  refine ⟨?_,by simp only [hl]; omega⟩
  simp [EdnsOption.toWire,hl]

theorem emits_readStrings : Emits (readStrings info) fun ss bs =>
    bs = ss.flatMap stringBytes ∧ ∀ s ∈ ss, s.length ≤ 255 := by
  refine (emits_rdataEnd.bind_enc fun stop =>
    emits_repeatBefore_flatMap advances_readCharacterString emits_readCharacterString stop).mono ?_
  rintro _ _ ⟨_,_,rfl,h⟩
  simpa using h

theorem emits_readSigner : Emits (readSigner info) fun s bs => bs = s.toWire := by
  refine (emits_rdataEnd.bind_enc fun stop => emits_readU16.bind_enc fun _ =>
    emits_readU8.bind_enc fun _ => emits_readU8.bind_enc fun _ =>
      (emits_readUpTo stop).bind_enc fun _ => Emits.pure _).mono ?_
  rintro _ _ ⟨_,_,rfl,_,_,rfl,_,_,rfl,_,_,rfl,_,_,rfl,rfl,rfl⟩
  simp [DelegationSigner.toWire]

theorem emits_readPublicKey : Emits (readPublicKey info) fun k bs => bs = k.toWire := by
  refine (emits_rdataEnd.bind_enc fun stop => emits_readU16.bind_enc fun _ =>
    emits_readU8.bind_enc fun _ => emits_readU8.bind_enc fun _ =>
      (emits_readUpTo stop).bind_enc fun _ => Emits.pure _).mono ?_
  rintro _ _ ⟨_,_,rfl,_,_,rfl,_,_,rfl,_,_,rfl,_,_,rfl,rfl,rfl⟩
  simp [PublicKey.toWire]

theorem emits_map {α : Type} {m : ReadM α} {P : α → List UInt8 → Prop} (mk : α → RecordData)
    (hm : Emits m P) (hmk : ∀ a bs, P a bs → WritesBack (mk a) bs) : Emits (mk <$> m) WritesBack := by
  refine (hm.map mk).mono ?_
  rintro _ _ ⟨x,rfl,hP⟩
  exact hmk x _ hP

theorem emits_parseA : Emits (parseA info) WritesBack := by
  refine ((emits_expectLength 4).bind_enc fun _ => emits_readIpv4.map RecordData.a).mono ?_
  rintro _ _ ⟨_,_,rfl,_,rfl,rfl⟩
  exact .of_toWire (by simp [StringsFit,strings]) (by simp [toWire])

theorem emits_parseAaaa : Emits (parseAaaa info) WritesBack := by
  refine ((emits_expectLength 16).bind_enc fun _ => emits_readIpv6.map RecordData.aaaa).mono ?_
  rintro _ _ ⟨_,_,rfl,_,rfl,rfl⟩
  exact .of_toWire (by simp [StringsFit,strings]) (by simp [toWire])

theorem emits_parseSoa : Emits (parseSoa info) WritesBack := by
  refine (emits_readName.bind_enc fun _ => emits_readName.bind_enc fun _ =>
    emits_readU32.bind_enc fun _ => emits_readU32.bind_enc fun _ => emits_readU32.bind_enc fun _ =>
      emits_readU32.bind_enc fun _ => emits_readU32.bind_enc fun _ => Emits.pure _).mono ?_
  rintro _ _ ⟨_,_,rfl,_,_,rfl,_,_,rfl,_,_,rfl,_,_,rfl,_,_,rfl,_,_,rfl,rfl,rfl⟩
  exact .of_toWire (by simp [StringsFit,strings]) (by simp [toWire])

theorem emits_parseHinfo : Emits (parseHinfo info) WritesBack := by
  refine (emits_readCharacterString.bind fun _ => emits_readCharacterString.bind fun _ =>
    Emits.pure _).mono ?_
  rintro _ _ ⟨_,_,_,rfl,⟨rfl,hc⟩,_,_,_,rfl,⟨rfl,ho⟩,rfl,rfl⟩
  exact .of_toWire (by simp [StringsFit,strings,hc,ho]) (by simp [toWire])

theorem emits_parseMinfo : Emits (parseMinfo info) WritesBack := by
  refine (emits_readName.bind_enc fun _ => emits_readName.bind_enc fun _ => Emits.pure _).mono ?_
  rintro _ _ ⟨_,_,rfl,_,_,rfl,rfl,rfl⟩
  exact .of_toWire (by simp [StringsFit,strings]) (by simp [toWire])

theorem emits_parseMx : Emits (parseMx info) WritesBack := by
  refine (emits_readU16.bind_enc fun _ => emits_readName.bind_enc fun _ => Emits.pure _).mono ?_
  rintro _ _ ⟨_,_,rfl,_,_,rfl,rfl,rfl⟩
  exact .of_toWire (by simp [StringsFit,strings]) (by simp [toWire])

theorem emits_parseRp : Emits (parseRp info) WritesBack := by
  refine (emits_readName.bind_enc fun _ => emits_readName.bind_enc fun _ => Emits.pure _).mono ?_
  rintro _ _ ⟨_,_,rfl,_,_,rfl,rfl,rfl⟩
  exact .of_toWire (by simp [StringsFit,strings]) (by simp [toWire])

theorem emits_parseAfsdb : Emits (parseAfsdb info) WritesBack := by
  refine (emits_readU16.bind_enc fun _ => emits_readName.bind_enc fun _ => Emits.pure _).mono ?_
  rintro _ _ ⟨_,_,rfl,_,_,rfl,rfl,rfl⟩
  exact .of_toWire (by simp [StringsFit,strings]) (by simp [toWire])

theorem emits_parseSrv : Emits (parseSrv info) WritesBack := by
  refine (emits_readU16.bind_enc fun _ => emits_readU16.bind_enc fun _ =>
    emits_readU16.bind_enc fun _ => emits_readName.bind_enc fun _ => Emits.pure _).mono ?_
  rintro _ _ ⟨_,_,rfl,_,_,rfl,_,_,rfl,_,_,rfl,rfl,rfl⟩
  exact .of_toWire (by simp [StringsFit,strings]) (by simp [toWire])

theorem emits_parseNaptr : Emits (parseNaptr info) WritesBack := by
  refine (emits_readU16.bind_enc fun _ => emits_readU16.bind_enc fun _ =>
    emits_readCharacterString.bind fun _ => emits_readCharacterString.bind fun _ =>
      emits_readCharacterString.bind fun _ => emits_readName.bind_enc fun _ => Emits.pure _).mono ?_
  rintro _ _ ⟨_,_,rfl,_,_,rfl,_,_,_,rfl,⟨rfl,h₁⟩,_,_,_,rfl,⟨rfl,h₂⟩,_,_,_,rfl,⟨rfl,h₃⟩,_,_,rfl,
    rfl,rfl⟩
  exact .of_toWire (by simp [StringsFit,strings,h₁,h₂,h₃]) (by simp [toWire])

theorem emits_parseOpt : Emits (parseOpt info) WritesBack := by
  refine (emits_rdataEnd.bind_enc fun stop => emits_map RecordData.opt
    (emits_repeatBefore_flatMap advances_readOption emits_readOption stop)
    fun _ _ h => h.1 ▸ .of_toWire (by simp [StringsFit,strings]) rfl).mono ?_
  rintro _ _ ⟨_,_,rfl,h⟩
  simpa using h

theorem emits_parseSshfp : Emits (parseSshfp info) WritesBack := by
  refine (emits_rdataEnd.bind_enc fun stop => emits_readU8.bind_enc fun _ =>
    emits_readU8.bind_enc fun _ => (emits_readUpTo stop).bind_enc fun _ => Emits.pure _).mono ?_
  rintro _ _ ⟨_,_,rfl,_,_,rfl,_,_,rfl,_,_,rfl,rfl,rfl⟩
  exact .of_toWire (by simp [StringsFit,strings]) (by simp [toWire])

theorem emits_parseRrsig : Emits (parseRrsig info) WritesBack := by
  refine (emits_rdataEnd.bind_enc fun stop => emits_readU16.bind_enc fun _ =>
    emits_readU8.bind_enc fun _ => emits_readU8.bind_enc fun _ => emits_readU32.bind_enc fun _ =>
      emits_readU32.bind_enc fun _ => emits_readU32.bind_enc fun _ => emits_readU16.bind_enc fun _ =>
        emits_readName.bind_enc fun _ => (emits_readUpTo stop).bind_enc fun _ => Emits.pure _).mono ?_
  rintro _ _ ⟨_,_,rfl,_,_,rfl,_,_,rfl,_,_,rfl,_,_,rfl,_,_,rfl,_,_,rfl,_,_,rfl,_,_,rfl,_,_,rfl,rfl,
    rfl⟩
  exact .of_toWire (by simp [StringsFit,strings]) (by simp [toWire])

theorem emits_parseNsec : Emits (parseNsec info) WritesBack := by
  refine (emits_rdataEnd.bind_enc fun stop => emits_readName.bind_enc fun _ =>
    (TypeBitmap.emits_read stop).bind fun _ => Emits.pure _).mono ?_
  rintro _ _ ⟨_,_,rfl,n,_,rfl,_,_,_,rfl,⟨ws,rfl,rfl,hfit⟩,rfl,rfl⟩
  have h := @WritesBack.of_bitmap (.nsec n (TypeBitmap.windowsTypes ws)) n.toWire ws
    (by simp [StringsFit,strings]) (by simp [bitmapStart]) hfit rfl
  simpa using h

theorem emits_parseNsec3 : Emits (parseNsec3 info) WritesBack := by
  refine (emits_rdataEnd.bind_enc fun stop => emits_readU8.bind_enc fun _ =>
    emits_readU8.bind_enc fun _ => emits_readU16.bind_enc fun _ =>
      emits_readCharacterString.bind fun _ => emits_readCharacterString.bind fun _ =>
        (TypeBitmap.emits_read stop).bind fun _ => Emits.pure _).mono ?_
  rintro _ _ ⟨_,_,rfl,alg,_,rfl,f,_,rfl,i,_,rfl,salt,_,_,rfl,⟨rfl,hs⟩,hash,_,_,rfl,⟨rfl,hh⟩,
    _,_,_,rfl,⟨ws,rfl,rfl,hfit⟩,rfl,rfl⟩
  have h := @WritesBack.of_bitmap (.nsec3 alg f i salt hash (TypeBitmap.windowsTypes ws))
    ([alg,f] ++ BigEndian.ofUInt16 i ++ stringBytes salt ++ stringBytes hash) ws
    (by simp [StringsFit,strings,hs,hh]) (by simp [bitmapStart,stringBytes]; omega) hfit
    (by simp [toWire])
  simpa using h

theorem emits_parseNsec3param : Emits (parseNsec3param info) WritesBack := by
  refine (emits_readU8.bind_enc fun _ => emits_readU8.bind_enc fun _ =>
    emits_readU16.bind_enc fun _ => emits_readCharacterString.bind fun _ => Emits.pure _).mono ?_
  rintro _ _ ⟨_,_,rfl,_,_,rfl,_,_,rfl,_,_,_,rfl,⟨rfl,hs⟩,rfl,rfl⟩
  exact .of_toWire (by simp [StringsFit,strings,hs]) (by simp [toWire])

theorem emits_parseTlsa : Emits (parseTlsa info) WritesBack := by
  refine (emits_rdataEnd.bind_enc fun stop => emits_readU8.bind_enc fun _ =>
    emits_readU8.bind_enc fun _ => emits_readU8.bind_enc fun _ =>
      (emits_readUpTo stop).bind_enc fun _ => Emits.pure _).mono ?_
  rintro _ _ ⟨_,_,rfl,_,_,rfl,_,_,rfl,_,_,rfl,_,_,rfl,rfl,rfl⟩
  exact .of_toWire (by simp [StringsFit,strings]) (by simp [toWire])

theorem emits_parseUri : Emits (parseUri info) WritesBack := by
  refine (emits_rdataEnd.bind_enc fun stop => emits_readU16.bind_enc fun _ =>
    emits_readU16.bind_enc fun _ => (emits_readUpTo stop).bind_enc fun _ => Emits.pure _).mono ?_
  rintro _ _ ⟨_,_,rfl,_,_,rfl,_,_,rfl,_,_,rfl,rfl,rfl⟩
  exact .of_toWire (by simp [StringsFit,strings]) (by simp [toWire])

theorem emits_parseCaa : Emits (parseCaa info) WritesBack := by
  refine (emits_rdataEnd.bind_enc fun stop => emits_readU8.bind_enc fun _ =>
    emits_readCharacterString.bind fun _ => (emits_readUpTo stop).bind_enc fun _ =>
      Emits.pure _).mono ?_
  rintro _ _ ⟨_,_,rfl,_,_,rfl,_,_,_,rfl,⟨rfl,ht⟩,_,_,rfl,rfl,rfl⟩
  exact .of_toWire (by simp [StringsFit,strings,ht]) (by simp [toWire])

theorem emits_parseNull : Emits (parseNull info) WritesBack := by
  refine (emits_rdataEnd.bind_enc fun stop => emits_map RecordData.null (emits_readUpTo stop)
    fun _ _ hb => hb ▸ .of_toWire (by simp [StringsFit,strings]) rfl).mono ?_
  rintro _ _ ⟨_,_,rfl,h⟩
  simpa using h

end Parsers

theorem emits_builtinParsers : ∀ e ∈ builtinParsers, ∀ info, Emits (e.2 info) WritesBack := by
  simp only [builtinParsers,List.forall_mem_cons,List.not_mem_nil,false_imp_iff,imp_true_iff,
    and_true]
  refine ⟨fun _ => emits_parseA,fun _ => emits_parseAaaa,?_,?_,?_,?_,?_,?_,?_,
    fun _ => emits_parseSoa,fun _ => emits_parseHinfo,fun _ => emits_parseMinfo,
    fun _ => emits_parseMx,?_,?_,fun _ => emits_parseRp,fun _ => emits_parseAfsdb,
    fun _ => emits_parseSrv,fun _ => emits_parseNaptr,fun _ => emits_parseOpt,?_,?_,
    fun _ => emits_parseSshfp,fun _ => emits_parseRrsig,fun _ => emits_parseNsec,?_,?_,
    fun _ => emits_parseNsec3,fun _ => emits_parseNsec3param,fun _ => emits_parseTlsa,
    fun _ => emits_parseUri,fun _ => emits_parseCaa,fun _ => emits_parseNull⟩
  -- the types whose data is one name, character strings, a signer or a public key
  all_goals intro info
  all_goals first
    | exact emits_map _ emits_readName fun _ _ hb => hb ▸ .of_toWire (by simp [StringsFit,strings]) rfl
    | exact emits_map _ emits_readStrings fun _ _ h => h.1 ▸ .of_toWire h.2 rfl
    | exact emits_map _ emits_readSigner fun _ _ hb => hb ▸ .of_toWire (by simp [StringsFit,strings]) rfl
    | exact emits_map _ emits_readPublicKey fun _ _ hb =>
        hb ▸ .of_toWire (by simp [StringsFit,strings]) rfl

theorem emits_rdataRead {info : RecordInfo} : Emits (RecordFactory.new.rdataRead info) WritesBack := by
  unfold RecordFactory.rdataRead
  cases hq : RecordFactory.new.parser? info.rtype with
  | none =>
      exact emits_map _ (emits_readBytes _) fun _ _ h =>
        h.1 ▸ .of_toWire (by simp [StringsFit,strings]) rfl
  | some p =>
      obtain ⟨l₁,l₂,hl,-⟩ := List.lookup_eq_some_iff.mp hq
      have hmem : (info.rtype,p) ∈ builtinParsers := by rw [hl]; simp
      exact emits_builtinParsers _ hmem info

theorem writeStrings_ok {ss : List (List UInt8)} (hs : ∀ s ∈ ss, s.length ≤ 255) (w : Writer) :
    ∃ w', writeStrings ss w = .ok w' := by
  induction ss generalizing w with
  | nil => exact ⟨w,rfl⟩
  | cons s ss ih =>
      have hs₁ : ¬s.length > 255 := by have := hs s List.mem_cons_self; omega
      obtain ⟨w',hw'⟩ := ih (fun t ht => hs t (List.mem_cons_of_mem _ ht))
        ((w.writeU8 s.length.toUInt8).writeBytes s)
      refine ⟨w',?_⟩
      simp only [writeStrings,List.foldlM_cons,Writer.writeCharacterString,if_neg hs₁] at hw' ⊢
      exact hw'

theorem writeTo_ok {d : RecordData} (hs : d.StringsFit) (w : Writer) : ∃ w', d.writeTo w = .ok w' := by
  have hc : ∀ s ∈ d.strings, ∀ w : Writer,
      w.writeCharacterString s = .ok ((w.writeU8 s.length.toUInt8).writeBytes s) := fun s h w => by
    have : ¬s.length > 255 := by have := hs s h; omega
    simp [Writer.writeCharacterString,this]
  cases d
  case txt ss => exact writeStrings_ok hs w
  case spf ss => exact writeStrings_ok hs w
  all_goals simp_all [strings,writeTo,bind,Except.bind,pure,Except.pure]

end RecordData

namespace Reader

/-- A reader at the start of `bs`, after the bytes `pre`, limited by the end of `bs`. -/
def afterPrefix (pre bs : List UInt8) : Reader :=
  ⟨(pre ++ bs).toByteArray,pre.length,(pre ++ bs).length,by simp,by simp⟩

theorem shielded_afterPrefix {pre : List UInt8} (h : ∀ i < 16384, pre[i]? = some 0x40)
    (bs : List UInt8) : Shielded (afterPrefix pre bs).data := by
  intro i hi
  have hlt : i < pre.length := (List.getElem?_eq_some_iff.mp (h i hi)).1
  simp only [afterPrefix,List.data_toByteArray,List.toList_toArray]
  rw [List.getElem?_append_left hlt]
  exact h i hi

end Reader

namespace RecordFactory

/-- RDATA read successfully was read by the factory with the limit at its declared end, and the
read stopped there. -/
theorem rdataRead_of_parseRdata {f : RecordFactory} {info : RecordInfo} {r r' : Reader}
    {d : RecordData} (h : f.parseRdata info r = .ok d r') :
    ∃ r₁ r₂, r₁.data = r.data ∧ r₁.pos = r.pos ∧ r₁.limit = r.pos+info.rdlength.toNat ∧
      f.rdataRead info r₁ = .ok d r₂ ∧ r₂.pos = r.pos+info.rdlength.toNat := by
  have hsize := r.limit_le_size
  have hpos := r.pos_le_limit
  unfold parseRdata at h
  dsimp only at h
  split at h
  · cases h
  · rename_i hrem
    have h₁ : r.pos+info.rdlength.toNat ≤ r.data.size ∧ r.pos ≤ r.pos+info.rdlength.toNat :=
      ⟨by simp only [Reader.remaining] at hrem; omega,by omega⟩
    rw [Reader.setLimit_of_le h₁] at h
    dsimp only at h
    refine ⟨⟨r.data,r.pos,_,h₁.2,h₁.1⟩,?_⟩
    -- the parser of the type or the opaque read; what follows does not depend on which
    cases hx : f.rdataRead info ⟨r.data,r.pos,_,h₁.2,h₁.1⟩ with
    | error e r₂ =>
      simp only [rdataRead] at hx
      cases hq : f.parser? info.rtype <;> simp only [hq] at hx h
      all_goals
        rw [hx] at h
        dsimp only at h
        split at h
        · cases h
        · split at h
          · split at h <;> cases h
          · cases h
          · next heq => cases heq
    | ok d' r₂ =>
      simp only [rdataRead] at hx
      cases hq : f.parser? info.rtype <;> simp only [hq] at hx h
      all_goals
        rw [hx] at h
        dsimp only at h
        split at h
        · cases h
        · rename_i r₃ hset
          unfold Reader.setLimit at hset
          split at hset
          · cases hset
            split at h
            · cases h
              exact ⟨_,rfl,rfl,rfl,rfl,by assumption⟩
            · cases h
          · cases hset

/-- RDATA that reads as the same data whatever bytes come before it is written back as itself,
provided its type bitmap, if it has one, is canonical. A compression pointer names an absolute
offset before the RDATA, so the bytes read after every prefix are those whose names are written
out in full; every wire form that writing gives is one (`parseRdata_afterPrefix_toWire`). -/
theorem parseRdata_writeTo_eq {info : RecordInfo} {b : List UInt8} {d : RecordData}
    (hl : info.rdlength.toNat = b.length)
    (hd : ∀ pre : List UInt8, ∃ r', new.parseRdata info (Reader.afterPrefix pre b) = .ok d r')
    (hbm : ∀ k, d.bitmapStart = some k → TypeBitmap.Canonical (b.drop k)) (w : Writer) :
    ∃ w', d.writeTo w = .ok w' ∧ w'.toList = w.toList ++ b := by
  -- after 16384 bytes of 0x40 every compression pointer fails
  obtain ⟨pre,hpre⟩ : ∃ pre : List UInt8, ∀ i < 16384, pre[i]? = some 0x40 :=
    ⟨List.replicate 16384 0x40,fun i hi => by rw [List.getElem?_replicate,if_pos hi]⟩
  obtain ⟨r',h⟩ := hd pre
  obtain ⟨r₁,r₂,hd₁,hp₁,-,h₁,hp₂⟩ := rdataRead_of_parseRdata h
  have hs : Reader.Shielded r₁.data := by
    rw [hd₁]
    exact Reader.shielded_afterPrefix hpre b
  obtain ⟨-,-,bs,hbs,hq,hfit,hwire⟩ := RecordData.emits_rdataRead r₁ d r₂ hs h₁
  have hbs : bs = b := by
    rw [hd₁,hp₁] at hbs
    simp only [Reader.afterPrefix,List.data_toByteArray,List.toList_toArray,List.drop_left] at hbs
    exact hbs.eq_of_length (by omega)
  subst hbs
  obtain ⟨w',hw'⟩ := RecordData.writeTo_ok hfit w
  exact ⟨w',hw',by rw [(RecordData.writeTo_eq_ok hw').2,hwire hbm]⟩

/-- Data written out in full reads back after every prefix, so every wire form that writing
gives meets the hypothesis of `parseRdata_writeTo_eq`. -/
theorem parseRdata_afterPrefix_toWire {d : RecordData} (hw : d.WellFormed) (hs : d.StringsFit)
    (hlen : d.toWire.length < 65536) {info : RecordInfo} (ht : info.rtype = d.rtype)
    (hl : info.rdlength.toNat = d.toWire.length) (pre : List UInt8) :
    ∃ r', new.parseRdata info (Reader.afterPrefix pre d.toWire) = .ok d.normalize r' := by
  obtain ⟨r',h,-⟩ := reads_parseRdata hl (RecordData.reads_rdataRead hw hs hlen ht hl pre.length)
    (Reader.afterPrefix pre d.toWire) rfl
    ⟨by simp [Reader.afterPrefix],by simp [Reader.afterPrefix]⟩
  exact ⟨r',h⟩

theorem parseRdata_writeTo_eq_mx :
    ∃ w', (RecordData.mx 10 ⟨[[109]]⟩).writeTo Writer.new = .ok w' ∧
      w'.toList = Writer.new.toList ++ [0,10,1,109,0] := by
  have hb : (RecordData.mx 10 ⟨[[109]]⟩).toWire = [0,10,1,109,0] := by decide
  refine @parseRdata_writeTo_eq ⟨Name.root,.mx,.inet,3600,5⟩ [0,10,1,109,0]
    (RecordData.mx 10 ⟨[[109]]⟩) rfl (fun pre => ?_) (by simp [RecordData.bitmapStart]) Writer.new
  rw [← hb]
  exact parseRdata_afterPrefix_toWire (by decide)
    (by simp [RecordData.StringsFit,RecordData.strings]) (by rw [hb]; decide) rfl (by rw [hb]; rfl) pre

end RecordFactory

end DnsStub
