import DnsStub.Proofs.Writing
import DnsStub.Record.TypeBitmap
/-!
# Type bitmaps on the wire

A type bitmap holds a set of types. Each bit of a window's bitmap stands for one type of the
window, so the windows of a written list read back as the types of the list in ascending order,
each once, whatever order and repeats the list had. Cutting a bitmap after its last non-zero
byte drops only types that are not there.

Main statements: `toList_write`, `reads_read`, and for what is read back `mem_sorted` and
`sorted_pairwise`.
-/
namespace DnsStub
namespace TypeBitmap
open Reader

/-- The types of a list in ascending order of their codes, each once. -/
def sorted (ts : List RecordType) : List RecordType :=
  (List.range 65536).filterMap fun c =>
    if ts.any fun t => t.code.toNat = c then some ⟨c.toUInt16⟩ else none

/-- The types of a list that fall in a window, ascending, each once. -/
def windowTypes (win : Nat) (ts : List RecordType) : List RecordType :=
  (List.range 256).filterMap fun low =>
    if ts.any fun t => t.code.toNat = win*256+low then some ⟨(win*256+low).toUInt16⟩ else none

/-- The bytes of one window: its number, the length of its cut bitmap, and that bitmap. -/
def windowBytes (ts : List RecordType) (win : Nat) : List UInt8 :=
  win.toUInt8 :: (trimmed (windowBitmap win ts)).length.toUInt8 :: trimmed (windowBitmap win ts)

/-- The bytes of the type bitmap of a list of types. -/
def bytes (ts : List RecordType) : List UInt8 :=
  (windows ts).flatMap (windowBytes ts)

theorem toList_write (ts : List RecordType) (w : Writer) :
    (write ts w).toList = w.toList ++ bytes ts := by
  -- the windows are written by a left fold; the accumulator is any writer
  suffices h : ∀ (wins : List Nat) (w : Writer),
      (wins.foldl (fun w win =>
        ((w.writeU8 win.toUInt8).writeU8 (trimmed (windowBitmap win ts)).length.toUInt8).writeBytes
          (trimmed (windowBitmap win ts))) w).toList = w.toList ++ wins.flatMap (windowBytes ts) from
    h (windows ts) w
  intro wins
  induction wins with
  | nil => simp
  | cons win wins ih => intro w; simp [ih,windowBytes]

/-! ### The bits of a window -/

theorem testBit_foldl (f : Nat → Bool) {bit : Nat} (hbit : bit < 8) :
    ((List.range 8).foldl (fun acc b => if f b then acc+(0x80>>>b) else acc) 0).toUInt8.toNat.testBit (7-bit) =
      f bit := by
  have hr : List.range 8 = [0,1,2,3,4,5,6,7] := rfl
  -- the bit is one of eight, made concrete before the flags are named
  match bit, hbit with
  | 0,_ | 1,_ | 2,_ | 3,_ | 4,_ | 5,_ | 6,_ | 7,_ =>
      simp only [hr,List.foldl_cons,List.foldl_nil]
      generalize f 0 = b0
      generalize f 1 = b1
      generalize f 2 = b2
      generalize f 3 = b3
      generalize f 4 = b4
      generalize f 5 = b5
      generalize f 6 = b6
      generalize f 7 = b7
      revert b0 b1 b2 b3 b4 b5 b6 b7
      decide

theorem testBit_bitmapByte (lows : List Nat) (i : Nat) {bit : Nat} (hbit : bit < 8) :
    ((List.range 8).foldl (fun acc b => if lows.contains (i*8+b) then acc+(0x80>>>b) else acc)
      0).toUInt8.toNat.testBit (7-bit) = lows.contains (i*8+bit) :=
  testBit_foldl (fun b => lows.contains (i*8+b)) hbit

theorem contains_lows {win low : Nat} (ts : List RecordType) (hlow : low < 256) :
    ((ts.filter fun t => t.code.toNat/256 = win).map fun t => t.code.toNat%256).contains low =
      ts.any fun t => t.code.toNat = win*256+low := by
  apply Bool.eq_iff_iff.2
  simp only [List.contains_iff_mem,List.mem_map,List.mem_filter,List.any_eq_true,decide_eq_true_eq]
  constructor
  · rintro ⟨t,⟨ht,hwin⟩,hlo⟩
    exact ⟨t,ht,by omega⟩
  · rintro ⟨t,ht,hc⟩
    exact ⟨t,⟨ht,by omega⟩,by omega⟩

theorem range_mul (m n : Nat) :
    List.range (m*n) = (List.range m).flatMap fun i => (List.range n).map (i*n+·) := by
  induction m with
  | zero => simp
  | succ m ih => rw [Nat.succ_mul,List.range_add,ih,List.range_succ,List.flatMap_append]; simp

theorem typesOfWindow_windowBitmap {win : Nat} (ts : List RecordType) (hwin : win < 256) :
    typesOfWindow win.toUInt8 (windowBitmap win ts) = windowTypes win ts := by
  have hw : win.toUInt8.toNat = win := by simp; omega
  have hlen : (windowBitmap win ts).length = 32 := by simp [windowBitmap,maxWindowLength]
  rw [typesOfWindow,hlen,windowTypes,show 256 = 32*8 from rfl,range_mul,List.filterMap_flatMap]
  apply List.flatMap_congr
  intro i hi
  rw [List.filterMap_map]
  apply List.filterMap_congr
  intro bit hb
  have hi' : i < 32 := List.mem_range.1 hi
  have hb' : bit < 8 := List.mem_range.1 hb
  have hbyte : (windowBitmap win ts).getD i 0 = ((List.range 8).foldl (fun acc b =>
      if ((ts.filter fun t : RecordType => t.code.toNat/256 = win).map
        fun t : RecordType => t.code.toNat%256).contains (i*8+b) then acc+(0x80>>>b) else acc) 0).toUInt8 := by
    rw [windowBitmap,List.getD_eq_getElem _ _ (by simp [maxWindowLength]; omega),List.getElem_map,
      List.getElem_range]
  rw [hbyte,testBit_bitmapByte _ _ hb',contains_lows ts (by omega),hw]
  simp [Nat.add_assoc]

theorem typesOfWindow_append_zeros (window : UInt8) (bm : List UInt8) (k : Nat) :
    typesOfWindow window (bm ++ List.replicate k 0) = typesOfWindow window bm := by
  rw [typesOfWindow,typesOfWindow,List.length_append,List.range_add,List.flatMap_append]
  have hzero : ∀ i ∈ List.range k, (List.range 8).filterMap (fun bit =>
      if ((bm ++ List.replicate k 0).getD (bm.length+i) 0).toNat.testBit (7-bit) then
        some (⟨(window.toNat*256+(bm.length+i)*8+bit).toUInt16⟩ : RecordType) else none) = [] := by
    intro i _
    rw [List.getD_append_right _ _ _ _ (by omega),Nat.add_sub_cancel_left,List.getD_eq_getElem?_getD,
      List.getElem?_getD_replicate_default_eq]
    simp
  rw [List.length_replicate,List.flatMap_map,List.flatMap_eq_nil_iff.2 hzero,List.append_nil]
  apply List.flatMap_congr
  intro i hi
  have hi' : i < bm.length := List.mem_range.1 hi
  simp [List.getD_eq_getElem?_getD,List.getElem?_append_left hi']

theorem trimmed_append_zeros (bm : List UInt8) :
    ∃ k, bm = trimmed bm ++ List.replicate k 0 := by
  let zeros := bm.reverse.takeWhile (· = 0)
  have hz : zeros.reverse = List.replicate zeros.length 0 := by
    rw [List.eq_replicate_iff]
    exact ⟨by simp,fun b hb => by simpa using List.mem_takeWhile_imp (List.mem_reverse.1 hb)⟩
  refine ⟨zeros.length,?_⟩
  calc bm = (zeros ++ bm.reverse.dropWhile (· = 0)).reverse := by
        rw [List.takeWhile_append_dropWhile,List.reverse_reverse]
    _ = trimmed bm ++ List.replicate zeros.length 0 := by rw [List.reverse_append,← hz]; rfl

theorem typesOfWindow_trimmed (window : UInt8) (bm : List UInt8) :
    typesOfWindow window (trimmed bm) = typesOfWindow window bm := by
  obtain ⟨k,hk⟩ := trimmed_append_zeros bm
  conv_rhs => rw [hk]
  rw [typesOfWindow_append_zeros]

theorem length_trimmed_le (bm : List UInt8) : (trimmed bm).length ≤ bm.length := by
  simpa [trimmed] using List.length_dropWhile_le (· = 0) bm.reverse

/-! ### Windows -/

section
variable {ts : List RecordType} {win : Nat}

theorem lt_of_mem_windows (h : win ∈ windows ts) : win < 256 := by
  simp only [windows,List.mem_filter,List.mem_range] at h
  exact h.1

theorem windowTypes_ne_nil (h : win ∈ windows ts) : windowTypes win ts ≠ [] := by
  simp only [windows,List.mem_filter,List.mem_range,List.any_eq_true,decide_eq_true_eq] at h
  obtain ⟨_,t,ht,hwin⟩ := h
  have hlow : t.code.toNat%256 < 256 := Nat.mod_lt _ (by omega)
  apply List.ne_nil_of_mem (a := t)
  simp only [windowTypes,List.mem_filterMap,List.mem_range]
  refine ⟨t.code.toNat%256,hlow,?_⟩
  have hc : win*256+t.code.toNat%256 = t.code.toNat := by omega
  rw [hc,if_pos (List.any_eq_true.2 ⟨t,ht,by simp⟩)]
  simp

theorem typesOfWindow_windowBytes (h : win ∈ windows ts) :
    typesOfWindow win.toUInt8 (trimmed (windowBitmap win ts)) = windowTypes win ts := by
  rw [typesOfWindow_trimmed,typesOfWindow_windowBitmap ts (lt_of_mem_windows h)]

theorem length_trimmed_windowBitmap (h : win ∈ windows ts) :
    0 < (trimmed (windowBitmap win ts)).length ∧
      (trimmed (windowBitmap win ts)).length ≤ maxWindowLength := by
  constructor
  · apply List.length_pos_of_ne_nil
    intro hnil
    apply windowTypes_ne_nil h
    rw [← typesOfWindow_windowBytes h,hnil]
    rfl
  · have := length_trimmed_le (windowBitmap win ts)
    simpa [windowBitmap] using this

end

theorem windowTypes_eq_nil {ts : List RecordType} {win : Nat}
    (h : ∀ t ∈ ts, t.code.toNat/256 ≠ win) : windowTypes win ts = [] := by
  simp only [windowTypes,List.filterMap_eq_nil_iff,List.mem_range]
  intro low hlow
  rw [if_neg]
  simp only [List.any_eq_true,decide_eq_true_eq,not_exists,not_and]
  intro t ht hc
  exact h t ht (by omega)

theorem flatMap_windowTypes (ts : List RecordType) :
    (windows ts).flatMap (fun win => windowTypes win ts) = sorted ts := by
  have hsplit : sorted ts = (List.range 256).flatMap fun win => windowTypes win ts := by
    rw [sorted,show 65536 = 256*256 from rfl,range_mul,List.filterMap_flatMap]
    apply List.flatMap_congr
    intro win _
    rw [List.filterMap_map]
    rfl
  rw [hsplit,windows]
  -- dropping the unused windows drops only empty lists
  induction List.range 256 with
  | nil => rfl
  | cons win wins ih =>
      by_cases hu : (ts.any fun t => t.code.toNat/256 = win) = true
      · simp [hu,ih]
      · have hnil : windowTypes win ts = [] := by
          apply windowTypes_eq_nil
          simpa [List.any_eq_true] using hu
        simp [hu,ih,hnil]

theorem reads_readWindow {stop q : Nat} (window : UInt8) {bm : List UInt8} (hpos : 0 < bm.length)
    (hmax : bm.length ≤ maxWindowLength) (hstop : q+(bm.length+2) ≤ stop) :
    Reads q (readWindow stop) (window :: bm.length.toUInt8 :: bm) (typesOfWindow window bm) := by
  have hlen : bm.length.toUInt8.toNat = bm.length := by
    simp only [maxWindowLength] at hmax
    simp only [Nat.toUInt8_eq,UInt8.toNat_ofNat']
    omega
  unfold readWindow
  apply Reads.get_bind
  intro r hr
  rw [if_neg (by omega)]
  have hbm : Reads (q+2) (get >>= fun r' =>
      if bm.length.toUInt8 = 0 ∨ maxWindowLength < bm.length.toUInt8.toNat ∨
        stop < r'.pos+bm.length.toUInt8.toNat then throw (WireError.invalidTypeBitmap r.pos)
      else typesOfWindow window <$> readBytes bm.length.toUInt8.toNat) bm (typesOfWindow window bm) := by
    apply Reads.get_bind
    intro r' hr'
    have hne : bm.length.toUInt8 ≠ 0 := fun h0 => by
      have h : bm.length = 0 := by rw [← hlen,h0]; rfl
      omega
    have hc : ¬(bm.length.toUInt8 = 0 ∨ maxWindowLength < bm.length.toUInt8.toNat ∨
        stop < r'.pos+bm.length.toUInt8.toNat) := by
      rw [hlen]
      rintro (h0 | hlt | hlt)
      · exact hne h0
      all_goals omega
    rw [if_neg hc,hlen]
    exact (reads_readBytes _ bm).map _
  exact ((reads_readU8 q window).bind ((reads_readU8 _ bm.length.toUInt8).bind hbm)).of_eq rfl

theorem reads_read (p : Nat) (ts : List RecordType) :
    Reads p (read (p+(bytes ts).length)) (bytes ts) (sorted ts) := by
  have hne : ∀ win ∈ windows ts, 0 < (windowBytes ts win).length := fun _ _ => by
    simp [windowBytes]
  have hstep : ∀ win ∈ windows ts, ∀ q, q+(windowBytes ts win).length ≤ p+(bytes ts).length →
      Reads q (readWindow (p+(bytes ts).length)) (windowBytes ts win) (windowTypes win ts) := by
    intro win hwin q hq
    obtain ⟨hpos,hmax⟩ := length_trimmed_windowBitmap hwin
    rw [← typesOfWindow_windowBytes hwin]
    exact reads_readWindow _ hpos hmax (by simpa [windowBytes] using hq)
  have h := (reads_repeatBefore (advances_readWindow (p+(bytes ts).length)) (windowBytes ts)
    (fun win => windowTypes win ts) p (windows ts) hne hstep).map List.flatten
  rw [← flatMap_windowTypes,List.flatMap_def]
  simpa [read,bytes] using h

theorem mem_sorted {ts : List RecordType} {t : RecordType} : t ∈ sorted ts ↔ t ∈ ts := by
  simp only [sorted,List.mem_filterMap,List.mem_range,List.any_eq_true,decide_eq_true_eq]
  constructor
  · rintro ⟨c,_,hc⟩
    split at hc
    · next hex =>
        obtain ⟨t',ht',hcode⟩ := hex
        cases hc
        have : t' = ⟨c.toUInt16⟩ := by cases t'; simp [← hcode]
        exact this ▸ ht'
    · cases hc
  · intro ht
    refine ⟨t.code.toNat,t.code.toNat_lt,?_⟩
    rw [if_pos ⟨t,ht,rfl⟩]
    simp

theorem sorted_pairwise (ts : List RecordType) : (sorted ts).Pairwise fun a b => a.code < b.code := by
  rw [sorted,List.pairwise_filterMap]
  refine (List.pairwise_lt_range (n := 65536)).imp_of_mem ?_
  intro c c' hc hc' hlt a ha b hb
  simp only [List.mem_range] at hc hc'
  split at ha <;> split at hb <;> simp only [Option.some.injEq,reduceCtorEq] at ha hb
  subst ha hb
  simp only [UInt16.lt_iff_toNat_lt,Nat.toUInt16_eq,UInt16.toNat_ofNat']
  omega

theorem sorted_eq_self {ts : List RecordType} (h : ts.Pairwise fun a b => a.code < b.code) :
    sorted ts = ts := by
  have : Std.Irrefl fun a b : RecordType => a.code < b.code := ⟨fun a => UInt16.lt_irrefl a.code⟩
  exact (sorted_pairwise ts).eq_of_mem_iff h fun t => mem_sorted

end TypeBitmap
end DnsStub
