import DnsStub.Proofs.RdataRoundTrip
/-!
# Which type bitmaps read

Reading a type bitmap walks its windows from the position to a stop offset. It refuses the
first window that has fewer than two header bytes before the stop, an empty bitmap, one of more
than 32 bytes, or one running past the stop, with that window's offset; every window before it
is read. So reading succeeds exactly on bytes that are windows of one to 32 bytes each, and
fails, always with an invalid type bitmap at the offending window, exactly when good windows
are followed by a refused one.

With this, the codec round-trips both ways: the written bitmap of a list of types reads back as
its types in ascending order, each once, and a canonical bitmap is written back as read.

Main statements: `read_outcome`, `read_error_iff` and `read_write_roundTrip`.
-/
namespace DnsStub
namespace TypeBitmap
open Reader

/-- The bytes of a message from the reader's position up to an offset. -/
def bytesTo (r : Reader) (stop : Nat) : List UInt8 :=
  (r.data.data.toList.drop r.pos).take (stop - r.pos)

/-- Whether reading refuses the window that the bytes before the stop start with: fewer than
two header bytes, an empty bitmap, one of more than 32 bytes, or one running past the stop. -/
def refuses : List UInt8 → Bool
  | [] => false
  | [_] => true
  | _ :: len :: body => len == 0 || decide (maxWindowLength < len.toNat) || decide (body.length < len.toNat)

theorem length_bytesTo {r : Reader} {stop : Nat} (hs : stop ≤ r.limit) :
    (bytesTo r stop).length = stop - r.pos := by
  have := r.limit_le_size
  simp only [bytesTo, List.length_take, List.length_drop, Array.length_toList, ByteArray.size_data]
  omega

theorem bytesTo_ne_nil {r : Reader} {stop : Nat} (hlt : r.pos < stop) (hs : stop ≤ r.limit) :
    bytesTo r stop ≠ [] := by
  apply List.ne_nil_of_length_pos
  rw [length_bytesTo hs]
  omega

theorem ahead_bytesTo {r : Reader} {stop : Nat} (hp : r.pos ≤ stop) (hs : stop ≤ r.limit) :
    r.Ahead (bytesTo r stop) :=
  ⟨List.take_prefix _ _, by rw [length_bytesTo hs]; omega⟩

theorem bytesTo_eq_append {r r' : Reader} {stop : Nat} {bs : List UInt8}
    (ha : bs <+: bytesTo r stop) (hd : r'.data = r.data) (hp : r'.pos = r.pos + bs.length) :
    bytesTo r stop = bs ++ bytesTo r' stop := by
  obtain ⟨rest, hrest⟩ := ha
  rw [← hrest, List.append_cancel_left_eq]
  have e : bytesTo r stop = bs ++ rest := hrest.symm
  unfold bytesTo at e ⊢
  rw [hd, hp, ← List.drop_drop]
  have hd' := congrArg (List.drop bs.length) e
  rw [List.drop_append_of_le_length (by simp), List.drop_length, List.nil_append,
    List.drop_take] at hd'
  rw [← hd', show stop - (r.pos + bs.length) = stop - r.pos - bs.length by omega]

theorem eq_window_of_refuses_eq_false {bs : List UInt8} (hne : bs ≠ []) (h : refuses bs = false) :
    ∃ w bm more, bs = w :: bm.length.toUInt8 :: bm ++ more ∧ 0 < bm.length ∧
      bm.length ≤ maxWindowLength := by
  rcases bs with _ | ⟨w, _ | ⟨len, body⟩⟩
  · exact absurd rfl hne
  · simp [refuses] at h
  · simp only [refuses, Bool.or_eq_false_iff, beq_eq_false_iff_ne, decide_eq_false_iff_not,
      Nat.not_lt] at h
    obtain ⟨⟨hlen0, hmax⟩, hbody⟩ := h
    have hpos : 0 < len.toNat := by
      have : len.toNat ≠ 0 := fun h0 => hlen0 (UInt8.toNat_inj.1 h0)
      omega
    refine ⟨w, body.take len.toNat, body.drop len.toNat, ?_, by simp; omega, by simp; omega⟩
    have hl : (body.take len.toNat).length.toUInt8 = len := by
      rw [List.length_take, Nat.min_eq_left hbody]
      simp
    rw [hl, List.cons_append, List.cons_append, List.take_append_drop]

section
variable {r : Reader} {stop : Nat}

theorem get_bind_run {α : Type} (k : Reader → ReadM α) (r : Reader) :
    ((get : ReadM Reader) >>= k) r = k r r :=
  rfl

theorem bind_run_of_ok {α β : Type} {m : ReadM α} {f : α → ReadM β} {r r' : Reader} {a : α}
    (h : m r = .ok a r') : (m >>= f) r = f a r' := by
  show EStateM.bind m f r = _
  simp only [EStateM.bind, h]

theorem readWindow_of_refuses (hp : r.pos < stop) (hs : stop ≤ r.limit)
    (h : refuses (bytesTo r stop) = true) :
    ∃ r', readWindow stop r = .error (.invalidTypeBitmap r.pos) r' := by
  unfold readWindow
  rw [get_bind_run]
  by_cases h2 : stop - r.pos < 2
  · rw [if_pos h2]
    exact ⟨r, rfl⟩
  rw [if_neg h2]
  -- two header bytes stand before the stop: the window number and the bitmap's length
  have hlen := length_bytesTo hs (r := r)
  rcases hb : bytesTo r stop with _ | ⟨w, _ | ⟨len, body⟩⟩
  · rw [hb] at hlen; simp at hlen; omega
  · rw [hb] at hlen; simp at hlen; omega
  · rw [hb] at h
    have ha : r.Ahead ([w] ++ ([len] ++ body)) := by
      have := ahead_bytesTo (by omega) hs (r := r)
      rwa [hb] at this
    obtain ⟨r₁, h₁, hd₁, hl₁, hp₁⟩ := reads_readU8 r.pos w r rfl ha.left
    have ha₁ := ha.right hd₁ hl₁ (by simpa using hp₁)
    obtain ⟨r₂, h₂, hd₂, hl₂, hp₂⟩ := reads_readU8 (r.pos + 1) len r₁ (by simpa using hp₁) ha₁.left
    rw [bind_run_of_ok h₁, bind_run_of_ok h₂, get_bind_run]
    rw [hb] at hlen
    simp only [List.length_cons] at hlen
    simp only [refuses, Bool.or_eq_true, beq_iff_eq, decide_eq_true_eq] at h
    simp only [List.length_singleton] at hp₂
    have hbad : len = 0 ∨ maxWindowLength < len.toNat ∨ stop < r₂.pos + len.toNat := by
      rcases h with (h | h) | h
      · exact .inl h
      · exact .inr (.inl h)
      · exact .inr (.inr (by omega))
    rw [if_pos hbad]
    exact ⟨r₂, rfl⟩

theorem readWindow_of_window {w : UInt8} {bm more : List UInt8} (hs : stop ≤ r.limit)
    (hb : bytesTo r stop = w :: bm.length.toUInt8 :: bm ++ more) (hpos : 0 < bm.length)
    (hmax : bm.length ≤ maxWindowLength) :
    ∃ r', readWindow stop r = .ok (typesOfWindow w bm) r' ∧ r'.data = r.data ∧
      r'.limit = r.limit ∧ r'.pos = r.pos + (w :: bm.length.toUInt8 :: bm).length := by
  have hlen := length_bytesTo hs (r := r)
  rw [hb] at hlen
  simp only [List.cons_append, List.length_cons, List.length_append] at hlen
  have ha : r.Ahead ((w :: bm.length.toUInt8 :: bm) ++ more) := by
    have := ahead_bytesTo (by omega) hs (r := r)
    rwa [hb] at this
  exact reads_readWindow w hpos hmax (by omega) r rfl ha.left

end

theorem refuses_window {w : UInt8} {bm : List UInt8} (more : List UInt8) (hpos : 0 < bm.length)
    (hmax : bm.length ≤ maxWindowLength) : refuses (w :: bm.length.toUInt8 :: (bm ++ more)) = false := by
  have hlen : bm.length.toUInt8.toNat = bm.length := by
    simp only [maxWindowLength] at hmax
    simp only [Nat.toUInt8_eq, UInt8.toNat_ofNat']
    omega
  have hne : bm.length.toUInt8 ≠ 0 := fun h0 => by
    have : bm.length = 0 := by rw [← hlen, h0]; rfl
    omega
  simp only [refuses, List.length_append, Bool.or_eq_false_iff, beq_eq_false_iff_ne,
    decide_eq_false_iff_not, Nat.not_lt]
  rw [hlen]
  exact ⟨⟨hne, hmax⟩, by omega⟩

/-- Bytes that reading walks to their end or to a refused window split into windows in one way
only. -/
theorem eq_of_windowsBytes_append {ws ws' : List (UInt8 × List UInt8)} {rest rest' : List UInt8}
    (hfit : Fit ws) (hfit' : Fit ws') (h : windowsBytes ws ++ rest = windowsBytes ws' ++ rest')
    (hr : rest = [] ∨ refuses rest = true) (hr' : rest' = [] ∨ refuses rest' = true) :
    ws = ws' ∧ rest = rest' := by
  induction ws generalizing ws' with
  | nil =>
    cases ws' with
    | nil => simpa [windowsBytes] using h
    | cons p' ps' =>
      -- the rest would start with a window that reading takes
      obtain ⟨hpos, hmax⟩ := hfit' p' List.mem_cons_self
      simp only [windowsBytes, List.flatMap_nil, List.nil_append, List.flatMap_cons,
        List.cons_append, List.append_assoc] at h
      subst h
      simp [refuses_window _ hpos hmax] at hr
  | cons p ps ih =>
    cases ws' with
    | nil =>
      obtain ⟨hpos, hmax⟩ := hfit p List.mem_cons_self
      simp only [windowsBytes, List.flatMap_nil, List.nil_append, List.flatMap_cons,
        List.cons_append, List.append_assoc] at h
      subst h
      simp [refuses_window _ hpos hmax] at hr'
    | cons p' ps' =>
      obtain ⟨w, bm⟩ := p
      obtain ⟨w', bm'⟩ := p'
      have hb := hfit _ List.mem_cons_self
      have hb' := hfit' _ List.mem_cons_self
      simp only [windowsBytes, List.flatMap_cons, List.cons_append, List.append_assoc,
        List.cons.injEq] at h
      obtain ⟨rfl, hl, h⟩ := h
      -- the length byte fixes the bitmap, so the first windows agree
      have hlen : bm.length = bm'.length := by
        have := congrArg UInt8.toNat hl
        simp only [maxWindowLength] at hb hb'
        simp at this
        omega
      obtain ⟨rfl, htail⟩ := List.append_inj h hlen
      obtain ⟨rfl, rfl⟩ := ih (List.forall_mem_cons.1 hfit).2 (List.forall_mem_cons.1 hfit').2 htail
      exact ⟨rfl, rfl⟩

/-- Reading windows up to the stop: either the bytes are windows of one to 32 bytes, all of
them read, or such windows are followed by one that reading refuses, and it fails there with
that window's offset. -/
theorem repeatFrom_readWindow (stop : Nat) (acc : Array (List RecordType)) (r : Reader) :
    r.pos ≤ stop → stop ≤ r.limit →
      (∃ ws, bytesTo r stop = windowsBytes ws ∧ Fit ws ∧ ∃ r',
        repeatFrom (readWindow stop) (advances_readWindow stop) stop acc r =
          .ok (acc.toList ++ ws.map fun p => typesOfWindow p.1 p.2) r') ∨
      (∃ ws rest, bytesTo r stop = windowsBytes ws ++ rest ∧ Fit ws ∧ refuses rest = true ∧ ∃ r',
        repeatFrom (readWindow stop) (advances_readWindow stop) stop acc r =
          .error (.invalidTypeBitmap (r.pos + (windowsBytes ws).length)) r') := by
  fun_induction repeatFrom (readWindow stop) (advances_readWindow stop) stop acc r with
  | case1 acc r hlt a r' hstep ih =>
    intro _ hs
    -- the step read a window, so reading does not refuse the one at the position
    have hok : refuses (bytesTo r stop) = false := by
      by_contra hbad
      obtain ⟨r₀, h₀⟩ := readWindow_of_refuses hlt hs (by simpa using hbad)
      rw [h₀] at hstep
      cases hstep
    obtain ⟨w, bm, more, hb, hpos, hmax⟩ := eq_window_of_refuses_eq_false (bytesTo_ne_nil hlt hs) hok
    obtain ⟨r₂, h₂, hd, hl, hp⟩ := readWindow_of_window hs hb hpos hmax
    rw [h₂] at hstep
    simp only [EStateM.Result.ok.injEq] at hstep
    obtain ⟨rfl, rfl⟩ := hstep
    have hmore : bytesTo r₂ stop = more := by
      have e := @bytesTo_eq_append r r₂ stop _ ⟨more, hb.symm⟩ hd hp
      rw [hb] at e
      exact (List.append_cancel_left e).symm
    have hlen := length_bytesTo hs (r := r)
    rw [hb] at hlen
    simp only [List.cons_append, List.length_cons, List.length_append] at hlen hp
    rcases ih (by omega) (by rw [hl]; exact hs) with ⟨ws, hws, hfit, r₃, h₃⟩ | ⟨ws, rest, hws, hfit, hr, r₃, h₃⟩
    · refine .inl ⟨(w, bm) :: ws, ?_, List.forall_mem_cons.2 ⟨⟨hpos, hmax⟩, hfit⟩, r₃, ?_⟩
      · rw [hb, ← hmore, hws]
        simp [windowsBytes]
      · rw [h₃]
        simp
    · refine .inr ⟨(w, bm) :: ws, rest, ?_, List.forall_mem_cons.2 ⟨⟨hpos, hmax⟩, hfit⟩, hr, r₃, ?_⟩
      · rw [hb, ← hmore, hws]
        simp [windowsBytes]
      · rw [h₃, hp]
        simp [windowsBytes]
        omega
  | case2 acc r hlt e r' hstep =>
    intro _ hs
    -- the step failed, so reading refuses the window at the position
    have hbad : refuses (bytesTo r stop) = true := by
      by_contra hok
      obtain ⟨w, bm, more, hb, hpos, hmax⟩ :=
        eq_window_of_refuses_eq_false (bytesTo_ne_nil hlt hs) (by simpa using hok)
      obtain ⟨r₂, h₂, -⟩ := readWindow_of_window hs hb hpos hmax
      rw [h₂] at hstep
      cases hstep
    obtain ⟨r₀, h₀⟩ := readWindow_of_refuses hlt hs hbad
    rw [h₀] at hstep
    cases hstep
    exact .inr ⟨[], bytesTo r stop, by simp [windowsBytes], by simp [Fit], hbad, r', by simp [windowsBytes]⟩
  | case3 acc r hge =>
    intro hp hs
    have h0 : bytesTo r stop = [] := by
      apply List.eq_nil_of_length_eq_zero
      rw [length_bytesTo hs]
      omega
    exact .inl ⟨[], by simp [h0, windowsBytes], by simp [Fit], r, by simp⟩

section
variable {r : Reader} {stop : Nat}

/-- Reading a type bitmap gives the types of its windows when the bytes up to the stop are
windows of one to 32 bytes, and otherwise fails at the first window it refuses. -/
theorem read_outcome (hp : r.pos ≤ stop) (hs : stop ≤ r.limit) :
    (∃ ws, bytesTo r stop = windowsBytes ws ∧ Fit ws ∧ ∃ r', read stop r = .ok (windowsTypes ws) r') ∨
    (∃ ws rest, bytesTo r stop = windowsBytes ws ++ rest ∧ Fit ws ∧ refuses rest = true ∧ ∃ r',
      read stop r = .error (.invalidTypeBitmap (r.pos + (windowsBytes ws).length)) r') := by
  have hread : read stop r = (List.flatten <$> repeatFrom (readWindow stop) (advances_readWindow stop)
      stop #[] : ReadM (List RecordType)) r := rfl
  rcases repeatFrom_readWindow stop #[] r hp hs with ⟨ws, hws, hfit, r', h⟩ | ⟨ws, rest, hws, hfit, hr, r', h⟩
  · refine .inl ⟨ws, hws, hfit, r', ?_⟩
    rw [hread]
    show EStateM.map _ _ r = _
    simp only [EStateM.map, h, windowsTypes, List.flatMap_def]
    simp
  · refine .inr ⟨ws, rest, hws, hfit, hr, r', ?_⟩
    rw [hread]
    show EStateM.map _ _ r = _
    simp only [EStateM.map, h]

/-- Reading a type bitmap fails, and then always with an invalid type bitmap at the offset of
the offending window, exactly when windows of one to 32 bytes are followed by one that has fewer
than two header bytes before the stop, an empty bitmap, one of more than 32 bytes, or one
running past the stop. -/
theorem read_error_iff (hp : r.pos ≤ stop) (hs : stop ≤ r.limit) (e : WireError) :
    (∃ r', read stop r = .error e r') ↔
      ∃ ws rest, bytesTo r stop = windowsBytes ws ++ rest ∧ Fit ws ∧ refuses rest = true ∧
        e = .invalidTypeBitmap (r.pos + (windowsBytes ws).length) := by
  constructor
  · rintro ⟨r', h⟩
    rcases read_outcome hp hs with ⟨_, _, _, r₀, h₀⟩ | ⟨ws, rest, hws, hfit, hr, r₀, h₀⟩
    · rw [h₀] at h
      cases h
    · rw [h₀] at h
      cases h
      exact ⟨ws, rest, hws, hfit, hr, rfl⟩
  · rintro ⟨ws, rest, hws, hfit, hr, rfl⟩
    -- the bytes split into windows in one way only, so reading stops at this window
    rcases read_outcome hp hs with ⟨ws', hws', hfit', -⟩ | ⟨ws', rest', hws', hfit', hr', r₀, h₀⟩
    · obtain ⟨-, rfl⟩ := eq_of_windowsBytes_append hfit hfit'
        (by rw [← hws, hws', List.append_nil]) (.inr hr) (.inl rfl)
      simp [refuses] at hr
    · obtain ⟨rfl, -⟩ := eq_of_windowsBytes_append hfit hfit' (by rw [← hws, hws']) (.inr hr) (.inr hr')
      exact ⟨r₀, h₀⟩

theorem bytesTo_of_ahead {bs : List UInt8} (ha : r.Ahead bs) : bytesTo r (r.pos + bs.length) = bs := by
  rw [bytesTo, Nat.add_sub_cancel_left]
  exact (List.prefix_iff_eq_take.1 ha.1).symm

theorem read_write (ts : List RecordType) (ha : r.Ahead (write ts .new).toList) :
    ∃ us r', read (r.pos + (write ts .new).toList.length) r = .ok us r' ∧
      (∀ t, t ∈ us ↔ t ∈ ts) ∧ us.Pairwise fun a b => a.code < b.code := by
  rw [toList_write, Writer.toList_new, List.nil_append] at ha ⊢
  obtain ⟨r', h, -⟩ := reads_read r.pos ts r rfl ha
  exact ⟨sorted ts, r', h, fun _ => mem_sorted, sorted_pairwise ts⟩

theorem write_read_canonical {b : List UInt8} (hc : Canonical b) (ha : r.Ahead b) :
    ∃ ts r', read (r.pos + b.length) r = .ok ts r' ∧ (write ts .new).toList = b := by
  obtain ⟨ws, rfl, hfit, hinc, hlast⟩ := hc
  have hb := bytesTo_of_ahead ha
  have hp : r.pos ≤ r.pos + (windowsBytes ws).length := Nat.le_add_right _ _
  rcases read_outcome hp ha.2 with ⟨ws', hws', hfit', r', h⟩ | ⟨ws', rest, hws', hfit', hr, -⟩
  · obtain rfl := windowsBytes_inj hfit' hfit (hws'.symm.trans hb)
    refine ⟨windowsTypes ws', r', h, ?_⟩
    rw [toList_write, Writer.toList_new, List.nil_append, bytes_windowsTypes hfit hinc hlast]
  · -- canonical bytes are windows to their end, so no window is refused
    obtain ⟨-, rfl⟩ := eq_of_windowsBytes_append hfit' hfit
      (by rw [← hws', hb, List.append_nil]) (.inr hr) (.inl rfl)
    simp [refuses] at hr

end

/-- The type bitmap codec, with the reader at an offset and the stop at most its limit: the
bitmap written for a list of types reads back as its types in ascending order, each once; a
canonical bitmap reads and is written back as it was; and reading fails, always with an invalid
type bitmap at the offending window, exactly when windows of one to 32 bytes are followed by one
with fewer than two header bytes before the stop, an empty bitmap, one of more than 32 bytes,
or one running past the stop. -/
theorem typeBitmap_roundTrip :
    (∀ (ts : List RecordType) (r : Reader), r.Ahead (write ts .new).toList →
      ∃ us r', read (r.pos + (write ts .new).toList.length) r = .ok us r' ∧
        (∀ t, t ∈ us ↔ t ∈ ts) ∧ us.Pairwise fun a b => a.code < b.code) ∧
    (∀ (b : List UInt8) (r : Reader), Canonical b → r.Ahead b →
      ∃ ts r', read (r.pos + b.length) r = .ok ts r' ∧ (write ts .new).toList = b) ∧
    ∀ (r : Reader) (stop : Nat) (e : WireError), r.pos ≤ stop → stop ≤ r.limit →
      ((∃ r', read stop r = .error e r') ↔
        ∃ ws rest, bytesTo r stop = windowsBytes ws ++ rest ∧ Fit ws ∧ refuses rest = true ∧
          e = .invalidTypeBitmap (r.pos + (windowsBytes ws).length)) :=
  ⟨fun ts _ ha => read_write ts ha, fun _ _ hc ha => write_read_canonical hc ha,
    fun _ _ e hp hs => read_error_iff hp hs e⟩

/-- The bitmap for A, MX, RRSIG and NSEC, alone in a message, is canonical and reads back as
itself. -/
theorem typeBitmap_roundTrip_window :
    let b : List UInt8 := [0, 6, 0x40, 0x01, 0, 0, 0, 0x03]
    let r := Reader.new ⟨b.toArray⟩
    Canonical b ∧ r.Ahead b ∧
      ∃ ts r', read (r.pos + b.length) r = .ok ts r' ∧ (write ts .new).toList = b := by
  intro b r
  have hc : Canonical b :=
    ⟨[(0, [0x40, 0x01, 0, 0, 0, 0x03])], rfl, by simp [Fit, maxWindowLength], by decide,
      by simp⟩
  have ha : r.Ahead b := ⟨by decide, by decide⟩
  exact ⟨hc, ha, typeBitmap_roundTrip.2.1 b r hc ha⟩

end TypeBitmap
end DnsStub
