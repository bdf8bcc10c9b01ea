import DnsStub.Proofs.NameScanSafety
/-!
# What each reader operation does, and what a failure leaves behind

The reader's invariant, position ≤ limit ≤ size, is part of its type, so every operation keeps
it; positions are naturals bounded by the size, so no sum or difference of them wraps. What is
left to show is how each operation moves.

Every operation keeps the message. A read of fixed width moves by that width, a read of n bytes
by n, a read up to an offset to that offset, a seek to where it was told; a new limit is set with
the position kept. A failing primitive checks before it moves: it reports a read past the limit,
as `UnexpectedEof`, and leaves the reader as it was. A name, read in one scan and one final seek,
fails with one of a name's own faults and leaves the reader as it was too.

A character string is two primitives in a row, its length byte and then its body, and the first
one is not undone when the second fails: a string whose length byte lies before the limit and
whose body does not fit fails one byte on, after its length byte.

Main statements: `Reader.ops_fail_atomically_but_characterString`, which says exactly when a
failure moves the reader, and `Reader.readCharacterString_truncated_moves`, a string announcing
five bytes where two follow.
-/
namespace DnsStub

namespace Reader

section
variable {α β : Type}

/-- A read that fails from `r` as the primitives do: a read past the limit, with the reader left
as it was. -/
def FailsCleanly (m : ReadM α) (r : Reader) : Prop :=
  ∀ e r', m r = .error e r' → r' = r ∧ ∃ offset needed, e = .unexpectedEof offset needed

/-- A read that, succeeding from `r`, keeps the message and the limit and moves `k` bytes on. -/
def MovesBy (k : Nat) (m : ReadM α) (r : Reader) : Prop :=
  ∀ a r', m r = .ok a r' → r'.data = r.data ∧ r'.limit = r.limit ∧ r'.pos = r.pos + k

theorem bind_eq_error {m : ReadM α} {f : α → ReadM β} {r r' : Reader} {e : WireError}
    (h : (m >>= f) r = .error e r') :
    m r = .error e r' ∨ ∃ a r₁, m r = .ok a r₁ ∧ f a r₁ = .error e r' := by
  change EStateM.bind m f r = _ at h
  simp only [EStateM.bind] at h
  cases hm : m r with
  | ok a r₁ =>
    rw [hm] at h
    exact .inr ⟨a, r₁, rfl, h⟩
  | error e' r₁ =>
    rw [hm] at h
    cases h
    exact .inl rfl

variable {r : Reader}

theorem FailsCleanly.bind_pure {m : ReadM α} {g : α → β} (hm : FailsCleanly m r) :
    FailsCleanly (m >>= fun a => pure (g a)) r := by
  intro e r' h
  rcases bind_eq_error h with h | ⟨a, r₁, -, h⟩
  · exact hm e r' h
  · cases h

theorem MovesBy.bind_pure {k : Nat} {m : ReadM α} {g : α → β} (hm : MovesBy k m r) :
    MovesBy k (m >>= fun a => pure (g a)) r := by
  intro b r' h
  obtain ⟨a, r₁, h₁, h₂⟩ := bind_eq_ok h
  cases h₂
  exact hm a _ h₁

theorem FailsCleanly.map {m : ReadM α} (g : α → β) (hm : FailsCleanly m r) :
    FailsCleanly (g <$> m) r := by
  intro e r' h
  change EStateM.map g m r = _ at h
  simp only [EStateM.map] at h
  cases hr : m r with
  | ok a s =>
    rw [hr] at h
    cases h
  | error e' s =>
    rw [hr] at h
    cases h
    exact hm _ _ hr

theorem MovesBy.map {k : Nat} {m : ReadM α} (g : α → β) (hm : MovesBy k m r) :
    MovesBy k (g <$> m) r := by
  intro b r' h
  obtain ⟨a, ha, -⟩ := map_eq_ok h
  exact hm a r' ha

end

/-! ## The primitives -/

theorem movesBy_readVector (n : Nat) (r : Reader) : MovesBy n (readVector n) r := by
  intro v r' h
  by_cases hn : r.pos + n ≤ r.limit
  · rw [readVector, dif_pos hn] at h
    cases h
    exact ⟨rfl, rfl, rfl⟩
  · rw [readVector, dif_neg hn] at h
    cases h

theorem limit_lt_of_readVector_eq_error {n : Nat} {r r' : Reader} {e : WireError}
    (h : readVector n r = .error e r') : r.limit < r.pos + n := by
  by_cases hn : r.pos + n ≤ r.limit
  · rw [readVector, dif_pos hn] at h
    cases h
  · omega

theorem failsCleanly_readVector (n : Nat) (r : Reader) : FailsCleanly (readVector n) r := by
  intro e r' h
  by_cases hn : r.pos + n ≤ r.limit
  · rw [readVector, dif_pos hn] at h
    cases h
  · rw [readVector, dif_neg hn] at h
    cases h
    exact ⟨rfl, _, _, rfl⟩

theorem movesBy_skip (n : Nat) (r : Reader) : MovesBy n (skip n) r := by
  intro u r' h
  by_cases hn : r.pos + n ≤ r.limit
  · rw [skip, dif_pos hn] at h
    cases h
    exact ⟨rfl, rfl, rfl⟩
  · rw [skip, dif_neg hn] at h
    cases h

theorem failsCleanly_skip (n : Nat) (r : Reader) : FailsCleanly (skip n) r := by
  intro e r' h
  by_cases hn : r.pos + n ≤ r.limit
  · rw [skip, dif_pos hn] at h
    cases h
  · rw [skip, dif_neg hn] at h
    cases h
    exact ⟨rfl, _, _, rfl⟩

theorem seek_eq_ok {p : Nat} {r r' : Reader} (h : seek p r = .ok () r') :
    r'.data = r.data ∧ r'.limit = r.limit ∧ r'.pos = p := by
  by_cases hp : p ≤ r.limit
  · rw [seek, dif_pos hp] at h
    cases h
    exact ⟨rfl, rfl, rfl⟩
  · rw [seek, dif_neg hp] at h
    cases h

theorem failsCleanly_seek (p : Nat) (r : Reader) : FailsCleanly (seek p) r := by
  intro e r' h
  by_cases hp : p ≤ r.limit
  · rw [seek, dif_pos hp] at h
    cases h
  · rw [seek, dif_neg hp] at h
    cases h
    exact ⟨rfl, _, _, rfl⟩

theorem setLimit_eq_ok {l old : Nat} {r r' : Reader} (h : setLimit l r = .ok old r') :
    old = r.limit ∧ r'.data = r.data ∧ r'.limit = l ∧ r'.pos = r.pos := by
  by_cases hl : l ≤ r.data.size ∧ r.pos ≤ l
  · rw [setLimit, dif_pos hl] at h
    cases h
    exact ⟨rfl, rfl, rfl, rfl⟩
  · rw [setLimit, dif_neg hl] at h
    cases h

theorem failsCleanly_setLimit (l : Nat) (r : Reader) : FailsCleanly (setLimit l) r := by
  intro e r' h
  by_cases hl : l ≤ r.data.size ∧ r.pos ≤ l
  · rw [setLimit, dif_pos hl] at h
    cases h
  · rw [setLimit, dif_neg hl] at h
    cases h
    exact ⟨rfl, _, _, rfl⟩

/-! ## Reads built on them -/

theorem movesBy_readBytes (n : Nat) (r : Reader) : MovesBy n (readBytes n) r :=
  (movesBy_readVector n r).map _

theorem failsCleanly_readBytes (n : Nat) (r : Reader) : FailsCleanly (readBytes n) r :=
  (failsCleanly_readVector n r).map _

theorem movesBy_readUntil (stop : Nat) (r : Reader) :
    MovesBy (stop - r.pos) (readUntil stop) r := by
  intro bs r' h
  change (if stop < r.pos then eof r.pos 0 else readBytes (stop - r.pos)) r = _ at h
  by_cases hs : stop < r.pos
  · rw [if_pos hs] at h
    cases h
  · rw [if_neg hs] at h
    exact movesBy_readBytes _ r bs r' h

theorem failsCleanly_readUntil (stop : Nat) (r : Reader) : FailsCleanly (readUntil stop) r := by
  intro e r' h
  change (if stop < r.pos then eof r.pos 0 else readBytes (stop - r.pos)) r = _ at h
  by_cases hs : stop < r.pos
  · rw [if_pos hs] at h
    cases h
    exact ⟨rfl, _, _, rfl⟩
  · rw [if_neg hs] at h
    exact failsCleanly_readBytes _ r e r' h

theorem readName_eq_ok {r r' : Reader} {n : Name} (h : readName r = .ok n r') :
    r'.data = r.data ∧ r'.limit = r.limit ∧ r.pos < r'.pos := by
  obtain ⟨_, _, hsp, -, -, -, hd, hl, hp⟩ := readName_eq_ok_iff.mp h
  exact ⟨hd, hl, hp ▸ hsp.pos_lt_stop⟩

theorem readName_eq_error_fault {r r' : Reader} {e : WireError} (h : readName r = .error e r') :
    r' = r ∧ Name.ScanFault e := by
  obtain ⟨hr, hs⟩ := readName_eq_error h
  exact ⟨hr, Name.scanFault_of_scanFrom hs⟩

/-! ## Character strings -/

theorem readCharacterString_eq_ok {r r' : Reader} {s : List UInt8}
    (h : readCharacterString r = .ok s r') :
    r'.data = r.data ∧ r'.limit = r.limit ∧ r'.pos = r.pos + 1 + s.length := by
  obtain ⟨len, r₁, h₁, h₂⟩ := bind_eq_ok h
  obtain ⟨v, hv, rfl⟩ := map_eq_ok h₂
  obtain ⟨hd₁, hl₁, hp₁⟩ := MovesBy.bind_pure (movesBy_readVector 1 r) len r₁ h₁
  obtain ⟨hd₂, hl₂, hp₂⟩ := movesBy_readVector _ r₁ v r' hv
  refine ⟨hd₂.trans hd₁, hl₂.trans hl₁, ?_⟩
  rw [hp₂, hp₁, Vector.length_toList]

/-- A character string that is not read reports a read past the limit and keeps the message and
the limit. The reader is left as it was when the length byte itself lies at the limit, and one
byte on, after the length byte, when the body is what does not fit. -/
theorem readCharacterString_eq_error {r r' : Reader} {e : WireError}
    (h : readCharacterString r = .error e r') :
    (∃ offset needed, e = .unexpectedEof offset needed) ∧ r'.data = r.data ∧
      r'.limit = r.limit ∧ r'.pos = if r.pos < r.limit then r.pos + 1 else r.pos := by
  rcases bind_eq_error h with h₁ | ⟨len, r₁, h₁, h₂⟩
  · -- the length byte is missing: nothing was consumed
    obtain ⟨rfl, he⟩ := FailsCleanly.bind_pure (failsCleanly_readVector 1 r) e r' h₁
    have hlim : ¬ r'.pos < r'.limit := by
      rcases bind_eq_error h₁ with hv | ⟨_, _, -, hp⟩
      · have := limit_lt_of_readVector_eq_error hv
        omega
      · cases hp
    exact ⟨he, rfl, rfl, by rw [if_neg hlim]⟩
  · -- the length byte was read and stays consumed; the body fails where it stands
    obtain ⟨hd₁, hl₁, hp₁⟩ := MovesBy.bind_pure (movesBy_readVector 1 r) len r₁ h₁
    obtain ⟨rfl, he⟩ := failsCleanly_readBytes _ r₁ e r' h₂
    have hlt : r.pos < r.limit := by
      have := r'.pos_le_limit
      omega
    exact ⟨he, hd₁, hl₁, by rw [if_pos hlt, hp₁]⟩

/-- Reading a character string from a message that announces five bytes where two follow fails
after the length byte: the position is left one byte on, not where the read began. -/
theorem readCharacterString_truncated_moves :
    let r := Reader.new ⟨#[5, 97, 98]⟩
    ∃ r', readCharacterString r = .error (.unexpectedEof 1 5) r' ∧ r'.pos ≠ r.pos :=
  ⟨_, rfl, by decide⟩

/-- From every reader and with every argument, every operation keeps the message. Reads of a
fixed width, of n bytes and up to an offset move by exactly what they read, a seek goes where it
was told, a new limit is set with the position kept, a name moves forward to the end of its own
bytes. Every failure reports a read past the limit, or for a name one of a name's faults, and
leaves the reader as it was, with one exception: a character string whose length byte lies
before the limit and whose body does not fit stays one byte on, after its length byte. -/
theorem ops_fail_atomically_but_characterString (r : Reader) (n stop p l : Nat) :
    (MovesBy 1 readU8 r ∧ FailsCleanly readU8 r) ∧
    (MovesBy 2 readU16 r ∧ FailsCleanly readU16 r) ∧
    (MovesBy 4 readU32 r ∧ FailsCleanly readU32 r) ∧
    (MovesBy 4 readIpv4 r ∧ FailsCleanly readIpv4 r) ∧
    (MovesBy 16 readIpv6 r ∧ FailsCleanly readIpv6 r) ∧
    (MovesBy n (readBytes n) r ∧ FailsCleanly (readBytes n) r) ∧
    (MovesBy n (skip n) r ∧ FailsCleanly (skip n) r) ∧
    (MovesBy (stop - r.pos) (readUntil stop) r ∧ FailsCleanly (readUntil stop) r) ∧
    ((∀ r', seek p r = .ok () r' → r'.data = r.data ∧ r'.limit = r.limit ∧ r'.pos = p) ∧
      FailsCleanly (seek p) r) ∧
    ((∀ old r', setLimit l r = .ok old r' →
        old = r.limit ∧ r'.data = r.data ∧ r'.limit = l ∧ r'.pos = r.pos) ∧
      FailsCleanly (setLimit l) r) ∧
    (∀ a r', readName r = .ok a r' → r'.data = r.data ∧ r'.limit = r.limit ∧ r.pos < r'.pos) ∧
    (∀ e r', readName r = .error e r' → r' = r ∧ Name.ScanFault e) ∧
    (∀ s r', readCharacterString r = .ok s r' →
      r'.data = r.data ∧ r'.limit = r.limit ∧ r'.pos = r.pos + 1 + s.length) ∧
    ∀ e r', readCharacterString r = .error e r' →
      (∃ offset needed, e = .unexpectedEof offset needed) ∧ r'.data = r.data ∧
        r'.limit = r.limit ∧ r'.pos = if r.pos < r.limit then r.pos + 1 else r.pos :=
  ⟨⟨(movesBy_readVector 1 r).bind_pure, (failsCleanly_readVector 1 r).bind_pure⟩,
    ⟨(movesBy_readVector 2 r).bind_pure, (failsCleanly_readVector 2 r).bind_pure⟩,
    ⟨(movesBy_readVector 4 r).bind_pure, (failsCleanly_readVector 4 r).bind_pure⟩,
    ⟨(movesBy_readVector 4 r).map _, (failsCleanly_readVector 4 r).map _⟩,
    ⟨(movesBy_readVector 16 r).map _, (failsCleanly_readVector 16 r).map _⟩,
    ⟨movesBy_readBytes n r, failsCleanly_readBytes n r⟩,
    ⟨movesBy_skip n r, failsCleanly_skip n r⟩,
    ⟨movesBy_readUntil stop r, failsCleanly_readUntil stop r⟩,
    ⟨fun _ => seek_eq_ok, failsCleanly_seek p r⟩,
    ⟨fun _ _ => setLimit_eq_ok, failsCleanly_setLimit l r⟩,
    fun _ _ => readName_eq_ok, fun _ _ => readName_eq_error_fault,
    fun _ _ => readCharacterString_eq_ok, fun _ _ => readCharacterString_eq_error⟩

/-- The string announcing five bytes where two follow fails after its length byte, at offset 1,
the message and the limit kept. -/
theorem ops_fail_atomically_but_characterString_truncated :
    let r := Reader.new ⟨#[5, 97, 98]⟩
    ∃ e r', readCharacterString r = .error e r' ∧ r'.data = r.data ∧ r'.limit = r.limit ∧
      r'.pos = 1 := by
  intro r
  obtain ⟨r', h⟩ : ∃ r', readCharacterString r = .error (.unexpectedEof 1 5) r' := ⟨_, rfl⟩
  obtain ⟨-, hd, hl, hp⟩ :=
    (ops_fail_atomically_but_characterString r 0 0 0 0).2.2.2.2.2.2.2.2.2.2.2.2.2 _ r' h
  exact ⟨_, r', h, hd, hl, by rw [hp]; rfl⟩

end Reader

end DnsStub
