import DnsStub.Proofs.NameValidity
/-!
# Names read back from their presentation form

Every label byte is printed in one of three ways: a special character after a backslash, a
printable character as it is, or a backslash and three decimal digits. The reader takes each of
these back to the byte, whatever text follows (`scanText_escapeByte`), so a printed label reads
back as its bytes, and the dot after it ends it. Only ASCII is printed, so the reader never
lowercases a printed label or puts it into ASCII-compatible encoding.

Main statement: `parse_display`. It covers labels that hold dots, backslashes, digits after an
escape, bytes outside the printable range, and labels that look like ACE (`xn--…`), which are
printed and read back as the bytes they are.
-/
namespace DnsStub

namespace Name

theorem toNat_ofNat_byte (b : UInt8) : (Char.ofNat b.toNat).toNat = b.toNat := by
  have hv : b.toNat.isValidChar := Or.inl (by have := b.toNat_lt; omega)
  simp [Char.ofNat, hv, Char.ofNatAux]

theorem ofNat_digit {k : Nat} (hk : k < 10) :
    (Char.ofNat (48 + k)).isDigit = true ∧ digitValue (Char.ofNat (48 + k)) = k := by
  have key : ∀ k < 10, (Char.ofNat (48 + k)).isDigit = true ∧ digitValue (Char.ofNat (48 + k)) = k := by
    decide
  exact key k hk

theorem pushChar_of_lt {c : Char} (h : c.toNat < 0x80) (raw : RawLabel) :
    raw.pushChar c = { raw with bytes := raw.bytes ++ [c.toNat.toUInt8] } := by
  simp [RawLabel.pushChar, h]

theorem toUInt8_toNat_ofNat_byte (b : UInt8) : (Char.ofNat b.toNat).toNat.toUInt8 = b := by
  rw [toNat_ofNat_byte]
  exact UInt8.ofNat_toNat

/-- The three ways a byte is printed: a special character after a backslash, a printable
character other than a dot or a backslash as it is, or a backslash and three decimal digits. -/
theorem escapeByte_cases (b : UInt8) :
    (escapeByte b = ['\\', Char.ofNat b.toNat] ∧ (Char.ofNat b.toNat).isDigit = false ∧
      b.toNat < 0x80) ∨
    (escapeByte b = [Char.ofNat b.toNat] ∧ Char.ofNat b.toNat ≠ '.' ∧
      Char.ofNat b.toNat ≠ '\\' ∧ b.toNat < 0x80) ∨
    escapeByte b = ['\\', Char.ofNat (48 + b.toNat / 100), Char.ofNat (48 + b.toNat / 10 % 10),
      Char.ofNat (48 + b.toNat % 10)] := by
  have hc := toNat_ofNat_byte b
  unfold escapeByte
  dsimp only
  split_ifs with hs hp
  · -- the special characters are ASCII and none is a digit
    refine .inl ⟨rfl, ?_, ?_⟩
    · rcases hs with h | h | h | h | h | h | h | h <;> (rw [h]; rfl)
    · rcases hs with h | h | h | h | h | h | h | h <;> (rw [h] at hc; simp at hc; omega)
  · have hlt : b.toNat < 0x80 := by
      have := UInt8.le_iff_toNat_le.1 hp.2
      simp only [UInt8.reduceToNat] at this
      omega
    exact .inr (.inl ⟨rfl, fun h => hs (.inl h), fun h => hs (.inr (.inl h)), hlt⟩)
  · exact .inr (.inr rfl)

theorem escapeByte_length_pos (b : UInt8) : 0 < (escapeByte b).length := by
  rcases escapeByte_cases b with ⟨he, -⟩ | ⟨he, -⟩ | he <;> simp [he]

theorem scanText_backslash {d : Char} (hd : d.isDigit = false) (rest : List Char) (raw : RawLabel)
    (done : List (List UInt8)) :
    scanText ('\\' :: d :: rest) raw done = scanText rest (raw.pushChar d) done := by
  match rest with
  | d1 :: d2 :: rest' => simp [scanText.eq_3, hd]
  | [] => simp [scanText.eq_4 raw done d [] (by simp), hd]
  | [d1] => simp [scanText.eq_4 raw done d [d1] (by simp), hd]

theorem scanText_escapeByte (b : UInt8) (rest : List Char) (raw : RawLabel)
    (done : List (List UInt8)) :
    scanText (escapeByte b ++ rest) raw done =
      scanText rest { raw with bytes := raw.bytes ++ [b] } done := by
  have hc := toNat_ofNat_byte b
  rcases escapeByte_cases b with ⟨he, hd, hlt⟩ | ⟨he, hdot, hbs, hlt⟩ | he
  · rw [he, List.cons_append, List.cons_append, List.nil_append, scanText_backslash hd,
      pushChar_of_lt (by omega), toUInt8_toNat_ofNat_byte]
  · rw [he, List.cons_append, List.nil_append,
      scanText.eq_6 _ _ _ _ hdot (fun _ _ h => absurd h hbs) (fun h => absurd h hbs),
      pushChar_of_lt (by omega), toUInt8_toNat_ofNat_byte]
  · -- three digits, whose value is the byte
    have hb := b.toNat_lt
    obtain ⟨h₀, v₀⟩ := ofNat_digit (k := b.toNat / 100) (by omega)
    obtain ⟨h₁, v₁⟩ := ofNat_digit (k := b.toNat / 10 % 10) (by omega)
    obtain ⟨h₂, v₂⟩ := ofNat_digit (k := b.toNat % 10) (by omega)
    have hv : b.toNat / 100 * 100 + b.toNat / 10 % 10 * 10 + b.toNat % 10 = b.toNat := by omega
    rw [he]
    simp only [List.cons_append, List.nil_append]
    rw [scanText.eq_3]
    simp only [h₀, h₁, h₂, v₀, v₁, v₂, and_self, if_true, hv,
      if_neg (Nat.not_lt.2 (by omega : b.toNat ≤ 255)), UInt8.ofNat_toNat]

theorem scanText_escapeLabel (l : List UInt8) (rest : List Char) (raw : RawLabel)
    (done : List (List UInt8)) :
    scanText (escapeLabel l ++ rest) raw done =
      scanText rest { raw with bytes := raw.bytes ++ l } done := by
  induction l generalizing raw with
  | nil => simp [escapeLabel]
  | cons b l ih =>
      rw [escapeLabel, List.flatMap_cons, List.append_assoc, scanText_escapeByte]
      rw [escapeLabel] at ih
      rw [ih]
      simp

theorem scanText_labels :
    ∀ (ls : List (List UInt8)), (∀ l ∈ ls, l ≠ []) → ∀ done : List (List UInt8),
      scanText (ls.flatMap fun l => escapeLabel l ++ ['.']) ⟨[], false⟩ done =
        .ok (done.reverse ++ ls)
  | [], _, done => by simp [scanText]
  | l :: ls, hne, done => by
      have hl : l ≠ [] := hne l List.mem_cons_self
      rw [List.flatMap_cons, List.append_assoc, scanText_escapeLabel, List.singleton_append,
        scanText.eq_2]
      have hfin : (⟨[] ++ l, false⟩ : RawLabel).finish = .ok l := by simp [RawLabel.finish]
      simp only [List.nil_append, List.isEmpty_iff, hl, if_false] at hfin ⊢
      rw [hfin]
      simp only
      rw [scanText_labels ls (fun l' hl' => hne l' (List.mem_cons_of_mem l hl')) (l :: done)]
      simp

theorem parse_display {n : Name} (hn : n.Valid) : parse n.display = .ok n := by
  obtain ⟨labels⟩ := n
  unfold display render
  cases labels with
  | nil => simp [parse, root]
  | cons l ls =>
      have hne : ∀ l' ∈ l :: ls, l' ≠ [] := fun l' hl' h => by
        have := (hn.1 l' hl').1
        simp [h] at this
      -- the printed text has two characters at least: the first label and its dot
      have htext : (String.ofList ((l :: ls).flatMap fun l => escapeLabel l ++ ['.'])).toList =
          (l :: ls).flatMap fun l => escapeLabel l ++ ['.'] := String.toList_ofList
      have hlen : 2 ≤ ((l :: ls).flatMap fun l => escapeLabel l ++ ['.']).length := by
        obtain ⟨b, bs, rfl⟩ := List.exists_cons_of_ne_nil (hne l List.mem_cons_self)
        have := escapeByte_length_pos b
        simp [escapeLabel]
        omega
      have hnot : ¬ (String.ofList ((l :: ls).flatMap fun l => escapeLabel l ++ ['.']) = "" ∨
          String.ofList ((l :: ls).flatMap fun l => escapeLabel l ++ ['.']) = ".") := by
        rintro (h | h) <;>
        · have := congrArg (fun t => t.toList.length) h
          simp only [htext] at this
          rw [this] at hlen
          simp at hlen
      simp only [List.isEmpty_cons, Bool.false_eq_true, if_false]
      rw [parse, if_neg hnot, htext, scanText_labels _ hne []]
      exact ofLabels_eq_ok.2 ⟨rfl, hn⟩

/-- The presentation form of every valid name reads back as that name, so the two names have the
same labels, print alike and show alike; the root prints as a single dot. -/
theorem presentation_roundTrip :
    root.display = "." ∧ ∀ n : Name, n.Valid → parse n.display = .ok n :=
  ⟨rfl, fun _ hn => parse_display hn⟩

/-- A label holding a dot, a backslash, a digit after it and the bytes 0 and 255, beside a label
that looks like ACE. -/
theorem presentation_roundTrip_escapes :
    (⟨[[46, 92, 50, 0, 255], [120, 110, 45, 45, 97]]⟩ : Name).Valid ∧
      parse (⟨[[46, 92, 50, 0, 255], [120, 110, 45, 45, 97]]⟩ : Name).display =
        .ok ⟨[[46, 92, 50, 0, 255], [120, 110, 45, 45, 97]]⟩ :=
  ⟨by decide, presentation_roundTrip.2 _ (by decide)⟩

end Name

end DnsStub
