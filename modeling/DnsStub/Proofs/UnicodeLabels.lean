import DnsStub.Proofs.NameValidity
import DnsStub.Proofs.PunycodeRoundTrip
/-!
# Labels read from text outside ASCII

A label of the text that holds a character outside ASCII is stored as "xn--" followed by the
punycode of its lowercase, and the Unicode form shows it as that lowercase. The labels of a
text are those the reader forms before finishing them (`rawLabels`): its bytes after the
escapes, and whether a character outside ASCII stood in it. Every label a name holds fits in 63
bytes, so its punycode has at most 59 characters and decodes (`decode_encode`).
-/
namespace DnsStub

theorem Utf8.decode_cons_ne_nil {b : UInt8} {bs : List UInt8} {cs : List Char}
    (h : Utf8.decode (b :: bs) = some cs) : cs ≠ [] := by
  unfold Utf8.decode at h
  repeat' split at h
  all_goals first
    | cases h
    | (obtain ⟨_, -, rfl⟩ := Option.map_eq_some_iff.1 h; exact List.cons_ne_nil _ _)

theorem Lowercase.lowerFrom_ne_nil (before : List Char) {cs : List Char} (h : cs ≠ []) :
    Lowercase.lowerFrom before cs ≠ [] := by
  obtain ⟨c, cs, rfl⟩ := List.exists_cons_of_ne_nil h
  rw [Lowercase.lowerFrom]
  split
  · simp
  · simp only [Lowercase.ofChar]
    split <;> simp

namespace Name

/-- The labels of a text as the reader forms them, before they are finished: the bytes after the
escapes, and whether a character outside ASCII stood in the label. -/
def rawLabels : List Char → RawLabel → Option (List RawLabel)
  | [], raw => if raw.bytes.isEmpty then some [] else some [raw]
  | '.' :: rest, raw => if raw.bytes.isEmpty then none else (rawLabels rest ⟨[], false⟩).map (raw :: ·)
  | '\\' :: d :: rest, raw =>
    if d.isDigit then
      match rest with
      | d1 :: d2 :: rest' =>
        if d1.isDigit ∧ d2.isDigit then
          let v := digitValue d * 100 + digitValue d1 * 10 + digitValue d2
          if 255 < v then none else rawLabels rest' { raw with bytes := raw.bytes ++ [v.toUInt8] }
        else none
      | _ => none
    else rawLabels rest (raw.pushChar d)
  | ['\\'], _ => none
  | c :: rest, raw => rawLabels rest (raw.pushChar c)

theorem scanText_eq_ok {cs : List Char} {raw : RawLabel} {done ls : List (List UInt8)}
    (h : scanText cs raw done = .ok ls) :
    ∃ raws ls', rawLabels cs raw = some raws ∧
      List.Forall₂ (fun r l => r.finish = .ok l ∧ r.bytes ≠ []) raws ls' ∧ ls = done.reverse ++ ls' := by
  fun_induction scanText cs raw done generalizing ls with
  | case1 raw done hempty =>
    cases h
    exact ⟨[], [], by simp [rawLabels, hempty], .nil, by simp⟩
  | case3 raw done hne l hl =>
    cases h
    exact ⟨[raw], [l], by simp [rawLabels, hne], .cons ⟨hl, by simpa using hne⟩ .nil, by simp⟩
  | case6 rest raw done hne l hl ih =>
    obtain ⟨raws, ls', hraws, hall, rfl⟩ := ih h
    refine ⟨raw :: raws, l :: ls', ?_, .cons ⟨hl, by simpa using hne⟩ hall, by simp⟩
    simp [rawLabels, hne, hraws]
  | case8 d raw done hd d1 d2 rest' hds v hv =>
    rename_i ih
    obtain ⟨raws, ls', hraws, hall, rfl⟩ := ih h
    refine ⟨raws, ls', ?_, hall, rfl⟩
    rw [rawLabels.eq_3, if_pos hd, if_pos hds, if_neg hv, hraws]
  | case11 d rest raw done hd ih =>
    obtain ⟨raws, ls', hraws, hall, rfl⟩ := ih h
    refine ⟨raws, ls', ?_, hall, rfl⟩
    match rest with
    | d1 :: d2 :: rest' => rw [rawLabels.eq_3, if_neg hd, hraws]
    | [] => rw [rawLabels.eq_4 _ _ _ (by simp), if_neg hd, hraws]
    | [d1] => rw [rawLabels.eq_4 _ _ _ (by simp), if_neg hd, hraws]
  | case13 c rest raw done hdot hbs hend ih =>
    obtain ⟨raws, ls', hraws, hall, rfl⟩ := ih h
    exact ⟨raws, ls', by rw [rawLabels.eq_6 _ _ _ hdot hbs hend, hraws], hall, rfl⟩
  | _ => cases h

/-- The label `l` is the ASCII-compatible form of the text `t`: "xn--" and the punycode of `t`,
and it shows as `t`. -/
def IsAceOf (l : List UInt8) (t : List Char) : Prop :=
  (∃ p, Punycode.encode t = some p ∧ l = acePrefix ++ p.map fun c => c.toNat.toUInt8) ∧
    aceText? l = some t

theorem ofNat_toUInt8_of_ascii {c : Char} (h : c.toNat < 0x80) :
    Char.ofNat c.toNat.toUInt8.toNat = c := by
  simp only [Nat.toUInt8_eq, UInt8.toNat_ofNat', Nat.mod_eq_of_lt (show c.toNat < 2 ^ 8 by omega),
    Char.ofNat_toNat]

theorem aceText?_encode {t p : List Char} (hp : Punycode.encode t = some p) (hne : t ≠ [])
    (ht : t.length ≤ 3855) : aceText? (acePrefix ++ p.map fun c => c.toNat.toUInt8) = some t := by
  have hlen := Punycode.encode_length hp
  have hpos := List.length_pos_iff.2 hne
  have hascii := Punycode.encode_ascii hp
  have hdec : Punycode.decode p = some t := (Punycode.decode_encode hp).2 ht
  have hback : (p.map fun c => c.toNat.toUInt8).map (fun b => Char.ofNat b.toNat) = p := by
    rw [List.map_map]
    conv => rhs; rw [← List.map_id p]
    exact List.map_congr_left fun c hc => ofNat_toUInt8_of_ascii (hascii c hc)
  have hbytes : ∀ c ∈ p, c.toNat.toUInt8 < 0x80 := fun c hc => by
    have := hascii c hc
    rw [UInt8.lt_iff_toNat_lt]
    simp only [Nat.toUInt8_eq, UInt8.toNat_ofNat', UInt8.reduceToNat]
    omega
  have hlong : acePrefix.length < (acePrefix ++ p.map fun c => c.toNat.toUInt8).length := by
    simp [acePrefix]
    omega
  have hstart : Ascii.lowerBytes ((acePrefix ++ p.map fun c => c.toNat.toUInt8).take 4) =
      acePrefix := by
    rw [@List.take_left' _ acePrefix _ 4 rfl]
    decide
  have hall : (acePrefix ++ p.map fun c => c.toNat.toUInt8).all (· < 0x80) = true := by
    have hpre : acePrefix.all (· < 0x80) = true := by decide
    simp only [List.all_append, hpre, Bool.true_and, List.all_map, List.all_eq_true,
      Function.comp_def, decide_eq_true_eq]
    exact hbytes
  have hcond : acePrefix.length < (acePrefix ++ p.map fun c => c.toNat.toUInt8).length ∧
      Ascii.lowerBytes ((acePrefix ++ p.map fun c => c.toNat.toUInt8).take 4) = acePrefix ∧
      (acePrefix ++ p.map fun c => c.toNat.toUInt8).all (· < 0x80) = true :=
    ⟨hlong, hstart, hall⟩
  rw [aceText?, if_pos hcond, @List.drop_left' _ acePrefix _ 4 rfl, hback, hdec]

/-- A label that held a character outside ASCII, once finished and within the label limit, is
the ASCII-compatible form of the lowercase of its text. The punycode has at most 59 characters,
and so has the lowercase, well within what decodes. -/
theorem finish_unicode {raw : RawLabel} {l : List UInt8} (hu : raw.unicode = true)
    (hne : raw.bytes ≠ []) (h : raw.finish = .ok l) (hl : l.length ≤ maxLabelLength) :
    ∃ t, Utf8.decode raw.bytes = some t ∧ IsAceOf l (Lowercase.lower t) := by
  unfold RawLabel.finish at h
  rw [hu] at h
  simp only [Bool.not_true, Bool.false_eq_true, if_false] at h
  split at h
  · cases h
  · rename_i t ht
    split at h
    · cases h
    · rename_i p hp
      cases h
      have hlow : Lowercase.lower t ≠ [] := by
        obtain ⟨b, bs, hbs⟩ := List.exists_cons_of_ne_nil hne
        rw [hbs] at ht
        exact Lowercase.lowerFrom_ne_nil [] (Utf8.decode_cons_ne_nil ht)
      have hlen := Punycode.encode_length hp
      simp only [List.length_append, List.length_map, acePrefix, List.length_cons, List.length_nil,
        maxLabelLength] at hl
      exact ⟨t, ht, ⟨p, hp, rfl⟩, aceText?_encode hp hlow (by omega)⟩

/-- The labels of a name read from text are the finished raw labels of the text, and each one
that held a character outside ASCII is the ASCII-compatible form of the lowercase of its text;
"." alone is the root. -/
theorem parse_unicode_labels {text : String} {n : Name} (h : parse text = .ok n) :
    text = "." ∨ ∃ raws, rawLabels text.toList ⟨[], false⟩ = some raws ∧
      List.Forall₂ (fun raw l => raw.finish = .ok l ∧
        (raw.unicode = true → ∃ t, Utf8.decode raw.bytes = some t ∧ IsAceOf l (Lowercase.lower t)))
        raws n.labels := by
  unfold parse at h
  by_cases hroot : text = "" ∨ text = "."
  · rw [if_pos hroot] at h
    cases h
    rcases hroot with rfl | rfl
    · exact .inr ⟨[], by simp [rawLabels], .nil⟩
    · exact .inl rfl
  · rw [if_neg hroot] at h
    split at h
    · cases h
    · rename_i ls hscan
      obtain ⟨rfl, hvalid⟩ := ofLabels_eq_ok.1 h
      obtain ⟨raws, ls', hraws, hall, hls⟩ := scanText_eq_ok hscan
      rw [List.reverse_nil, List.nil_append] at hls
      subst ls
      refine .inr ⟨raws, hraws, ?_⟩
      -- each label is within the limit, so its punycode decodes
      have hfits : ∀ l ∈ ls', l.length ≤ maxLabelLength := fun l hl => (hvalid.1 l hl).2
      clear hscan h hvalid hraws
      induction hall with
      | nil => exact .nil
      | cons hr _ ih =>
        refine .cons ⟨hr.1, fun hu => finish_unicode hu hr.2 hr.1 (hfits _ List.mem_cons_self)⟩
          (ih fun l hl => hfits l (List.mem_cons_of_mem _ hl))

/-- Decoding an encoding gives the text back or fails, and cannot fail for a text of at most 3855
code points; so every label of a name read from text that held a character outside ASCII is stored as
"xn--" and the punycode of its lowercase, and shows as that lowercase. -/
theorem punycode_roundTrip_names :
    (∀ s p, Punycode.encode s = some p →
      (Punycode.decode p = some s ∨ Punycode.decode p = none) ∧
        (s.length ≤ 3855 → Punycode.decode p = some s)) ∧
    ∀ text n, parse text = .ok n → text = "." ∨
      ∃ raws, rawLabels text.toList ⟨[], false⟩ = some raws ∧
        List.Forall₂ (fun raw l => raw.finish = .ok l ∧
          (raw.unicode = true → ∃ t, Utf8.decode raw.bytes = some t ∧ IsAceOf l (Lowercase.lower t)))
          raws n.labels :=
  ⟨fun _ _ h => Punycode.decode_encode h, fun _ _ h => parse_unicode_labels h⟩

end Name

end DnsStub
