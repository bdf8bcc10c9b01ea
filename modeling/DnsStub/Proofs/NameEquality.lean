import DnsStub.Proofs.NameText
import DnsStub.Resolve.Cache
/-!
# One equivalence for names: equality, hashing and cache keys

Three things are written separately for names: equality compares label counts and then each
pair of labels ignoring ASCII case; hashing feeds each label's length byte and its bytes folded
to small letters, then a zero byte; and the ASCII lowercase folds every label. They induce one
equivalence. The hash bytes are the wire form of the lowercase, so two valid names hash the same
bytes exactly when they are equal; their lowercases have the same labels, and, the presentation
form being read back by the parser, the same presentation.

The response cache keys a question by the lowercase of its name: two names give one key exactly
when they are equal, and the key shows and hashes its name as the lowercase does.

Main statement: `Name.equality_hash_key_consistent`.
-/
namespace DnsStub

namespace Name

theorem beq_iff_lowercase_labels {a b : Name} :
    (a == b) = true ↔ a.lowercase.labels = b.lowercase.labels :=
  sameName_iff

@[simp] theorem lowercase_lowercase (n : Name) : n.lowercase.lowercase = n.lowercase := by
  simp [lowercase, Function.comp_def]

theorem lowercase_beq_self (n : Name) : (n.lowercase == n) = true :=
  beq_iff_lowercase_labels.mpr (by rw [lowercase_lowercase])

theorem hashBytes_eq_toWire_lowercase (n : Name) : n.hashBytes = n.lowercase.toWire := by
  simp [hashBytes, toWire, lowercase, List.flatMap_map, Ascii.lowerBytes]

@[simp] theorem hashBytes_lowercase (n : Name) : n.lowercase.hashBytes = n.hashBytes := by
  rw [hashBytes_eq_toWire_lowercase, hashBytes_eq_toWire_lowercase, lowercase_lowercase]

theorem hashBytes_eq_of_beq {a b : Name} (h : (a == b) = true) : a.hashBytes = b.hashBytes := by
  have hl : a.lowercase = b.lowercase := congrArg Name.mk (beq_iff_lowercase_labels.mp h)
  rw [hashBytes_eq_toWire_lowercase, hashBytes_eq_toWire_lowercase, hl]

/-- The presentation form tells valid names apart: the parser reads each one back. -/
theorem display_injOn : Set.InjOn display {n | n.Valid} := by
  intro a ha b hb h
  have hread : parse a.display = .ok b := by
    rw [h]
    exact parse_display hb
  rw [parse_display ha] at hread
  exact Except.ok.inj hread

/-- The wire form tells valid names apart: the scanner reads each one back from a message that
holds only it. -/
theorem toWire_injOn : Set.InjOn toWire {n | n.Valid} := by
  intro a ha b hb h
  let r := Reader.new ⟨a.toWire.toArray⟩
  have ahead : ∀ n : Name, n.toWire = a.toWire → r.Ahead n.toWire := by
    intro n hn
    rw [hn]
    exact ⟨by simp [r, Reader.new], by simp [r, Reader.new, ByteArray.size, length_toWire]⟩
  obtain ⟨ra, hra, -⟩ := Reader.reads_readName ha 0 r rfl (ahead a rfl)
  obtain ⟨rb, hrb, -⟩ := Reader.reads_readName hb 0 r rfl (ahead b h.symm)
  rw [hra] at hrb
  exact (EStateM.Result.ok.inj hrb).1

theorem beq_iff_hashBytes_eq {a b : Name} (ha : a.Valid) (hb : b.Valid) :
    (a == b) = true ↔ a.hashBytes = b.hashBytes := by
  refine ⟨hashBytes_eq_of_beq, fun h => beq_iff_lowercase_labels.mpr ?_⟩
  rw [hashBytes_eq_toWire_lowercase, hashBytes_eq_toWire_lowercase] at h
  exact congrArg Name.labels (toWire_injOn ha.lowercase hb.lowercase h)

theorem beq_iff_display_lowercase {a b : Name} (ha : a.Valid) (hb : b.Valid) :
    (a == b) = true ↔ a.lowercase.display = b.lowercase.display := by
  rw [beq_iff_lowercase_labels]
  constructor
  · intro h
    rw [show a.lowercase = b.lowercase from congrArg Name.mk h]
  · intro h
    exact congrArg Name.labels (display_injOn ha.lowercase hb.lowercase h)

end Name

namespace CacheKey

theorem new_eq_new_iff {a b : Name} {t : RecordType} {c : RecordClass} :
    new a t c = new b t c ↔ (a == b) = true := by
  simp [new, Name.beq_iff_lowercase_labels]

@[simp] theorem name_new (a : Name) (t : RecordType) (c : RecordClass) :
    (new a t c).name = a.lowercase := rfl

end CacheKey

namespace Name

/-- Equality, the labels of the lowercases, the presentation of the lowercases and the hash bytes
are one equivalence on valid names, and equal names of any kind hash alike. Lowercasing is
idempotent and keeps a name equal to itself. A cache key is equal for two names exactly when they
are, hashes its name as the name itself hashes, and prints the lowercase. -/
theorem equality_hash_key_consistent :
    (∀ a b : Name, ((a == b) = true ↔ a.lowercase.labels = b.lowercase.labels) ∧
      ((a == b) = true → a.hashBytes = b.hashBytes)) ∧
    (∀ a b : Name, a.Valid → b.Valid →
      ((a == b) = true ↔ a.lowercase.display = b.lowercase.display) ∧
      ((a == b) = true ↔ a.hashBytes = b.hashBytes)) ∧
    (∀ a : Name, a.lowercase.lowercase = a.lowercase ∧ (a.lowercase == a) = true) ∧
    ∀ (a b : Name) (t : RecordType) (c : RecordClass),
      (CacheKey.new a t c = CacheKey.new b t c ↔ (a == b) = true) ∧
      (CacheKey.new a t c).name.hashBytes = a.hashBytes ∧
      (CacheKey.new a t c).name.display = a.lowercase.display :=
  ⟨fun _ _ => ⟨beq_iff_lowercase_labels, hashBytes_eq_of_beq⟩,
    fun _ _ ha hb => ⟨beq_iff_display_lowercase ha hb, beq_iff_hashBytes_eq ha hb⟩,
    fun a => ⟨lowercase_lowercase a, lowercase_beq_self a⟩,
    fun a _ t c => ⟨CacheKey.new_eq_new_iff, by simp, rfl⟩⟩

/-- "WWW.Example" and "www.EXAMPLE" are one name: their lowercases print alike and they hash the
same bytes. -/
theorem equality_hash_key_consistent_mixedCase :
    let a : Name := ⟨[[87, 87, 87], [69, 120, 97, 109, 112, 108, 101]]⟩
    let b : Name := ⟨[[119, 119, 119], [69, 88, 65, 77, 80, 76, 69]]⟩
    a.Valid ∧ b.Valid ∧ (a == b) = true ∧ a.lowercase.display = b.lowercase.display ∧
      a.hashBytes = b.hashBytes := by
  intro a b
  have ha : a.Valid := by decide
  have hb : b.Valid := by decide
  have hab : (a == b) = true := by decide
  have h := equality_hash_key_consistent.2.1 a b ha hb
  exact ⟨ha, hb, hab, h.1.mp hab, h.2.mp hab⟩

end Name

end DnsStub
