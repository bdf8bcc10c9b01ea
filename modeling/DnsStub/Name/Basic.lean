import DnsStub.Text.Ascii
import DnsStub.Wire.Error
import DnsStub.Wire.Writer
/-!
# Domain names

A name is its list of labels in wire form, the root label left implicit. A valid name has
labels of 1 to 63 bytes and a wire length, one length byte per label plus its bytes plus the
final zero byte, of at most 255. Names compare ignoring ASCII case, as the domain name system
does; the ASCII lowercase of a name is the canonical representative of that comparison.
-/
namespace DnsStub

/-- A domain name as its labels, most specific first, without the root label. -/
structure Name where
  labels : List (List UInt8)
  deriving Inhabited, Repr

namespace Name

def maxLabelLength : Nat := 63

def maxWireLength : Nat := 255

def root : Name := ⟨[]⟩

def labelCount (n : Name) : Nat := n.labels.length

def isRoot (n : Name) : Bool := n.labels.isEmpty

/-- The length of the uncompressed wire form: the root's byte, and each label after its
length byte. -/
def wireLength (n : Name) : Nat :=
  n.labels.foldl (fun len l => len + l.length + 1) 1

/-- The uncompressed wire form: each label after its length byte, then a zero byte. -/
def toWire (n : Name) : List UInt8 :=
  n.labels.flatMap (fun l => l.length.toUInt8 :: l) ++ [0]

def writeTo (n : Name) (w : Writer) : Writer :=
  (n.labels.foldl (fun w l => (w.writeU8 l.length.toUInt8).writeBytes l) w).writeU8 0

/-- The name with every ASCII capital letter folded to small. -/
def lowercase (n : Name) : Name :=
  ⟨n.labels.map Ascii.lowerBytes⟩

/-- Two names are the same name: as many labels, each equal to its partner ignoring ASCII
case. -/
def sameName (a b : Name) : Bool :=
  a.labels.length == b.labels.length &&
    (a.labels.zip b.labels).all fun p => Ascii.bytesEqIgnoreCase p.1 p.2

instance : BEq Name := ⟨sameName⟩

/-- Label lists agree pairwise ignoring ASCII case exactly when their folds are equal. -/
theorem sameLabels_iff : ∀ (xs ys : List (List UInt8)),
    (xs.length == ys.length && (xs.zip ys).all fun p => Ascii.bytesEqIgnoreCase p.1 p.2) = true ↔
      xs.map Ascii.lowerBytes = ys.map Ascii.lowerBytes
  | [], [] => by simp
  | [], _ :: _ => by simp
  | _ :: _, [] => by simp
  | x :: xs, y :: ys => by
    have ih := sameLabels_iff xs ys
    simp only [Bool.and_eq_true, beq_iff_eq] at ih
    simp only [List.length_cons, List.zip_cons_cons, List.all_cons, List.map_cons, List.cons.injEq,
      Bool.and_eq_true, beq_iff_eq, Nat.add_right_cancel_iff, Ascii.bytesEqIgnoreCase, ← ih]
    constructor
    · rintro ⟨hl, hxy, hall⟩
      exact ⟨hxy, hl, hall⟩
    · rintro ⟨hxy, hl, hall⟩
      exact ⟨hl, hxy, hall⟩

/-- Two names are the same name exactly when their lowercases have the same labels. -/
theorem sameName_iff {a b : Name} : sameName a b = true ↔ a.lowercase.labels = b.lowercase.labels :=
  sameLabels_iff a.labels b.labels

/-- The bytes hashing a name feeds the hasher: each label's length byte and its bytes folded to
small letters, then a zero byte. -/
def hashBytes (n : Name) : List UInt8 :=
  n.labels.flatMap (fun l => l.length.toUInt8 :: Ascii.lowerBytes l) ++ [0]

instance : Hashable Name := ⟨fun n => hash n.hashBytes⟩

/-- Checks labels in order: none may be empty or longer than 63 bytes. -/
def checkLabels : List (List UInt8) → Except WireError Unit
  | [] => .ok ()
  | l :: ls =>
    if l.isEmpty then .error .emptyLabel
    else if maxLabelLength < l.length then .error (.labelTooLong l.length)
    else checkLabels ls

/-- The name of the given labels: each label is checked in order, then the whole length. -/
def ofLabels (ls : List (List UInt8)) : Except WireError Name :=
  match checkLabels ls with
  | .error e => .error e
  | .ok () =>
    let n : Name := ⟨ls⟩
    if maxWireLength < n.wireLength then .error (.nameTooLong n.wireLength) else .ok n

end Name

end DnsStub
