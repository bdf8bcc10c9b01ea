import DnsStub.Proofs.Writing
import DnsStub.Message.Header
/-!
# The header on the wire

Each flag of a header is its own bit of the flag word, and the opcode and the response code
have four bits each, so a header whose opcode and response code fit those bits reads back from
its twelve bytes. The edits a builder makes to written header bytes are edits of the header:
setting the TC bit, replacing the response code bits and storing a section count.

Main statements: `parse_toBytes`, `setTruncated_toBytes`, `setResponseCode_toBytes`,
`count_toBytes` and `setCount_toBytes`.
-/
namespace DnsStub
namespace Header

/-- The count a header holds for a section. -/
def countOf (h : Header) : Section → UInt16
  | .question => h.questions
  | .answer => h.answers
  | .authority => h.nameservers
  | .additional => h.additional

/-- The header with the count of a section replaced. -/
def withCount (h : Header) : Section → UInt16 → Header
  | .question, n => { h with questions := n }
  | .answer, n => { h with answers := n }
  | .authority, n => { h with nameservers := n }
  | .additional, n => { h with additional := n }

@[simp] theorem countOf_withCount_self (h : Header) (sec : Section) (n : UInt16) :
    (h.withCount sec n).countOf sec = n := by
  cases sec <;> rfl

theorem countOf_withCount_of_ne (h : Header) {sec sec' : Section} (hs : sec' ≠ sec) (n : UInt16) :
    (h.withCount sec n).countOf sec' = h.countOf sec' := by
  cases sec <;> cases sec' <;> first | rfl | exact absurd rfl hs

/-- A header whose opcode and response code fit the four bits the flag word has for each. -/
def Fits (h : Header) : Prop :=
  h.opcode.code < 16 ∧ ∃ c, c < 16 ∧ h.responseCode = .wire c

theorem ite_and_bitVec {w : Nat} (b : Prop) [Decidable b] (x y z : BitVec w) :
    (if b then x else y) &&& z = if b then x &&& z else y &&& z := by
  split <;> rfl

theorem flags_and_masks (h : Header) :
    h.flags &&& flagQuery = (if !h.query then flagQuery else 0) ∧
    h.flags &&& flagAuthoritative = (if h.authoritative then flagAuthoritative else 0) ∧
    h.flags &&& flagTruncated = (if h.truncated then flagTruncated else 0) ∧
    h.flags &&& flagRecursionDesired = (if h.recursionDesired then flagRecursionDesired else 0) ∧
    h.flags &&& flagRecursionAvailable = (if h.recursionAvailable then flagRecursionAvailable else 0) ∧
    h.flags &&& flagAuthenticatedData = (if h.authenticatedData then flagAuthenticatedData else 0) ∧
    h.flags &&& flagCheckingDisabled = (if h.checkingDisabled then flagCheckingDisabled else 0) ∧
    h.flags &&& (0x7800 : UInt16) = h.opcode.code <<< 11 &&& 0x7800 ∧
    h.flags &&& (0x000F : UInt16) = h.responseCode.wireValue &&& 0x000F := by
  -- in the bit vectors the masks of the other fields fold to zero
  refine ⟨?_,?_,?_,?_,?_,?_,?_,?_,?_⟩ <;> apply UInt16.toBitVec_inj.1 <;>
    simp [flags,flagQuery,flagAuthoritative,flagTruncated,flagRecursionDesired,flagRecursionAvailable,
      flagAuthenticatedData,flagCheckingDisabled,BitVec.and_or_distrib_right,apply_ite UInt16.toBitVec,
      BitVec.and_assoc,ite_and_bitVec]

theorem shift_opcode {op : UInt16} (h : op < 16) : (op <<< 11 &&& 0x7800) >>> 11 = op := by
  have key : ∀ k : Nat, k < 16 → ((k.toUInt16 <<< 11 &&& 0x7800) >>> 11 : UInt16) = k.toUInt16 := by
    decide
  have hk : op.toNat < 16 := by simpa [UInt16.lt_iff_toNat_lt] using h
  simpa using key op.toNat hk

theorem and_fifteen {c : UInt16} (h : c < 16) : c &&& 0x000F = c := by
  have key : ∀ k : Nat, k < 16 → (k.toUInt16 &&& 0x000F : UInt16) = k.toUInt16 := by decide
  have hk : c.toNat < 16 := by simpa [UInt16.lt_iff_toNat_lt] using h
  simpa using key c.toNat hk

theorem flag_ne_zero (b : Bool) {f : UInt16} (hf : f ≠ 0) : ((if b then f else 0) != 0) = b := by
  cases b <;> simp [hf]

theorem flag_eq_zero (b : Bool) {f : UInt16} (hf : f ≠ 0) : ((if !b then f else 0) == 0) = b := by
  cases b <;> simp [hf]

theorem parse_toBytes {h : Header} (hf : h.Fits) (rest : List UInt8) :
    Header.parse (h.toBytes ++ rest).toByteArray = .ok h := by
  obtain ⟨hop,c,hc,hrc⟩ := hf
  obtain ⟨hq,haa,htc,hrd,hra,had,hcd,hopm,hrcm⟩ := flags_and_masks h
  simp only [Header.parse,BigEndian.getUInt16,BigEndian.byteAt_eq,toBytes,BigEndian.ofUInt16,size,
    List.data_toByteArray,List.toList_toArray,List.cons_append,List.nil_append,List.size_toByteArray,
    List.length_cons,List.getD_cons_succ,List.getD_cons_zero,BigEndian.toUInt16_ofUInt16]
  rw [if_neg (by omega),hq,haa,htc,hrd,hra,had,hcd,hopm,hrcm,shift_opcode hop,hrc]
  simp (disch := decide) only [flag_eq_zero,flag_ne_zero,ResponseCode.wireValue,ResponseCode.toWire?,
    Option.getD_some,and_fifteen hc]
  rw [← hrc]

/-! ### Edits of written header bytes -/

theorem flags_truncated (h : Header) : { h with truncated := true }.flags = h.flags ||| flagTruncated := by
  rcases h with ⟨id,q,op,aa,tc,rd,ra,ad,cd,rc,nq,na,nn,nd⟩
  -- the TC bit joins the word, or was in it already
  cases tc
  · simp only [flags,if_false,if_true,Bool.false_eq_true,UInt16.or_zero]
    ac_rfl
  · simp only [flags,if_true]
    ac_rfl

theorem hiByte_or_truncated (x : UInt16) :
    ((x ||| flagTruncated) >>> 8).toUInt8 = (x >>> 8).toUInt8 ||| 0x02 := by
  apply UInt8.toBitVec_inj.1
  simp [flagTruncated,BitVec.ushiftRight_or_distrib]

theorem setTruncated_toBytes (h : Header) (rest : List UInt8) :
    (setTruncated (h.toBytes ++ rest).toByteArray).data.toList =
      { h with truncated := true }.toBytes ++ rest := by
  have hlo : flagTruncated.toUInt8 = 0 := by decide
  simp [setTruncated,BigEndian.toList_setByte,BigEndian.byteAt_eq,toBytes,BigEndian.ofUInt16,
    flags_truncated,hiByte_or_truncated,hlo]

theorem loByte_responseCode (h : Header) (c : UInt16) :
    { h with responseCode := .wire (c &&& 0x000F) }.flags.toUInt8 =
      (h.flags.toUInt8 &&& 0xF0) ||| (c &&& 0x000F).toUInt8 := by
  apply UInt8.toBitVec_inj.1
  simp [flags,flagQuery,flagAuthoritative,flagTruncated,flagRecursionDesired,flagRecursionAvailable,
    flagAuthenticatedData,flagCheckingDisabled,ResponseCode.wireValue,ResponseCode.toWire?,
    BitVec.and_or_distrib_right,apply_ite UInt16.toBitVec,apply_ite (BitVec.setWidth 8),
    BitVec.and_assoc,ite_and_bitVec]
  ac_rfl

theorem hiByte_responseCode (h : Header) (c : UInt16) :
    (({ h with responseCode := .wire (c &&& 0x000F) }.flags >>> 8 : UInt16)).toUInt8 =
      (h.flags >>> 8 : UInt16).toUInt8 := by
  apply UInt8.toBitVec_inj.1
  simp [flags,flagQuery,flagAuthoritative,flagTruncated,flagRecursionDesired,flagRecursionAvailable,
    flagAuthenticatedData,flagCheckingDisabled,ResponseCode.wireValue,ResponseCode.toWire?,
    BitVec.ushiftRight_or_distrib,BitVec.ushiftRight_and_distrib,apply_ite UInt16.toBitVec]

theorem setResponseCode_toBytes (h : Header) (code : ResponseCode) (rest : List UInt8) :
    (setResponseCode (h.toBytes ++ rest).toByteArray code).data.toList =
      { h with responseCode := .wire (code.wireValue &&& 0x000F) }.toBytes ++ rest := by
  simp [setResponseCode,BigEndian.toList_setByte,BigEndian.byteAt_eq,toBytes,BigEndian.ofUInt16,
    loByte_responseCode,hiByte_responseCode]

theorem count_toBytes (h : Header) (rest : List UInt8) (sec : Section) :
    count (h.toBytes ++ rest).toByteArray sec = h.countOf sec := by
  cases sec <;> simp [count,countOffset,countOf,BigEndian.getUInt16,BigEndian.byteAt_eq,toBytes,
    BigEndian.ofUInt16]

theorem setCount_toBytes (h : Header) (rest : List UInt8) (sec : Section) (n : UInt16) :
    (setCount (h.toBytes ++ rest).toByteArray sec n).data.toList = (h.withCount sec n).toBytes ++ rest := by
  -- the flag word does not read the counts
  cases sec <;> simp [setCount,countOffset,withCount,BigEndian.toList_setUInt16,toBytes,
    BigEndian.ofUInt16] <;> exact ⟨rfl,rfl⟩

end Header
end DnsStub
