import TypedCore.Encoding.Decode
import TypedCore.Proofs.Encoding.Listing

/-!
# Two readings of the same fields

The listing of the encodings and the decoder each have their own way to read an
immediate, their own lists of codes and their own account of the length of an
instruction. Here they are compared, one by one: the readings are equal, a code is
listed exactly if the decoder knows it, and the length column of the tables is
what the length rule says (`Line.length`).
-/

namespace TypedCore

/-! ## Readings -/

namespace Listing

variable {x : Word} {w : Half}

theorem ext16_eq (x : Word) : ext16 x = x.setWidth 16 := by
  ext i hi
  simp [ext16]

theorem sext16_eq (x : Word) : sext16 x = x.signedHalf := by
  rw [sext16, ext16_eq, Word.signedHalf]

theorem unmunge_eq (x : Word) : unmunge x = Encoding.branchOffset x := by
  have hlt := (x.setWidth 16).isLt
  rw [unmunge, ext16_eq, Encoding.branchOffset, Half.displacement, BitVec.toInt_sshiftRight,
    BitVec.toInt_eq_toNat_cond, BitVec.toInt_eq_toNat_cond, BitVec.toNat_shiftLeft,
    BitVec.toNat_setWidth, Int.shiftRight_eq_div_pow, Nat.shiftLeft_eq]
  generalize (x.setWidth 16).toNat = v at hlt ⊢
  split <;> split <;> omega

theorem ofExt_eq (x : Word) : Encoding.ExtFields.ofExt x = ⟨extD x, extA x, extB x, extC x⟩ := by
  simp [Encoding.ExtFields.ofExt, extD, extA, extB, extC, BitVec.extractLsb'_toNat,
    Nat.shiftRight_eq_div_pow]

theorem oc_four {a : Nat} (ha : a < 16) : oc (BitVec.ofNat 4 a) = onesComplement 4 a := by
  revert a
  decide

theorem tinyRef_eq (w : Half) : Encoding.frameRef w = tinyRef w.fieldB w.fieldA := by
  have hoffset : ∀ b < 16, ∀ a < 16,
      oc ((BitVec.ofNat 8 b <<< 4 ||| BitVec.ofNat 8 a) &&& 0xfe) =
        onesComplement 8 (b * 16 + a / 2 * 2) := by
    decide
  have hbase : 12 + w.fieldA % 2 = if w.fieldA % 2 = 0 then 12 else 13 := by
    split <;> omega
  rw [Encoding.frameRef, tinyRef, hoffset _ w.fieldB_lt _ w.fieldA_lt, hbase]

theorem bulkRef_eq (w : Half) : Encoding.bulkRef w = bulkRef w.fieldD w.fieldA := by
  rw [Encoding.bulkRef, bulkRef, oc_four w.fieldA_lt]

theorem extD_lt (x : Word) : extD x < 16 := (x.extractLsb' 0 4).isLt

theorem extA_lt (x : Word) : extA x < 16 := (x.extractLsb' 4 4).isLt

theorem extB_lt (x : Word) : extB x < 16 := (x.extractLsb' 8 4).isLt

/-! ## Codes -/

theorem mem_unaryOps {b : Nat} {op : UnaryOp} (h : (b, op) ∈ unaryOps) : 3 ≤ b ∧ b ≤ 11 := by
  have hall : ∀ p ∈ unaryOps, 3 ≤ p.1 ∧ p.1 ≤ 11 := by decide
  exact hall _ h

theorem mem_binaryOps {c : Nat} {op : BinaryOp} :
    (c, op) ∈ binaryOps ↔ BinaryOp.ofField? c = some op := by
  have hall : ∀ p ∈ binaryOps, BinaryOp.ofField? p.1 = some p.2 := by decide
  constructor
  · exact hall _
  · unfold BinaryOp.ofField?
    split <;> intro h <;> cases h <;> decide

theorem binaryOps_bounds {c : Nat} {op : BinaryOp} (h : (c, op) ∈ binaryOps) : 1 ≤ c ∧ c ≤ 9 := by
  have hall : ∀ p ∈ binaryOps, 1 ≤ p.1 ∧ p.1 ≤ 9 := by decide
  exact hall _ h

theorem mem_memoryOps {b : Nat} {op : MemOp} :
    (b, op) ∈ memoryOps ++ atomicOps ↔ MemOp.ofCode? b = some op := by
  have hall : ∀ p ∈ memoryOps ++ atomicOps, MemOp.ofCode? p.1 = some p.2 := by decide
  constructor
  · exact hall _
  · unfold MemOp.ofCode?
    split <;> intro h <;> cases h <;> decide

theorem mem_longOps {b : Nat} {op : MemOp} :
    (b, op) ∈ memoryOps ↔ b < 8 ∧ MemOp.ofCode? b = some op := by
  have hall : ∀ p ∈ memoryOps, p.1 < 8 ∧ MemOp.ofCode? p.1 = some p.2 := by decide
  constructor
  · exact hall _
  · unfold MemOp.ofCode?
    rintro ⟨hb, h⟩
    split at h <;> cases h <;> first | decide | omega

theorem mem_zeroConds {b : Nat} {cond : Cond} :
    (b, cond) ∈ zeroConds ↔ Cond.ofZeroCode? b = some cond := by
  have hall : ∀ p ∈ zeroConds, Cond.ofZeroCode? p.1 = some p.2 := by decide
  constructor
  · exact hall _
  · unfold Cond.ofZeroCode?
    split <;> intro h <;> cases h <;> decide

theorem mem_regConds {c : Nat} {cond : Cond} {signed : Bool} :
    (c, cond, signed) ∈ regConds ↔ Cond.ofRegCode? c = some (cond, signed) := by
  have hall : ∀ p ∈ regConds, Cond.ofRegCode? p.1 = some p.2 := by decide
  constructor
  · exact hall _
  · unfold Cond.ofRegCode?
    split <;> intro h <;> cases h <;> decide

theorem mem_testBits {c bit : Nat} :
    (c, bit) ∈ testBits ↔ Encoding.testedBits[c]? = some bit := by
  have hall : ∀ p ∈ testBits, Encoding.testedBits[p.1]? = some p.2 := by decide
  constructor
  · exact hall _
  · intro h
    obtain ⟨hc, rfl⟩ := List.getElem?_eq_some_iff.mp h
    have hindex : ∀ i : Fin 15, (i.val, Encoding.testedBits[i]) ∈ testBits := by decide
    exact hindex ⟨c, hc⟩

end Listing

/-! ## Length -/

namespace Half

/-- The length rule, on the fields of a word. -/
def lengthOf (c b a d : Nat) : Nat :=
  if a = 15 ∨ b = 15 ∨ d = 15 ∨ (c = 15 ∧ 8 ≤ b) then
    if a = 15 ∧ ((c = 15 ∧ 8 ≤ b) ∨ d ≠ 15) then 6 else 4
  else 2

theorem insnLength_eq (w : Half) :
    w.insnLength = lengthOf w.fieldC w.fieldB w.fieldA w.fieldD := by
  have hgroup : (w.isLongGroup = true) ↔ w.fieldC = 15 ∧ 8 ≤ w.fieldB := by
    have heq := w.toNat_eq_fields
    have hC := w.fieldC_lt
    have hB := w.fieldB_lt
    have hA := w.fieldA_lt
    have hD := w.fieldD_lt
    simp only [isLongGroup, topFive, beq_iff_eq]
    omega
  simp only [insnLength, isExtended, isWide, lengthOf, Bool.or_eq_true, Bool.and_eq_true,
    beq_iff_eq, bne_iff_ne, hgroup, or_assoc]

end Half

namespace Listing

variable {x : Word} {interpolates : Nat → Prop} {c b a d len : Nat} {insn : Insn}

theorem Alu.length (h : Alu x c b a d len insn) : Half.lengthOf c b a d = len := by
  cases h with
  | interrupt h =>
      have hall : ∀ p ∈ interrupts, p.1 < 15 := by decide
      have hd : _ < 15 := hall _ h
      grind [Half.lengthOf]
  | unary h ha hd =>
      have hb := mem_unaryOps h
      grind [Half.lengthOf]
  | binary h | binaryImm h | binaryShort h =>
      have hc := binaryOps_bounds h
      grind [Half.lengthOf]
  | _ => grind [Half.lengthOf]

theorem Tiny.length (h : Tiny c b a d len insn) : Half.lengthOf c b a d = len := by
  cases h <;> grind [Half.lengthOf]

theorem Memory.length (h : Memory x c b a d len insn) : Half.lengthOf c b a d = len := by
  cases h with
  | short h =>
      have hall : ∀ p ∈ memoryOps ++ atomicOps, p.1 ≤ 9 := by decide
      have hb : _ ≤ 9 := hall _ h
      grind [Half.lengthOf]
  | long h | absolute h =>
      have hb := (mem_longOps.mp h).1
      grind [Half.lengthOf]
  | _ => grind [Half.lengthOf]

theorem Branch.length (h : Branch x c b a d len insn) : Half.lengthOf c b a d = len := by
  have hzero : ∀ p ∈ zeroConds, p.1 ≤ 5 := by decide
  have hreg : ∀ p ∈ regConds, 1 ≤ p.1 ∧ p.1 ≤ 6 := by decide
  have hbit : ∀ p ∈ testBits, p.1 ≤ 14 := by decide
  cases h with
  | zero h | zeroAll h =>
      have hb : _ ≤ 5 := hzero _ h
      grind [Half.lengthOf]
  | reg h | regAll h =>
      have hc : 1 ≤ _ ∧ _ ≤ 6 := hreg _ h
      grind [Half.lengthOf]
  | bitSet h | bitClear h =>
      have hc : _ ≤ 14 := hbit _ h
      grind [Half.lengthOf]

theorem Extended.length (h : Extended x interpolates c b a d len insn) :
    Half.lengthOf c b a d = len := by
  cases h <;> grind [Half.lengthOf]

/-- The length column of the tables is the length rule. -/
theorem Line.length (h : Line x interpolates c b a d len insn) : Half.lengthOf c b a d = len := by
  cases h with
  | alu h => exact h.length
  | tiny h => exact h.length
  | memory h => exact h.length
  | branch h => exact h.length
  | extended h => exact h.length

end Listing

end TypedCore
