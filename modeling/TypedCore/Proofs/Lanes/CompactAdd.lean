import TypedCore.Execute
import TypedCore.Proofs.Encoding.Agreement
import TypedCore.Proofs.Lanes.Layout

/-!
# The compact addition

A small number can be added to a register by a compact instruction of one
halfword and by an ordinary addition with a short immediate. In the one the
number is the second operand, in the other the first, and only the other
looks at the kinds of its operands. For a register of integers neither makes
a difference: the operands have one type, whose kind goes with itself, and the
sum of two lanes does not depend on their order (`Lane.add_comm`). A register
without lanes refuses both.

For a register of floating-point numbers the two differ. The ordinary addition
refuses a short immediate; the compact one takes the bits of the number for
those of floating-point numbers.
-/

namespace TypedCore

/-! ## Sums of integer lanes -/

/-- A layout has floating-point lanes if its type does. -/
theorem RegType.isFloat_iff {t : RegType} {l : Layout} (h : t.layout? = some l) :
    t.isFloat = true ↔ l.overflow = .float := by
  cases t with
  | reserved _ | mask => cases h
  | _ => cases h; decide

/-- Operands of one type are of kinds that go together. -/
theorem OperandKinds.check_same (t : RegType) : (ofTypes .add t t).check = .ok () := by
  cases t with
  | _ => rfl

namespace Lane

variable {a b : TypedWord}

theorem arithmetic_error (h : a.type.layout? = none) (op : BinaryOp) (b : TypedWord) :
    arithmetic op a b = .error .type := by
  unfold arithmetic RegType.layout
  rw [h]
  rfl

theorem arithmetic_float {l : Layout} (hl : a.type.layout? = some l) (hf : l.overflow = .float)
    (op : BinaryOp) (b : TypedWord) :
    arithmetic op a b = .ok ⟨l.packSingles
      (List.zipWith (single op) (l.singles a.value) (l.singles b.value)), a.type⟩ := by
  unfold arithmetic RegType.layout
  rw [hl]
  exact if_pos hf

/-- The sum of two registers of one type does not depend on their order. -/
theorem add_comm (htype : a.type = b.type) (hint : a.type.isFloat = false) :
    arithmetic .add a b = arithmetic .add b a := by
  cases hl : a.type.layout? with
  | none => rw [arithmetic_error hl, arithmetic_error (htype ▸ hl)]
  | some l =>
      have hf : l.overflow ≠ .float := fun hf => by
        rw [(RegType.isFloat_iff hl).mpr hf] at hint
        cases hint
      rw [arithmetic_ok hl hf, arithmetic_ok (htype ▸ hl) hf, htype]
      simp only [exact, Int.add_comm]

end Lane

/-! ## The two encodings -/

/-- The word of the ordinary addition with a short immediate and with the registers of
a compact addition. -/
def Half.shortAdd (w : Half) : Half :=
  BitVec.ofNat 16 (4 * 4096 + 15 * 256 + w.fieldB * 16 + w.fieldD)

theorem Half.shortAdd_fields (w : Half) :
    w.shortAdd.fieldC = 4 ∧ w.shortAdd.fieldB = 15 ∧ w.shortAdd.fieldA = w.fieldB ∧
      w.shortAdd.fieldD = w.fieldD := by
  have hB := w.fieldB_lt
  have hD := w.fieldD_lt
  have hnat : w.shortAdd.toNat = 4 * 4096 + 15 * 256 + w.fieldB * 16 + w.fieldD := by
    rw [shortAdd, BitVec.toNat_ofNat, Nat.mod_eq_of_lt (by omega)]
  generalize w.fieldB = b at *
  generalize w.fieldD = d at *
  unfold fieldA fieldB fieldC fieldD
  rw [hnat]
  omega

namespace Insn

/-- The ordinary addition of a number as a short immediate. -/
def shortAdd (rd rb : Nat) (value : Int) : Insn :=
  .binary .add rd (.imm (BitVec.ofInt 32 value) true) rb

variable {w : Half}

theorem decode_tinyAdd (x : Word) (hC : w.fieldC = 11) (hB : w.fieldB ≠ 15)
    (hA : w.fieldA ≠ 15) (hD : w.fieldD ≠ 15) :
    (decode w x).insn = tinyAdd w.fieldD w.fieldB (onesComplement 4 w.fieldA) := by
  have hline := Listing.Alu.tinyAdd (x := cutExtension w.insnLength x)
    (Half.fieldB_lt_15 hB) (Half.fieldA_lt_15 hA) (Half.fieldD_lt_15 hD)
  rw [← hC, Listing.oc_four w.fieldA_lt] at hline
  exact (decode_of_listed (.alu hline)).1

theorem decode_shortAdd (hB : w.fieldB ≠ 15) (hD : w.fieldD ≠ 15) :
    (decode w.shortAdd (BitVec.ofInt 32 (onesComplement 4 w.fieldA))).insn =
      shortAdd w.fieldD w.fieldB (onesComplement 4 w.fieldA) := by
  obtain ⟨hC', hB', hA', hD'⟩ := w.shortAdd_fields
  have hlen : w.shortAdd.insnLength = 4 := by
    rw [Half.insnLength_eq, hC', hB', hA', hD']
    grind [Half.lengthOf]
  have hvalue : ∀ a < 16, Listing.sext16 (cutExtension 4 (BitVec.ofInt 32 (onesComplement 4 a))) =
      BitVec.ofInt 32 (onesComplement 4 a) := by
    decide
  have hline : ∀ x, Listing.Alu x 4 15 w.fieldB w.fieldD 4
      (.binary .add w.fieldD (.imm (Listing.sext16 x) true) w.fieldB) := fun x =>
    .binaryShort (by decide) (Half.fieldB_lt_15 hB) (Half.fieldD_lt_15 hD)
  have hadd := hline (cutExtension 4 (BitVec.ofInt 32 (onesComplement 4 w.fieldA)))
  rw [hvalue _ w.fieldA_lt] at hadd
  have hlisted : Listed (· = 0) w.shortAdd (cutExtension w.shortAdd.insnLength
      (BitVec.ofInt 32 (onesComplement 4 w.fieldA))) 4
      (shortAdd w.fieldD w.fieldB (onesComplement 4 w.fieldA)) := by
    unfold Listed
    rw [hlen, hC', hB', hA', hD']
    exact .alu hadd
  exact (decode_of_listed hlisted).1

/-! ## Their effects -/

section Effects

variable {rb : Nat} {s : State} (rd : Nat) (value : Int) (p : Platform)

theorem tinyAdd_execute_int (hint : (s.regs.read rb).type.isFloat = false) :
    (tinyAdd rd rb value).execute s p = (shortAdd rd rb value).execute s p := by
  have hshort : executeBinary .add rd (.imm (BitVec.ofInt 32 value) true) rb s.regs =
      .ofResult rd (Lane.arithmetic .add ⟨BitVec.ofInt 32 value, (s.regs.read rb).type⟩
        (s.regs.read rb)) := by
    rw [executeBinary, hint]
    show Effects.ofResult rd (Alu.binaryChecked .add _ _) = _
    rw [Alu.binaryChecked, OperandKinds.check_same]
    rfl
  refine congrArg (fun e => Except.ok (e, p)) (Eq.trans ?_ hshort.symm)
  exact congrArg (Effects.ofResult rd) (Lane.add_comm rfl hint)

theorem shortAdd_execute_float (hfloat : (s.regs.read rb).type.isFloat = true) :
    (shortAdd rd rb value).execute s p = .ok (.raise .type, p) := by
  refine congrArg (fun e => Except.ok (e, p)) ?_
  show executeBinary .add rd _ rb s.regs = _
  rw [executeBinary, hfloat]
  rfl

/-- The compact addition to floating-point lanes adds to each what the bits of the
immediate in its place stand for. -/
theorem tinyAdd_execute_float (hfloat : (s.regs.read rb).type.isFloat = true) :
    ∃ l, (s.regs.read rb).type.layout? = some l ∧
      (tinyAdd rd rb value).execute s p =
        .ok (.write rd ⟨l.packSingles (List.zipWith Single.add (l.singles (s.regs.read rb).value)
          (l.singles (BitVec.ofInt 32 value))), (s.regs.read rb).type⟩, p) := by
  have hlayout : ∃ l, (s.regs.read rb).type.layout? = some l := by
    generalize (s.regs.read rb).type = t at hfloat ⊢
    cases t with
    | fp32 | fp16x2 => exact ⟨_, rfl⟩
    | _ => cases hfloat
  obtain ⟨l, hl⟩ := hlayout
  refine ⟨l, hl, congrArg (fun e => Except.ok (e, p)) ?_⟩
  exact congrArg (Effects.ofResult rd)
    (Lane.arithmetic_float hl ((RegType.isFloat_iff hl).mp hfloat) .add _)

end Effects

/-- The compact addition has the effects of the ordinary one with the same number as a
short immediate, for every number and in every state where the register does not hold
floating-point numbers: the same write, or the same cause. Where it does hold such
numbers, the ordinary addition raises `type` and the compact one writes a sum. Every word
of a compact addition has its ordinary addition. -/
theorem tinyAdd_agrees (rd rb : Nat) (value : Int) (s : State) (p : Platform) :
    ((s.regs.read rb).type.isFloat = false →
      (tinyAdd rd rb value).execute s p = (shortAdd rd rb value).execute s p) ∧
    ((s.regs.read rb).type.isFloat = true →
      (shortAdd rd rb value).execute s p = .ok (.raise .type, p) ∧
      ∃ l, (s.regs.read rb).type.layout? = some l ∧
        (tinyAdd rd rb value).execute s p =
          .ok (.write rd ⟨l.packSingles (List.zipWith Single.add
            (l.singles (s.regs.read rb).value) (l.singles (BitVec.ofInt 32 value))),
            (s.regs.read rb).type⟩, p)) ∧
    ∀ w x, w.fieldC = 11 → w.fieldB ≠ 15 → w.fieldA ≠ 15 → w.fieldD ≠ 15 →
      (decode w x).insn = tinyAdd w.fieldD w.fieldB (onesComplement 4 w.fieldA) ∧
      (decode w.shortAdd (BitVec.ofInt 32 (onesComplement 4 w.fieldA))).insn =
        shortAdd w.fieldD w.fieldB (onesComplement 4 w.fieldA) := by
  refine ⟨tinyAdd_execute_int rd value p, fun hfloat => ?_, fun w x hC hB hA hD => ?_⟩
  · exact ⟨shortAdd_execute_float rd value p hfloat, tinyAdd_execute_float rd value p hfloat⟩
  · exact ⟨decode_tinyAdd x hC hB hA hD, decode_shortAdd hB hD⟩

/-- Minus 2 added to a pair of clamped 16-bit numbers, by the words `0xb9d4` and `0x4f94`, and
3 added to a single, which the ordinary addition refuses. -/
theorem tinyAdd_agrees_halves_and_single :
    let p : Platform := ⟨.generic, {}, .whole, .whole⟩
    let halves : State := { regs := RegFile.set {} 9 ⟨0x00058000, .sint16x2s⟩ }
    let one : State := { regs := RegFile.set {} 9 ⟨0x3f800000, .fp32⟩ }
    (decode 0xb9d4 0).insn.execute halves p = (decode 0x4f94 0xfffffffe).insn.execute halves p ∧
      (decode 0x4f94 3).insn.execute one p = .ok (.raise .type, p) := by
  intro p halves one
  obtain ⟨hint, -, hdecode⟩ := tinyAdd_agrees 4 9 (-2) halves p
  obtain ⟨-, hfloat, -⟩ := tinyAdd_agrees 4 9 3 one p
  have hminus := hdecode 0xb9d4 0 (by decide) (by decide) (by decide) (by decide)
  have hplus := hdecode 0xb934 0 (by decide) (by decide) (by decide) (by decide)
  constructor
  · rw [hminus.1]
    exact (hint rfl).trans (congrArg (fun insn => insn.execute halves p) hminus.2).symm
  · exact (congrArg (fun insn => insn.execute one p) hplus.2).trans (hfloat rfl).1

/-- The two additions of 3 to the single 1.0 are not the same. -/
theorem tinyAdd_differs :
    ¬ ∀ rd rb a (s : State) p,
      (tinyAdd rd rb (onesComplement 4 a)).execute s p =
        (shortAdd rd rb (onesComplement 4 a)).execute s p := by
  intro h
  have hsame := h 4 9 3 { regs := RegFile.set {} 9 ⟨0x3f800000, .fp32⟩ }
    ⟨.generic, {}, .whole, .whole⟩
  have hcause := congrArg (fun r => r.toOption.map fun e : Effects × Platform => e.1.cause) hsame
  revert hcause
  decide

end Insn

end TypedCore
