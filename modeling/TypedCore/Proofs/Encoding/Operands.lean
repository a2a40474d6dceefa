import Mathlib.Tactic.SplitIfs
import TypedCore.Insn.Text

/-!
# Operands of decoded instructions

The number 15 in a register field announces an operand from the extension, so
no encoding yields it as a register, and every memory reference that an
encoding yields has something to make an address of. `Insn.Valid` says both,
and `decode_valid` is the one fact about it that the machine rests on: an
instruction that was decoded can always be written as text and never writes a
register that does not exist.

The proof goes row by row through the encoding table. `Template.Sound` is what
a row owes; the rows that share a way of reading share a lemma on it.
-/

namespace TypedCore

/-! ## The operands of an instruction -/

/-- The register that a memory reference starts from. -/
def MemRef.registers (mem : MemRef) : List Nat := mem.base.toList

/-- Whether there is anything to make an address of. -/
def MemRef.isNamed (mem : MemRef) : Bool := mem.base.isSome || mem.offset.isSome

/-- The registers of a comparison. -/
def Comparison.registers (cmp : Comparison) : List Nat :=
  cmp.left :: cmp.typedBy :: cmp.right.toList

/-- The register of an operand, if it is one. -/
def Operand.registers : Operand → List Nat
  | reg r => [r]
  | imm .. => []

namespace Insn

/-- The registers that an instruction names. -/
def registers : Insn → List Nat
  | unknown | interrupt _ | enterTask | waitForInterrupt | fence _ | jumpImm ..
  | loadTypes .. => []
  | jumpReg _ rd | readPc rd _ | loadImm rd .. | tinyImm rd _ | link rd _ | setTypeImm rd _
  | csrRead rd _ | csrWrite rd _ => [rd]
  | unary _ rd ra | setTypeReg rd ra | getType rd ra | swizzle rd ra _ | tinyAdd rd ra _ =>
    [rd, ra]
  | binary _ rd lhs rhs => rd :: rhs :: lhs.registers
  | andNot rd ra rb | fullMul rd ra rb .. | interpolate rd ra rb => [rd, ra, rb]
  | memory _ reg mem => reg :: mem.registers
  | invalidate mem | jumpMem _ mem | loadTypesMem _ mem | storeTypesMem _ mem => mem.registers
  | branch cmp .. => cmp.registers
  | bitBranch reg .. => [reg]
  | laneCompare rd cmp => rd :: cmp.registers

/-- The memory reference of an instruction. -/
def memRef? : Insn → Option MemRef
  | memory _ _ mem | invalidate mem | jumpMem _ mem | loadTypesMem _ mem | storeTypesMem _ mem =>
    some mem
  | _ => none

/-- Every register exists, and a memory reference has an address. -/
structure Valid (insn : Insn) : Prop where
  registers_lt : ∀ r ∈ insn.registers, r < 15
  isNamed : ∀ mem ∈ insn.memRef?, mem.isNamed

theorem valid_unknown : Valid unknown := ⟨by simp [registers], by simp [memRef?]⟩

theorem valid_interrupt (cause : Cause) : Valid (interrupt cause) :=
  ⟨by simp [registers], by simp [memRef?]⟩

end Insn

/-! ## Register fields -/

namespace Half

variable {w : Half}

theorem fieldD_lt_15 (h : w.fieldD ≠ 15) : w.fieldD < 15 := by
  have := w.fieldD_lt
  omega

theorem fieldA_lt_15 (h : w.fieldA ≠ 15) : w.fieldA < 15 := by
  have := w.fieldA_lt
  omega

theorem fieldB_lt_15 (h : w.fieldB ≠ 15) : w.fieldB < 15 := by
  have := w.fieldB_lt
  omega

end Half

namespace Encoding

variable (w : Half) (ext : Word)

theorem longRef_registers_lt : ∀ r ∈ (longRef w ext).registers, r < 15 := by
  unfold longRef
  split
  · simp [MemRef.registers, MemRef.ofAddress]
  · rename_i h
    simpa [MemRef.registers, MemRef.ofBaseOffset] using Half.fieldA_lt_15 h

theorem longRef_isNamed : (longRef w ext).isNamed := by
  unfold longRef
  split <;> rfl

theorem ExtFields.ofExt_lt (ext : Word) :
    (ofExt ext).d < 16 ∧ (ofExt ext).a < 16 ∧ (ofExt ext).b < 16 := by
  simp only [ofExt]
  omega

/-! ## Ways of reading -/

theorem interrupt_valid : (interrupt w ext).Valid := by
  unfold interrupt
  split
  · exact Insn.valid_interrupt _
  · exact Insn.valid_interrupt _
  · exact Insn.valid_interrupt _
  · exact Insn.valid_interrupt _
  · cases Cause.ofSwiLevel? w.fieldD with
    | none => exact Insn.valid_unknown
    | some cause => exact Insn.valid_interrupt cause

/-- Only one of the fields B and A can announce an immediate. -/
theorem binary_valid (hD : w.fieldD ≠ 15) (hBA : w.fieldB ≠ 15 ∨ w.fieldA ≠ 15) :
    (binary w ext).Valid := by
  have hd := Half.fieldD_lt_15 hD
  unfold binary
  split
  · exact Insn.valid_unknown
  · split_ifs with hB hA
    · have ha := Half.fieldA_lt_15 (hBA.resolve_left (not_not_intro hB))
      exact ⟨by simpa [Insn.registers, Operand.registers] using ⟨hd, ha⟩, by simp [Insn.memRef?]⟩
    · have hb := Half.fieldB_lt_15 hB
      exact ⟨by simpa [Insn.registers, Operand.registers] using ⟨hd, hb⟩, by simp [Insn.memRef?]⟩
    · have hb := Half.fieldB_lt_15 hB
      have ha := Half.fieldA_lt_15 hA
      exact ⟨by simpa [Insn.registers, Operand.registers] using ⟨hd, hb, ha⟩,
        by simp [Insn.memRef?]⟩

theorem loadImm_valid (hD : w.fieldD ≠ 15) : (loadImm w ext).Valid :=
  ⟨by simpa [loadImm, Insn.registers] using Half.fieldD_lt_15 hD,
    by simp [loadImm, Insn.memRef?]⟩

theorem memory_valid {op : MemOp} {reg : Nat} {mem : MemRef} (hreg : reg < 15)
    (hmem : ∀ r ∈ mem.registers, r < 15) (hn : mem.isNamed) : (Insn.memory op reg mem).Valid :=
  ⟨by simpa [Insn.registers] using ⟨hreg, hmem⟩, by simpa [Insn.memRef?] using hn⟩

theorem shortMemory_valid (hD : w.fieldD ≠ 15) (hA : w.fieldA ≠ 15) :
    (shortMemory w ext).Valid := by
  unfold shortMemory
  split
  · exact memory_valid (Half.fieldD_lt_15 hD)
      (by simpa [MemRef.ofBase, MemRef.registers] using Half.fieldA_lt_15 hA) rfl
  · exact Insn.valid_unknown

theorem longMemory_valid : (longMemory w ext).Valid := by
  unfold longMemory
  split_ifs with hD
  · split
    · exact ⟨longRef_registers_lt w ext, by simpa [Insn.memRef?] using longRef_isNamed w ext⟩
    · exact ⟨longRef_registers_lt w ext, by simpa [Insn.memRef?] using longRef_isNamed w ext⟩
    · exact Insn.valid_unknown
  · split
    · exact memory_valid (Half.fieldD_lt_15 hD) (longRef_registers_lt w ext)
        (longRef_isNamed w ext)
    · exact Insn.valid_unknown

theorem zeroBranch_valid (hA : w.fieldA ≠ 15) : (zeroBranch w ext).Valid := by
  unfold zeroBranch
  split
  · exact ⟨by simpa [Insn.registers, Comparison.registers] using Half.fieldA_lt_15 hA,
      by simp [Insn.memRef?]⟩
  · exact Insn.valid_unknown

theorem regBranch_valid (hB : w.fieldB ≠ 15) (hA : w.fieldA ≠ 15) : (regBranch w ext).Valid := by
  unfold regBranch
  split
  · exact ⟨by simpa [Insn.registers, Comparison.registers]
      using ⟨Half.fieldB_lt_15 hB, Half.fieldA_lt_15 hA⟩, by simp [Insn.memRef?]⟩
  · exact Insn.valid_unknown

theorem bitBranch_valid (hBA : w.fieldB ≠ 15 ∨ w.fieldA ≠ 15) : (bitBranch w ext).Valid := by
  unfold bitBranch
  split
  · split_ifs with hB
    · have ha := Half.fieldA_lt_15 (hBA.resolve_left (not_not_intro hB))
      exact ⟨by simpa [Insn.registers] using ha, by simp [Insn.memRef?]⟩
    · exact ⟨by simpa [Insn.registers] using Half.fieldB_lt_15 hB, by simp [Insn.memRef?]⟩
  · exact Insn.valid_unknown

/-- The registers of a full multiply are in the extension, where 15 makes the
encoding unknown. -/
theorem fullMul_valid : (fullMul w ext).Valid := by
  have hlt := ExtFields.ofExt_lt ext
  simp only [fullMul]
  split_ifs with h
  · exact Insn.valid_unknown
  · exact ⟨by simp [Insn.registers]; omega, by simp [Insn.memRef?]⟩

theorem laneCompare_valid : (laneCompare w ext).Valid := by
  have hlt := ExtFields.ofExt_lt ext
  simp only [laneCompare]
  split_ifs with hDA hC hB
  · exact Insn.valid_unknown
  · split
    · exact ⟨by simp [Insn.registers, Comparison.registers]; omega, by simp [Insn.memRef?]⟩
    · exact Insn.valid_unknown
  · exact Insn.valid_unknown
  · split
    · exact ⟨by simp [Insn.registers, Comparison.registers]; omega, by simp [Insn.memRef?]⟩
    · exact Insn.valid_unknown

theorem interpolate_valid : (interpolate w ext).Valid := by
  have hlt := ExtFields.ofExt_lt ext
  simp only [interpolate]
  split_ifs with h
  · exact Insn.valid_unknown
  · exact ⟨by simp [Insn.registers]; omega, by simp [Insn.memRef?]⟩

end Encoding

/-! ## Rows -/

theorem NibblePattern.ne_of_operand {n : Nat} (h : operand.accepts n = true) : n ≠ 15 := by
  simpa [accepts] using h

namespace Template

theorem accepts_iff {t : Template} {w : Half} :
    t.accepts w = true ↔ t.fieldC.accepts w.fieldC = true ∧ t.fieldB.accepts w.fieldB = true ∧
      t.fieldA.accepts w.fieldA = true ∧ t.fieldD.accepts w.fieldD = true := by
  simp only [accepts, Bool.and_eq_true, and_assoc]

/-- What a row of the table owes: a valid instruction for every word it accepts. -/
def Sound (t : Template) : Prop := ∀ w ext, t.accepts w → (t.build w ext).Valid

end Template

namespace Encoding

open NibblePattern (ne_of_operand)

theorem exceptionGroup_sound : ∀ t ∈ exceptionGroup, t.Sound := by
  simp only [exceptionGroup, List.forall_mem_cons]
  refine ⟨?_, ?_, ?_, ?_, ?_, ?_, ?_, ?_, ?_, ?_, ?_, by simp⟩ <;> intro w ext _
  iterate 8 exact interrupt_valid w ext
  all_goals exact ⟨by simp [Insn.registers], by simp [Insn.memRef?]⟩

theorem moveGroup_sound : ∀ t ∈ moveGroup, t.Sound := by
  simp only [moveGroup, List.forall_mem_cons]
  refine ⟨?_, ?_, ?_, ?_, ?_, ?_, ?_, ?_, ?_, ?_, ?_, ?_, by simp⟩ <;> intro w ext h
  all_goals
    constructor <;>
      simp_all [Template.accepts, NibblePattern.accepts, loadImm, Insn.registers, Insn.memRef?,
        Half.fieldD_lt_15]

theorem unaryGroup_sound : ∀ t ∈ unaryGroup, t.Sound := by
  simp only [unaryGroup, List.forall_mem_cons]
  refine ⟨?_, ?_, ?_, ?_, ?_, ?_, ?_, ?_, ?_, ?_, ?_, ?_, by simp⟩ <;> intro w ext h
  all_goals
    constructor <;>
      simp_all [Template.accepts, NibblePattern.accepts, unary, Insn.registers, Insn.memRef?,
        Half.fieldD_lt_15, Half.fieldA_lt_15]

theorem reservedImmediates_sound : ∀ t ∈ reservedImmediates, t.Sound := by
  simp only [reservedImmediates, List.forall_mem_map]
  intro c _ w ext h
  obtain ⟨-, -, -, hD⟩ := Template.accepts_iff.mp h
  exact loadImm_valid w ext (ne_of_operand hD)

theorem binaryGroup_sound : ∀ t ∈ binaryGroup, t.Sound := by
  rw [binaryGroup, List.forall_mem_flatMap]
  intro c _
  simp only [List.forall_mem_cons]
  refine ⟨?_, ?_, ?_, by simp⟩ <;> intro w ext h <;>
    obtain ⟨-, hB, hA, hD⟩ := Template.accepts_iff.mp h
  · exact binary_valid w ext (ne_of_operand hD) (.inl (ne_of_operand hB))
  · exact binary_valid w ext (ne_of_operand hD) (.inl (ne_of_operand hB))
  · exact binary_valid w ext (ne_of_operand hD) (.inr (ne_of_operand hA))

theorem compactGroup_sound : ∀ t ∈ compactGroup, t.Sound := by
  simp only [compactGroup, List.forall_mem_cons]
  refine ⟨?_, ?_, ?_, ?_, ?_, ?_, ?_, by simp⟩ <;> intro w ext h
  all_goals
    constructor <;>
      simp_all [Template.accepts, NibblePattern.accepts, Insn.registers, Insn.memRef?,
        MemRef.registers, MemRef.isNamed, frameRef, Half.fieldD_lt_15, Half.fieldA_lt_15,
        Half.fieldB_lt_15]
  all_goals omega

theorem shortMemoryGroup_sound : ∀ t ∈ shortMemoryGroup, t.Sound := by
  rw [shortMemoryGroup, List.forall_mem_append, List.forall_mem_map]
  constructor
  · intro b _ w ext h
    obtain ⟨-, -, hA, hD⟩ := Template.accepts_iff.mp h
    exact shortMemory_valid w ext (ne_of_operand hD) (ne_of_operand hA)
  · simp only [List.forall_mem_cons]
    refine ⟨?_, ?_, ?_, ?_, ?_, ?_, ?_, by simp⟩ <;> intro w ext h
    all_goals
      constructor <;>
        simp_all [Template.accepts, NibblePattern.accepts, Insn.registers, Insn.memRef?,
          MemRef.registers, MemRef.isNamed, MemRef.ofBase, MemRef.ofBaseOffset, bulkRef,
          Half.fieldD_lt_15, Half.fieldA_lt_15]

theorem branchGroup_sound : ∀ t ∈ branchGroup, t.Sound := by
  rw [branchGroup, List.forall_mem_append, List.forall_mem_append, List.forall_mem_map,
    List.forall_mem_map, List.forall_mem_flatMap]
  refine ⟨⟨?_, ?_⟩, ?_⟩
  · intro b _ w ext h
    obtain ⟨-, -, hA, -⟩ := Template.accepts_iff.mp h
    exact zeroBranch_valid w ext (ne_of_operand hA)
  · intro c _ w ext h
    obtain ⟨-, hB, hA, -⟩ := Template.accepts_iff.mp h
    exact regBranch_valid w ext (ne_of_operand hB) (ne_of_operand hA)
  · intro c _
    simp only [List.forall_mem_cons]
    refine ⟨?_, ?_, by simp⟩ <;> intro w ext h <;>
      obtain ⟨-, hB, hA, -⟩ := Template.accepts_iff.mp h
    · exact bitBranch_valid w ext (.inr (ne_of_operand hA))
    · exact bitBranch_valid w ext (.inl (ne_of_operand hB))

theorem extendedGroup_sound : ∀ t ∈ extendedGroup, t.Sound := by
  simp only [extendedGroup, List.forall_mem_cons]
  refine ⟨?_, ?_, ?_, ?_, ?_, ?_, by simp⟩ <;> intro w ext h <;>
    obtain ⟨-, -, -, hD⟩ := Template.accepts_iff.mp h
  · exact ⟨by simpa [Insn.registers] using Half.fieldD_lt_15 (ne_of_operand hD),
      by simp [Insn.memRef?]⟩
  · exact ⟨by simpa [Insn.registers] using Half.fieldD_lt_15 (ne_of_operand hD),
      by simp [Insn.memRef?]⟩
  · exact fullMul_valid w ext
  · exact fullMul_valid w ext
  · exact laneCompare_valid w ext
  · exact interpolate_valid w ext

theorem longMemoryGroup_build : ∀ t ∈ longMemoryGroup, t.build = longMemory := by
  simp [longMemoryGroup]

theorem longMemoryGroup_sound : ∀ t ∈ longMemoryGroup, t.Sound := by
  intro t ht w ext _
  rw [longMemoryGroup_build t ht]
  exact longMemory_valid w ext

theorem table_sound : ∀ t ∈ table, t.Sound := by
  simp only [table, List.forall_mem_append]
  exact ⟨⟨⟨⟨⟨⟨⟨⟨⟨exceptionGroup_sound, moveGroup_sound⟩, unaryGroup_sound⟩,
    reservedImmediates_sound⟩, binaryGroup_sound⟩, compactGroup_sound⟩, shortMemoryGroup_sound⟩,
    branchGroup_sound⟩, extendedGroup_sound⟩, longMemoryGroup_sound⟩

end Encoding

/-! ## Decoded instructions -/

/-- Every encoding yields a valid instruction. -/
theorem decode_valid (word : Half) (ext : Word) : (decode word ext).insn.Valid := by
  simp only [decode, decodeWith]
  split
  · rename_i row hrow
    have haccepts : row.accepts word = true := by simpa using List.find?_some hrow
    exact Encoding.table_sound row (List.mem_of_find?_eq_some hrow) _ _ haccepts
  · exact Insn.valid_unknown

theorem MemRef.text_ok {mem : MemRef} (h : mem.isNamed) (mnemonic : String) :
    ∃ t, mem.text mnemonic = .ok t := by
  obtain ⟨base, offset, tiny⟩ := mem
  cases base <;> cases offset <;> simp_all [MemRef.text, MemRef.isNamed]

/-- A valid instruction has a text. -/
theorem Decoded.text_ok {d : Decoded} (h : d.insn.Valid) : ∃ t, d.text = .ok t := by
  have hn := h.isNamed
  unfold Decoded.text
  split <;> rename_i hd <;> try exact ⟨_, rfl⟩
  -- what is left has a memory reference
  all_goals
    rw [hd] at hn
    have href := MemRef.text_ok (hn _ rfl)
  · rename_i op _ _
    obtain ⟨t, ht⟩ := href op.mnemonic
    simp [ht, bind, Except.bind, pure, Except.pure]
  · exact href "inv32"
  all_goals
    obtain ⟨t, ht⟩ := href "mem32"
    simp [ht, bind, Except.bind, pure, Except.pure]

theorem decode_text_ok (word : Half) (ext : Word) : ∃ t, (decode word ext).text = .ok t :=
  Decoded.text_ok (decode_valid word ext)

end TypedCore
