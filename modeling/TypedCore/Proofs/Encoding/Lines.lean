import TypedCore.Proofs.Encoding.Operands
import TypedCore.Proofs.Encoding.Readings

/-!
# Every line of the tables has a row

For each line of the listing there is a row of the decoder's table that accepts
the word and reads the same instruction (`Line.reads`). Most lines find theirs by
looking through one group of the table; where a line stands for many words, the
row is named by the field that selects it.
-/

namespace TypedCore

/-! ## Patterns -/

namespace NibblePattern

variable {n x : Nat}

theorem accepts_exactly : (exactly n).accepts x = true ↔ x = n := by
  simp [accepts]

theorem accepts_ofNat : (no_index (OfNat.ofNat n) : NibblePattern).accepts x = true ↔ x = n :=
  accepts_exactly

theorem accepts_operand : operand.accepts x = true ↔ x ≠ 15 := by
  simp [accepts]

theorem accepts_register (hx : x < 15) : operand.accepts x = true :=
  accepts_operand.mpr (Nat.ne_of_lt hx)

end NibblePattern

/-! ## From lines to rows -/

namespace Encoding

/-- The groups of the table. -/
def groups : List (List Template) :=
  [exceptionGroup, moveGroup, unaryGroup, reservedImmediates, binaryGroup, compactGroup,
    shortMemoryGroup, branchGroup, extendedGroup, longMemoryGroup]

theorem table_eq : table = groups.flatten := by
  simp only [table, groups, List.flatten_cons, List.flatten_nil, List.append_nil,
    List.append_assoc]

/-- Some row of a group reads an instruction out of a word and its extension. -/
def Reads (rows : List Template) (w : Half) (x : Word) (insn : Insn) : Prop :=
  ∃ t ∈ rows, t.accepts w = true ∧ t.build w x = insn

namespace Reads

variable {w : Half} {x : Word} {insn : Insn}

/-- What a row of a group reads, a row of the table reads. -/
theorem of_group {g : List Template} (hg : g ∈ groups) (h : Reads g w x insn) :
    Reads table w x insn := by
  obtain ⟨t, ht, hread⟩ := h
  exact ⟨t, table_eq ▸ List.mem_flatten.mpr ⟨g, hg, ht⟩, hread⟩

end Reads

end Encoding

namespace Listing

open Encoding NibblePattern

variable {x : Word} {w : Half} {c b a d len : Nat} {insn : Insn}

theorem reads_interrupt {cause : Cause} (h : (w.fieldD, cause) ∈ interrupts) (hC : w.fieldC = 0)
    (hB : w.fieldB = 0) (hA : w.fieldA = 0) : Reads exceptionGroup w x (.interrupt cause) := by
  generalize hD : w.fieldD = d at h
  simp only [interrupts, List.mem_cons, Prod.mk.injEq, List.not_mem_nil, or_false] at h
  rcases h with ⟨rfl, rfl⟩ | ⟨rfl, rfl⟩ | ⟨rfl, rfl⟩ | ⟨rfl, rfl⟩ | ⟨rfl, rfl⟩ | ⟨rfl, rfl⟩ |
      ⟨rfl, rfl⟩ | ⟨rfl, rfl⟩ <;>
    simp [Reads, exceptionGroup, Template.accepts_iff, accepts_ofNat, hC, hB, hA, hD,
      Encoding.interrupt, Cause.ofSwiLevel?]

theorem reads_unary {op : UnaryOp} (h : (w.fieldB, op) ∈ unaryOps) (hC : w.fieldC = 0)
    (hA : w.fieldA < 15) (hD : w.fieldD < 15) :
    Reads unaryGroup w x (.unary op w.fieldD w.fieldA) := by
  generalize hB : w.fieldB = b at h
  simp only [unaryOps, List.mem_cons, Prod.mk.injEq, List.not_mem_nil, or_false] at h
  rcases h with ⟨rfl, rfl⟩ | ⟨rfl, rfl⟩ | ⟨rfl, rfl⟩ | ⟨rfl, rfl⟩ | ⟨rfl, rfl⟩ | ⟨rfl, rfl⟩ |
      ⟨rfl, rfl⟩ | ⟨rfl, rfl⟩ | ⟨rfl, rfl⟩ <;>
    simp [Reads, unaryGroup, Template.accepts_iff, accepts_ofNat, accepts_register, hC, hB, hA, hD,
      Encoding.unary]

/-- A row of binary operations, by what it asks of fields B and A. -/
theorem reads_binary {op : BinaryOp} {B A : NibblePattern} (h : (w.fieldC, op) ∈ binaryOps)
    (hrow : (B, A) ∈ [(operand, operand), (operand, 15), (15, operand)])
    (hB : B.accepts w.fieldB = true) (hA : A.accepts w.fieldA = true) (hD : w.fieldD < 15)
    (hi : Encoding.binary w x = insn) : Reads binaryGroup w x insn := by
  have hc := binaryOps_bounds h
  refine ⟨⟨.exactly w.fieldC, B, A, .operand, Encoding.binary⟩, ?_, ?_, hi⟩
  · refine List.mem_flatMap.mpr ⟨w.fieldC, by simp; omega, ?_⟩
    simp only [List.mem_cons, Prod.mk.injEq, List.not_mem_nil, or_false] at hrow
    rcases hrow with ⟨rfl, rfl⟩ | ⟨rfl, rfl⟩ | ⟨rfl, rfl⟩ <;> simp
  · exact Template.accepts_iff.mpr ⟨accepts_exactly.mpr rfl, hB, hA, accepts_register hD⟩

theorem Alu.reads (h : Alu x c b a d len insn) (hC : w.fieldC = c) (hB : w.fieldB = b)
    (hA : w.fieldA = a) (hD : w.fieldD = d) : Reads table w x insn := by
  cases h with
  | interrupt h => exact .of_group (by simp [groups]) (reads_interrupt (hD ▸ h) hC hB hA)
  | enterTask | waitForInterrupt =>
      apply Reads.of_group (g := exceptionGroup) (by simp [groups])
      simp [Reads, exceptionGroup, Template.accepts_iff, accepts_ofNat, *]
  | fence hd =>
      apply Reads.of_group (g := exceptionGroup) (by simp [groups])
      simp [Reads, exceptionGroup, Template.accepts_iff, accepts_ofNat, accepts_register, *]
  | jumpReg hd | jumpRegTask hd | readPc hd | readTpc hd =>
      apply Reads.of_group (g := moveGroup) (by simp [groups])
      simp [Reads, moveGroup, Template.accepts_iff, accepts_ofNat, accepts_register, *]
  | tinyImm ha hd | link ha hd =>
      have hoc : onesComplement 4 a = oc (BitVec.ofNat 4 a) := (oc_four (by omega)).symm
      apply Reads.of_group (g := moveGroup) (by simp [groups])
      simp [Reads, moveGroup, Template.accepts_iff, accepts_ofNat, accepts_register, *]
  | loadImm hd =>
      apply Reads.of_group (g := moveGroup) (by simp [groups])
      simp [Reads, moveGroup, Template.accepts_iff, accepts_ofNat, accepts_register,
        Encoding.loadImm, *]
  | jumpImm | jumpImmTask =>
      apply Reads.of_group (g := moveGroup) (by simp [groups])
      simp [Reads, moveGroup, Template.accepts_iff, accepts_ofNat, accepts_register, *]
  | loadShort hd | jumpShort | jumpShortTask =>
      apply Reads.of_group (g := moveGroup) (by simp [groups])
      simp [Reads, moveGroup, Template.accepts_iff, accepts_ofNat, accepts_register, sext16_eq, *]
  | unary h ha hd =>
      subst hB hA hD
      exact .of_group (by simp [groups]) (reads_unary h hC ha hd)
  | setTypeReg ha hd | getType ha hd | setTypeImm ha hd =>
      apply Reads.of_group (g := unaryGroup) (by simp [groups])
      simp [Reads, unaryGroup, Template.accepts_iff, accepts_ofNat, accepts_register, *]
  | binary h hb ha hd =>
      subst hC hB hA hD
      refine .of_group (by simp [groups])
        (reads_binary h (by simp) (accepts_register hb) (accepts_register ha) hd ?_)
      simp [Encoding.binary, mem_binaryOps.mp h, Nat.ne_of_lt hb, Nat.ne_of_lt ha]
  | binaryImm h hb hd =>
      subst hC hB hD
      refine .of_group (by simp [groups])
        (reads_binary h (by simp) (accepts_register hb) (accepts_ofNat.mpr hA) hd ?_)
      simp [Encoding.binary, mem_binaryOps.mp h, Nat.ne_of_lt hb, hA]
  | binaryShort h ha hd =>
      subst hC hA hD
      refine .of_group (by simp [groups])
        (reads_binary h (by simp) (accepts_ofNat.mpr hB) (accepts_register ha) hd ?_)
      simp [Encoding.binary, mem_binaryOps.mp h, hB, sext16_eq]
  | reserved hc hd =>
      subst hC
      refine .of_group (g := reservedImmediates) (by simp [groups])
        ⟨_, List.mem_map.mpr ⟨w.fieldC, by simp; omega, rfl⟩, ?_, ?_⟩
      · exact Template.accepts_iff.mpr ⟨accepts_exactly.mpr rfl, accepts_ofNat.mpr hB,
          accepts_ofNat.mpr hA, accepts_register (hD ▸ hd)⟩
      · simp [Encoding.loadImm, hD]
  | andNot hb ha hd | loadTypes hb hd | loadTypesHigh hb hd =>
      apply Reads.of_group (g := compactGroup) (by simp [groups])
      simp [Reads, compactGroup, Template.accepts_iff, accepts_ofNat, accepts_register, *]
  | swizzle ha hd =>
      have hpattern : x.setWidth 8 = (ext16 x).setWidth 8 := by simp [ext16_eq]
      apply Reads.of_group (g := compactGroup) (by simp [groups])
      simp [Reads, compactGroup, Template.accepts_iff, accepts_ofNat, accepts_register, *]
  | tinyAdd hb ha hd =>
      have hoc : onesComplement 4 a = oc (BitVec.ofNat 4 a) := (oc_four (by omega)).symm
      apply Reads.of_group (g := compactGroup) (by simp [groups])
      simp [Reads, compactGroup, Template.accepts_iff, accepts_ofNat, accepts_register, *]

theorem Tiny.reads (h : Tiny c b a d len insn) (hC : w.fieldC = c) (hB : w.fieldB = b)
    (hA : w.fieldA = a) (hD : w.fieldD = d) : Reads table w x insn := by
  have href := tinyRef_eq w
  rw [hB, hA] at href
  apply Reads.of_group (g := compactGroup) (by simp [groups])
  cases h <;>
    simp [Reads, compactGroup, Template.accepts_iff, accepts_ofNat, accepts_register, *]

theorem reads_short {op : MemOp} (h : (w.fieldB, op) ∈ memoryOps ++ atomicOps)
    (hC : w.fieldC = 14) (hA : w.fieldA < 15) (hD : w.fieldD < 15) :
    Reads shortMemoryGroup w x (.memory op w.fieldD (.ofBase w.fieldA)) := by
  have hall : ∀ p ∈ memoryOps ++ atomicOps, p.1 ∈ [0, 1, 2, 3, 4, 5, 6, 7, 8, 9] := by decide
  refine ⟨⟨14, .exactly w.fieldB, .operand, .operand, Encoding.shortMemory⟩, ?_, ?_, ?_⟩
  · exact List.mem_append_left _ (List.mem_map.mpr ⟨w.fieldB, hall _ h, rfl⟩)
  · exact Template.accepts_iff.mpr ⟨accepts_ofNat.mpr hC, accepts_exactly.mpr rfl,
      accepts_register hA, accepts_register hD⟩
  · simp [Encoding.shortMemory, mem_memoryOps.mp h]

/-- A row of long loads and stores, by what it asks of field A. -/
theorem reads_long {op : MemOp} {A : NibblePattern} (h : (b, op) ∈ memoryOps)
    (hrow : A ∈ [operand, 15]) (hC : w.fieldC = 15) (hB : w.fieldB = 8 + b)
    (hA : A.accepts w.fieldA = true) (hD : w.fieldD < 15) :
    Reads longMemoryGroup w x (.memory op w.fieldD (Encoding.longRef w x)) := by
  obtain ⟨hb, hop⟩ := mem_longOps.mp h
  refine ⟨⟨15, .exactly w.fieldB, A, .operand, Encoding.longMemory⟩, ?_, ?_, ?_⟩
  · refine List.mem_append_left _ (List.mem_flatMap.mpr ⟨w.fieldB, by simp; omega, ?_⟩)
    simp only [List.mem_cons, List.not_mem_nil, or_false] at hrow
    rcases hrow with rfl | rfl <;> simp
  · exact Template.accepts_iff.mpr ⟨accepts_ofNat.mpr hC, accepts_exactly.mpr rfl, hA,
      accepts_register hD⟩
  · have hcode : w.fieldB % 8 = b := by omega
    simp [Encoding.longMemory, Nat.ne_of_lt hD, hcode, hop]

theorem Memory.reads (h : Memory x c b a d len insn) (hC : w.fieldC = c) (hB : w.fieldB = b)
    (hA : w.fieldA = a) (hD : w.fieldD = d) : Reads table w x insn := by
  cases h with
  | short h ha hd =>
      subst hB hA hD
      exact .of_group (by simp [groups]) (reads_short h hC ha hd)
  | invalidate ha | jump ha | jumpTask ha =>
      apply Reads.of_group (g := shortMemoryGroup) (by simp [groups])
      simp [Reads, shortMemoryGroup, Template.accepts_iff, accepts_ofNat, accepts_register, *]
  | loadTypes ha hd | loadTypesHigh ha hd | storeTypes ha hd | storeTypesHigh ha hd =>
      have href := bulkRef_eq w
      rw [hD, hA] at href
      apply Reads.of_group (g := shortMemoryGroup) (by simp [groups])
      simp [Reads, shortMemoryGroup, Template.accepts_iff, accepts_ofNat, accepts_register, *]
  | long h ha hd =>
      subst hA hD
      have href : Encoding.longRef w x = .ofBaseOffset w.fieldA (sext16 x) := by
        rw [Encoding.longRef, if_neg (Nat.ne_of_lt ha), sext16_eq]
      exact .of_group (by simp [groups])
        (href ▸ reads_long h (by simp) hC hB (accepts_register ha) hd)
  | absolute h hd =>
      subst hD
      have href : Encoding.longRef w x = .ofAddress x := by
        rw [Encoding.longRef, if_pos hA]
      exact .of_group (by simp [groups])
        (href ▸ reads_long h (by simp) hC hB (accepts_ofNat.mpr hA) hd)
  | jumpLong ha | jumpLongTask ha =>
      apply Reads.of_group (g := longMemoryGroup) (by simp [groups])
      simp [Reads, longMemoryGroup, Template.accepts_iff, accepts_ofNat, accepts_register,
        Encoding.longMemory, Encoding.longRef, sext16_eq, Nat.ne_of_lt ha, *]
  | jumpAbsolute | jumpAbsoluteTask =>
      apply Reads.of_group (g := longMemoryGroup) (by simp [groups])
      simp [Reads, longMemoryGroup, Template.accepts_iff, accepts_ofNat, Encoding.longMemory,
        Encoding.longRef, *]

theorem zeroBranch_eq {cond : Cond} (h : (w.fieldB % 8, cond) ∈ zeroConds) :
    Encoding.zeroBranch w x =
      .branch ⟨cond, true, w.fieldA, none, w.fieldA⟩ (decide (8 ≤ w.fieldB)) (unmunge x) := by
  rw [Encoding.zeroBranch, mem_zeroConds.mp h, unmunge_eq]

theorem regBranch_eq {cond : Cond} {signed : Bool} (h : (w.fieldC % 8, cond, signed) ∈ regConds) :
    Encoding.regBranch w x =
      .branch ⟨cond, signed, w.fieldB, some w.fieldA, w.fieldA⟩ (decide (8 ≤ w.fieldC))
        (unmunge x) := by
  rw [Encoding.regBranch, mem_regConds.mp h, unmunge_eq]

/-- A code of three bits as it stands in a field: 8 more ask for every lane. -/
def laneCode (allLanes : Bool) (code : Nat) : Nat := if allLanes then 8 + code else code

theorem laneCode_parts {n code : Nat} {allLanes : Bool} (hcode : code < 8)
    (hn : n = laneCode allLanes code) : n % 8 = code ∧ decide (8 ≤ n) = allLanes := by
  subst hn
  cases allLanes with
  | false => exact ⟨Nat.mod_eq_of_lt hcode, decide_eq_false (Nat.not_le.mpr hcode)⟩
  | true =>
      have hle : 8 ≤ laneCode true code := Nat.le_add_right 8 code
      exact ⟨(Nat.add_mod_left 8 code).trans (Nat.mod_eq_of_lt hcode), decide_eq_true hle⟩

theorem reads_zeroBranch {cond : Cond} {allLanes : Bool} (h : (b, cond) ∈ zeroConds)
    (hC : w.fieldC = 0) (hB : w.fieldB = laneCode allLanes b) (hA : w.fieldA < 15)
    (hD : w.fieldD = 15) :
    Reads table w x (.branch ⟨cond, true, w.fieldA, none, w.fieldA⟩ allLanes (unmunge x)) := by
  have hbound : ∀ p ∈ zeroConds, p.1 ≤ 5 := by decide
  have hb : b ≤ 5 := hbound _ h
  have hlt := w.fieldB_lt
  obtain ⟨rfl, rfl⟩ := laneCode_parts (by omega) hB
  refine .of_group (g := branchGroup) (by simp [groups])
    ⟨⟨0, .exactly w.fieldB, .operand, 15, Encoding.zeroBranch⟩, ?_, ?_, zeroBranch_eq h⟩
  · refine List.mem_append_left _ (List.mem_append_left _ (List.mem_map.mpr ⟨w.fieldB, ?_, rfl⟩))
    simp only [List.mem_cons, List.not_mem_nil, or_false]
    omega
  · exact Template.accepts_iff.mpr ⟨accepts_ofNat.mpr hC, accepts_exactly.mpr rfl,
      accepts_register hA, accepts_ofNat.mpr hD⟩

theorem reads_regBranch {cond : Cond} {signed allLanes : Bool} (h : (c, cond, signed) ∈ regConds)
    (hC : w.fieldC = laneCode allLanes c) (hB : w.fieldB < 15) (hA : w.fieldA < 15)
    (hD : w.fieldD = 15) :
    Reads table w x
      (.branch ⟨cond, signed, w.fieldB, some w.fieldA, w.fieldA⟩ allLanes (unmunge x)) := by
  have hbound : ∀ p ∈ regConds, 1 ≤ p.1 ∧ p.1 ≤ 6 := by decide
  have hc : 1 ≤ c ∧ c ≤ 6 := hbound _ h
  have hlt := w.fieldC_lt
  obtain ⟨rfl, rfl⟩ := laneCode_parts (by omega) hC
  refine .of_group (g := branchGroup) (by simp [groups])
    ⟨⟨.exactly w.fieldC, .operand, .operand, 15, Encoding.regBranch⟩, ?_, ?_, regBranch_eq h⟩
  · refine List.mem_append_left _ (List.mem_append_right _ (List.mem_map.mpr ⟨w.fieldC, ?_, rfl⟩))
    simp only [List.mem_cons, List.not_mem_nil, or_false]
    omega
  · exact Template.accepts_iff.mpr ⟨accepts_exactly.mpr rfl, accepts_register hB,
      accepts_register hA, accepts_ofNat.mpr hD⟩

/-- A row of bit tests, by what it asks of fields B and A. -/
theorem reads_bitBranch {B A : NibblePattern} {bit : Nat} (h : (w.fieldC, bit) ∈ testBits)
    (hrow : (B, A) ∈ [(15, operand), (operand, 15)]) (hB : B.accepts w.fieldB = true)
    (hA : A.accepts w.fieldA = true) (hD : w.fieldD = 15) :
    Reads table w x (Encoding.bitBranch w x) := by
  have hall : ∀ p ∈ testBits, p.1 ∈ [0, 1, 2, 3, 4, 5, 6, 7, 8, 9, 10, 11, 12, 13, 14] := by decide
  refine .of_group (g := branchGroup) (by simp [groups])
    ⟨⟨.exactly w.fieldC, B, A, 15, Encoding.bitBranch⟩, ?_, ?_, rfl⟩
  · refine List.mem_append_right _ (List.mem_flatMap.mpr ⟨w.fieldC, hall _ h, ?_⟩)
    simp only [List.mem_cons, Prod.mk.injEq, List.not_mem_nil, or_false] at hrow
    rcases hrow with ⟨rfl, rfl⟩ | ⟨rfl, rfl⟩ <;> simp
  · exact Template.accepts_iff.mpr ⟨accepts_exactly.mpr rfl, hB, hA, accepts_ofNat.mpr hD⟩

theorem Branch.reads (h : Branch x c b a d len insn) (hC : w.fieldC = c) (hB : w.fieldB = b)
    (hA : w.fieldA = a) (hD : w.fieldD = d) : Reads table w x insn := by
  cases h with
  | zero h ha | zeroAll h ha =>
      subst hA
      exact reads_zeroBranch h hC hB ha hD
  | reg h hb ha | regAll h hb ha =>
      subst hB hA
      exact reads_regBranch h hC hb ha hD
  | @bitSet _ _ bit h ha =>
      subst hC hA
      have hi : Encoding.bitBranch w x = .bitBranch w.fieldA bit true (unmunge x) := by
        simp [Encoding.bitBranch, mem_testBits.mp h, hB, unmunge_eq]
      rw [← hi]
      exact reads_bitBranch h (by simp) (accepts_ofNat.mpr hB) (accepts_register ha) hD
  | @bitClear _ _ bit h hb =>
      subst hC hB
      have hi : Encoding.bitBranch w x = .bitBranch w.fieldB bit false (unmunge x) := by
        simp [Encoding.bitBranch, mem_testBits.mp h, Nat.ne_of_lt hb, unmunge_eq]
      rw [← hi]
      exact reads_bitBranch h (by simp) (accepts_register hb) (accepts_ofNat.mpr hA) hD

theorem shift_eq (w : Half) (hB : w.fieldB ≤ 1) :
    w.toNat / 16 % 32 = w.fieldB * 16 + w.fieldA := by
  have heq := w.toNat_eq_fields
  have hA := w.fieldA_lt
  have hD := w.fieldD_lt
  omega

/-- The full multiply of a word that is one, by what the field `EXT_C` says. -/
theorem fullMul_eq (hB : w.fieldB ≤ 1) (hc : extC x ≤ 1) (hD : extD x < 15) (hA : extA x < 15)
    (hBx : extB x < 15) :
    Encoding.fullMul w x =
      .fullMul (extD x) (extA x) (extB x) (w.fieldB * 16 + w.fieldA) (extC x == 0) := by
  have hok : ¬ (extD x = 15 ∨ extA x = 15 ∨ extB x = 15 ∨ 1 < extC x) := by omega
  simp only [Encoding.fullMul, ofExt_eq, shift_eq w hB, if_neg hok]

theorem reads_fullMul (hC : w.fieldC = 15) (hB : w.fieldB ≤ 1) (hD : w.fieldD = 15)
    (hi : Encoding.fullMul w x = insn) : Reads extendedGroup w x insn := by
  have hb : w.fieldB = 0 ∨ w.fieldB = 1 := by omega
  rcases hb with hb | hb <;>
    simp [Reads, extendedGroup, Template.accepts_iff, NibblePattern.accepts, *]

theorem reads_laneCompare (hC : w.fieldC = 15) (hB : w.fieldB = 15) (hA : w.fieldA = 0)
    (hD : w.fieldD = 15) (hi : Encoding.laneCompare w x = insn) : Reads extendedGroup w x insn :=
  ⟨⟨15, 15, 0, 15, Encoding.laneCompare⟩, by simp [extendedGroup],
    Template.accepts_iff.mpr ⟨accepts_ofNat.mpr hC, accepts_ofNat.mpr hB, accepts_ofNat.mpr hA,
      accepts_ofNat.mpr hD⟩, hi⟩

theorem Extended.reads (h : Extended x (· = 0) c b a d len insn) (hC : w.fieldC = c)
    (hB : w.fieldB = b) (hA : w.fieldA = a) (hD : w.fieldD = d) : Reads table w x insn := by
  apply Reads.of_group (g := extendedGroup) (by simp [groups])
  cases h with
  | fullMulSigned hb ha hc hd hax hbx =>
      subst hB hA
      refine reads_fullMul hC hb hD ?_
      rw [fullMul_eq hb (by omega) hd hax hbx, hc]
      rfl
  | fullMul hb ha hc hd hax hbx =>
      subst hB hA
      refine reads_fullMul hC hb hD ?_
      rw [fullMul_eq hb (by omega) hd hax hbx, hc]
      rfl
  | compareZero h hc hd hax =>
      refine reads_laneCompare hC hB hA hD ?_
      have hok : ¬ (extD x = 15 ∨ extA x = 15) := by omega
      simp only [Encoding.laneCompare, ofExt_eq, if_neg hok, if_pos hc, mem_zeroConds.mp h]
  | @compare cond signed h hd hax hbx =>
      refine reads_laneCompare hC hB hA hD ?_
      have hall : ∀ p ∈ regConds, p.1 ≠ 0 := by decide
      have hc : extC x ≠ 0 := hall _ h
      have hok : ¬ (extD x = 15 ∨ extA x = 15) := by omega
      simp only [Encoding.laneCompare, ofExt_eq, if_neg hok, if_neg hc, if_neg (Nat.ne_of_lt hbx),
        mem_regConds.mp h]
  | interpolate hc hd hax hbx =>
      have hok : ¬ (extC x ≠ 0 ∨ extD x = 15 ∨ extA x = 15 ∨ extB x = 15) := by omega
      have hi : Encoding.interpolate w x = .interpolate (extD x) (extA x) (extB x) := by
        simp only [Encoding.interpolate, ofExt_eq, if_neg hok]
      exact ⟨⟨15, 15, 1, 15, Encoding.interpolate⟩, by simp [extendedGroup],
        Template.accepts_iff.mpr ⟨accepts_ofNat.mpr hC, accepts_ofNat.mpr hB, accepts_ofNat.mpr hA,
          accepts_ofNat.mpr hD⟩, hi⟩
  | csrRead hd | csrWrite hd =>
      simp [Reads, extendedGroup, Template.accepts_iff, accepts_ofNat, accepts_register, *]

/-- Every line of the tables is read by a row. -/
theorem Line.reads (h : Line x (· = 0) c b a d len insn) (hC : w.fieldC = c) (hB : w.fieldB = b)
    (hA : w.fieldA = a) (hD : w.fieldD = d) : Reads table w x insn := by
  cases h with
  | alu h => exact h.reads hC hB hA hD
  | tiny h => exact h.reads hC hB hA hD
  | memory h => exact h.reads hC hB hA hD
  | branch h => exact h.reads hC hB hA hD
  | extended h => exact h.reads hC hB hA hD

end Listing

end TypedCore
