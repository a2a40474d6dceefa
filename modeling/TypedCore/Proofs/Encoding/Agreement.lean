import TypedCore.Proofs.Encoding.Lines
import TypedCore.Proofs.Encoding.Order

/-!
# The decoder agrees with the tables

Each line of the tables is read by a row of the decoder, and each row of the
decoder reads a line of the tables or nothing (`table_listed`). As no word belongs
to two rows, the decoder returns what the tables assign, for every word and every
extension.

There is one encoding on which the two differ: the tables do not say what the
field `EXT_C` of an interpolation must be, and the decoder takes none but 0.
-/

namespace TypedCore

/-! ## From rows to lines -/

/-- What a row owes the tables: it reads an instruction that is listed, or nothing. -/
def Template.Listed (t : Template) : Prop :=
  ∀ w x, t.accepts w = true →
    t.build w x = .unknown ∨ ∃ len, TypedCore.Listed (· = 0) w x len (t.build w x)

namespace Listing

open NibblePattern

variable {x : Word} {w : Half} {c b a d len : Nat} {insn : Insn}

theorem Line.listed (h : Line x (· = 0) c b a d len insn) (hC : w.fieldC = c)
    (hB : w.fieldB = b) (hA : w.fieldA = a) (hD : w.fieldD = d) :
    insn = .unknown ∨ ∃ len, Listed (· = 0) w x len insn := by
  subst hC hB hA hD
  exact .inr ⟨len, h⟩

end Listing

namespace Encoding

open Listing NibblePattern Half

variable {w : Half} {x : Word}

theorem interrupt_listed (hC : w.fieldC = 0) (hB : w.fieldB = 0) (hA : w.fieldA = 0)
    (hD : w.fieldD ≤ 7) :
    interrupt w x = .unknown ∨ ∃ len, Listed (· = 0) w x len (interrupt w x) := by
  have hi : ∃ cause, (w.fieldD, cause) ∈ interrupts ∧ interrupt w x = .interrupt cause := by
    unfold interrupt
    generalize w.fieldD = d at hD
    match d, hD with
    | 0, _ | 1, _ | 2, _ | 3, _ | 4, _ | 5, _ | 6, _ | 7, _ => exact ⟨_, by decide, rfl⟩
  obtain ⟨cause, hmem, hi⟩ := hi
  rw [hi]
  exact Line.listed (.alu (.interrupt hmem)) hC hB hA rfl

theorem exceptionGroup_listed : ∀ t ∈ exceptionGroup, t.Listed := by
  simp only [exceptionGroup, List.forall_mem_cons, Template.Listed, Template.accepts_iff,
    accepts_ofNat, accepts_operand]
  refine ⟨?_, ?_, ?_, ?_, ?_, ?_, ?_, ?_, ?_, ?_, ?_, by simp⟩ <;> rintro w x ⟨hC, hB, hA, hD⟩
  iterate 8 exact interrupt_listed hC hB hA (by omega)
  · exact Line.listed (.alu .enterTask) hC hB hA hD
  · exact Line.listed (.alu .waitForInterrupt) hC hB hA hD
  · exact Line.listed (.alu (.fence (fieldD_lt_15 hD))) hC hB hA rfl

theorem moveGroup_listed : ∀ t ∈ moveGroup, t.Listed := by
  simp only [moveGroup, List.forall_mem_cons, Template.Listed, Template.accepts_iff,
    accepts_ofNat, accepts_operand]
  refine ⟨?_, ?_, ?_, ?_, ?_, ?_, ?_, ?_, ?_, ?_, ?_, ?_, by simp⟩ <;>
    rintro w x ⟨hC, hB, hA, hD⟩
  · exact Line.listed (.alu (.jumpReg (fieldD_lt_15 hD))) hC hB hA rfl
  · exact Line.listed (.alu (.jumpRegTask (fieldD_lt_15 hD))) hC hB hA rfl
  · exact Line.listed (.alu (.readPc (fieldD_lt_15 hD))) hC hB hA rfl
  · exact Line.listed (.alu (.readTpc (fieldD_lt_15 hD))) hC hB hA rfl
  · exact Line.listed (.alu (.loadImm (fieldD_lt_15 hD))) hC hB hA rfl
  · exact Line.listed (.alu .jumpImm) hC hB hA hD
  · exact Line.listed (.alu .jumpImmTask) hC hB hA hD
  · rw [← sext16_eq]
    exact Line.listed (.alu (.loadShort (fieldD_lt_15 hD))) hC hB hA rfl
  · rw [← sext16_eq]
    exact Line.listed (.alu .jumpShort) hC hB hA hD
  · rw [← sext16_eq]
    exact Line.listed (.alu .jumpShortTask) hC hB hA hD
  · rw [← oc_four w.fieldA_lt]
    exact Line.listed (.alu (.tinyImm (fieldA_lt_15 hA) (fieldD_lt_15 hD))) hC hB rfl rfl
  · exact Line.listed (.alu (.link (fieldA_lt_15 hA) (fieldD_lt_15 hD))) hC hB rfl rfl

theorem unaryGroup_listed : ∀ t ∈ unaryGroup, t.Listed := by
  simp only [unaryGroup, List.forall_mem_cons, Template.Listed, Template.accepts_iff,
    accepts_ofNat, accepts_operand]
  refine ⟨?_, ?_, ?_, ?_, ?_, ?_, ?_, ?_, ?_, ?_, ?_, ?_, by simp⟩ <;>
    rintro w x ⟨hC, hB, hA, hD⟩
  iterate 9
    exact Line.listed (.alu (.unary (by decide) (fieldA_lt_15 hA) (fieldD_lt_15 hD))) hC hB rfl rfl
  · exact Line.listed (.alu (.setTypeReg (fieldA_lt_15 hA) (fieldD_lt_15 hD))) hC hB rfl rfl
  · exact Line.listed (.alu (.getType (fieldA_lt_15 hA) (fieldD_lt_15 hD))) hC hB rfl rfl
  · exact Line.listed (.alu (.setTypeImm (fieldA_lt_15 hA) (fieldD_lt_15 hD))) hC hB rfl rfl

theorem reservedImmediates_listed : ∀ t ∈ reservedImmediates, t.Listed := by
  simp only [reservedImmediates, List.forall_mem_map, Template.Listed, Template.accepts_iff,
    accepts_ofNat, accepts_operand, accepts_exactly]
  rintro c hc w x ⟨hC, hB, hA, hD⟩
  have hle : c ≤ 11 := by
    simp only [List.mem_cons, List.not_mem_nil, or_false] at hc
    omega
  exact Line.listed (.alu (.reserved hle (fieldD_lt_15 hD))) hC hB hA rfl

theorem binaryGroup_listed : ∀ t ∈ binaryGroup, t.Listed := by
  rw [binaryGroup, List.forall_mem_flatMap]
  intro c hc
  have hsome : ∀ c ∈ [1, 2, 3, 4, 5, 6, 7, 8, 9], (BinaryOp.ofField? c).isSome := by decide
  obtain ⟨op, hop⟩ := Option.isSome_iff_exists.mp (hsome c hc)
  have hmem := mem_binaryOps.mpr hop
  simp only [List.forall_mem_cons, Template.Listed, Template.accepts_iff, accepts_ofNat,
    accepts_operand, accepts_exactly]
  refine ⟨?_, ?_, ?_, by simp⟩ <;> rintro w x ⟨hC, hB, hA, hD⟩
  · have hi : binary w x = .binary op w.fieldD (.reg w.fieldA) w.fieldB := by
      simp [binary, hC, hop, hB, hA]
    rw [hi]
    exact Line.listed (.alu (.binary hmem (fieldB_lt_15 hB) (fieldA_lt_15 hA) (fieldD_lt_15 hD)))
      hC rfl rfl rfl
  · have hi : binary w x = .binary op w.fieldD (.imm x false) w.fieldB := by
      simp [binary, hC, hop, hB, hA]
    rw [hi]
    exact Line.listed (.alu (.binaryImm hmem (fieldB_lt_15 hB) (fieldD_lt_15 hD))) hC rfl hA rfl
  · have hi : binary w x = .binary op w.fieldD (.imm (sext16 x) true) w.fieldA := by
      simp [binary, hC, hop, hB, sext16_eq]
    rw [hi]
    exact Line.listed (.alu (.binaryShort hmem (fieldA_lt_15 hA) (fieldD_lt_15 hD))) hC hB rfl rfl

theorem compactGroup_listed : ∀ t ∈ compactGroup, t.Listed := by
  simp only [compactGroup, List.forall_mem_cons, Template.Listed, Template.accepts_iff,
    accepts_ofNat, accepts_operand]
  refine ⟨?_, ?_, ?_, ?_, ?_, ?_, ?_, by simp⟩ <;> rintro w x ⟨hC, hB, hA, hD⟩
  · exact Line.listed (.alu (.andNot (fieldB_lt_15 hB) (fieldA_lt_15 hA) (fieldD_lt_15 hD)))
      hC rfl rfl rfl
  · exact Line.listed (.alu (.loadTypes (fieldB_lt_15 hB) (fieldD_lt_15 hD))) hC rfl hA rfl
  · have hpattern : x.setWidth 8 = (ext16 x).setWidth 8 := by simp [ext16_eq]
    rw [hpattern]
    exact Line.listed (.alu (.swizzle (fieldA_lt_15 hA) (fieldD_lt_15 hD))) hC hB rfl rfl
  · rw [← oc_four w.fieldA_lt]
    exact Line.listed (.alu (.tinyAdd (fieldB_lt_15 hB) (fieldA_lt_15 hA) (fieldD_lt_15 hD)))
      hC rfl rfl rfl
  · exact Line.listed (.alu (.loadTypesHigh (fieldB_lt_15 hB) (fieldD_lt_15 hD))) hC rfl hA rfl
  · rw [tinyRef_eq]
    exact Line.listed (.tiny (.store (fieldB_lt_15 hB) (fieldA_lt_15 hA) (fieldD_lt_15 hD)))
      hC rfl rfl rfl
  · rw [tinyRef_eq]
    exact Line.listed (.tiny (.load (fieldB_lt_15 hB) (fieldA_lt_15 hA) (fieldD_lt_15 hD)))
      hC rfl rfl rfl

theorem shortMemory_listed (hC : w.fieldC = 14) (hA : w.fieldA ≠ 15) (hD : w.fieldD ≠ 15) :
    shortMemory w x = .unknown ∨ ∃ len, Listed (· = 0) w x len (shortMemory w x) := by
  unfold shortMemory
  split
  · rename_i op hop
    exact Line.listed (.memory (.short (mem_memoryOps.mpr hop) (fieldA_lt_15 hA)
      (fieldD_lt_15 hD))) hC rfl rfl rfl
  · exact .inl rfl

theorem shortMemoryGroup_listed : ∀ t ∈ shortMemoryGroup, t.Listed := by
  rw [shortMemoryGroup, List.forall_mem_append, List.forall_mem_map]
  constructor
  · intro b _ w x h
    obtain ⟨hC, -, hA, hD⟩ := Template.accepts_iff.mp h
    exact shortMemory_listed (accepts_ofNat.mp hC) (ne_of_operand hA) (ne_of_operand hD)
  simp only [List.forall_mem_cons, Template.Listed, Template.accepts_iff, accepts_ofNat,
    accepts_operand]
  refine ⟨?_, ?_, ?_, ?_, ?_, ?_, ?_, by simp⟩ <;> rintro w x ⟨hC, hB, hA, hD⟩
  · exact Line.listed (.memory (.invalidate (fieldA_lt_15 hA))) hC hB rfl hD
  · exact Line.listed (.memory (.jump (fieldA_lt_15 hA))) hC hB rfl hD
  · exact Line.listed (.memory (.jumpTask (fieldA_lt_15 hA))) hC hB rfl hD
  · rw [bulkRef_eq]
    exact Line.listed (.memory (.loadTypes (fieldA_lt_15 hA) (fieldD_lt_15 hD))) hC hB rfl rfl
  · rw [bulkRef_eq]
    exact Line.listed (.memory (.loadTypesHigh (fieldA_lt_15 hA) (fieldD_lt_15 hD))) hC hB rfl rfl
  · rw [bulkRef_eq]
    exact Line.listed (.memory (.storeTypes (fieldA_lt_15 hA) (fieldD_lt_15 hD))) hC hB rfl rfl
  · rw [bulkRef_eq]
    exact Line.listed (.memory (.storeTypesHigh (fieldA_lt_15 hA) (fieldD_lt_15 hD))) hC hB rfl rfl

/-- A code of three bits, with the bit above it, is the code alone or 8 more. -/
theorem eq_code (n : Nat) (hn : n < 16) :
    (decide (8 ≤ n) = false ∧ n = n % 8) ∨ (decide (8 ≤ n) = true ∧ n = 8 + n % 8) := by
  by_cases h : 8 ≤ n
  · exact .inr ⟨by simpa using h, by omega⟩
  · exact .inl ⟨by simpa using h, by omega⟩

theorem zeroBranch_listed (hC : w.fieldC = 0) (hA : w.fieldA ≠ 15) (hD : w.fieldD = 15) :
    zeroBranch w x = .unknown ∨ ∃ len, Listed (· = 0) w x len (zeroBranch w x) := by
  cases hcond : Cond.ofZeroCode? (w.fieldB % 8) with
  | none => exact .inl (by rw [zeroBranch, hcond])
  | some cond =>
      have hmem := mem_zeroConds.mpr hcond
      rw [zeroBranch_eq hmem]
      rcases eq_code w.fieldB w.fieldB_lt with ⟨hall, hB⟩ | ⟨hall, hB⟩ <;> rw [hall]
      · exact Line.listed (.branch (.zero hmem (fieldA_lt_15 hA))) hC hB rfl hD
      · exact Line.listed (.branch (.zeroAll hmem (fieldA_lt_15 hA))) hC hB rfl hD

theorem regBranch_listed (hB : w.fieldB ≠ 15) (hA : w.fieldA ≠ 15) (hD : w.fieldD = 15) :
    regBranch w x = .unknown ∨ ∃ len, Listed (· = 0) w x len (regBranch w x) := by
  cases hcond : Cond.ofRegCode? (w.fieldC % 8) with
  | none => exact .inl (by rw [regBranch, hcond])
  | some selected =>
      have hmem := mem_regConds.mpr hcond
      rw [regBranch_eq hmem]
      rcases eq_code w.fieldC w.fieldC_lt with ⟨hall, hC⟩ | ⟨hall, hC⟩ <;> rw [hall]
      · exact Line.listed (.branch (.reg hmem (fieldB_lt_15 hB) (fieldA_lt_15 hA))) hC rfl rfl hD
      · exact Line.listed (.branch (.regAll hmem (fieldB_lt_15 hB) (fieldA_lt_15 hA))) hC rfl rfl hD

theorem bitBranch_listed (hBA : w.fieldB = 15 ∧ w.fieldA ≠ 15 ∨ w.fieldB ≠ 15 ∧ w.fieldA = 15)
    (hD : w.fieldD = 15) :
    bitBranch w x = .unknown ∨ ∃ len, Listed (· = 0) w x len (bitBranch w x) := by
  cases hbit : testedBits[w.fieldC]? with
  | none => exact .inl (by rw [bitBranch, hbit])
  | some bit =>
      have hmem := mem_testBits.mpr hbit
      rcases hBA with ⟨hB, hA⟩ | ⟨hB, hA⟩
      · have hi : bitBranch w x = .bitBranch w.fieldA bit true (unmunge x) := by
          simp [bitBranch, hbit, hB, unmunge_eq]
        rw [hi]
        exact Line.listed (.branch (.bitSet hmem (fieldA_lt_15 hA))) rfl hB rfl hD
      · have hi : bitBranch w x = .bitBranch w.fieldB bit false (unmunge x) := by
          simp [bitBranch, hbit, hB, unmunge_eq]
        rw [hi]
        exact Line.listed (.branch (.bitClear hmem (fieldB_lt_15 hB))) rfl rfl hA hD

theorem branchGroup_listed : ∀ t ∈ branchGroup, t.Listed := by
  rw [branchGroup, List.forall_mem_append, List.forall_mem_append, List.forall_mem_map,
    List.forall_mem_map, List.forall_mem_flatMap]
  refine ⟨⟨?_, ?_⟩, ?_⟩
  · intro b _ w x h
    obtain ⟨hC, -, hA, hD⟩ := Template.accepts_iff.mp h
    exact zeroBranch_listed (accepts_ofNat.mp hC) (ne_of_operand hA) (accepts_ofNat.mp hD)
  · intro c _ w x h
    obtain ⟨-, hB, hA, hD⟩ := Template.accepts_iff.mp h
    exact regBranch_listed (ne_of_operand hB) (ne_of_operand hA) (accepts_ofNat.mp hD)
  · intro c _
    simp only [List.forall_mem_cons]
    refine ⟨?_, ?_, by simp⟩ <;> intro w x h <;>
      obtain ⟨-, hB, hA, hD⟩ := Template.accepts_iff.mp h
    · exact bitBranch_listed (.inl ⟨accepts_ofNat.mp hB, ne_of_operand hA⟩) (accepts_ofNat.mp hD)
    · exact bitBranch_listed (.inr ⟨ne_of_operand hB, accepts_ofNat.mp hA⟩) (accepts_ofNat.mp hD)

theorem fullMul_listed (hC : w.fieldC = 15) (hB : w.fieldB ≤ 1) (hD : w.fieldD = 15) :
    fullMul w x = .unknown ∨ ∃ len, Listed (· = 0) w x len (fullMul w x) := by
  by_cases hok : extD x = 15 ∨ extA x = 15 ∨ extB x = 15 ∨ 1 < extC x
  · exact .inl (by simp only [fullMul, ofExt_eq, if_pos hok])
  · have hd := extD_lt x
    have ha := extA_lt x
    have hb := extB_lt x
    rw [fullMul_eq hB (by omega) (by omega) (by omega) (by omega)]
    have hc : extC x = 0 ∨ extC x = 1 := by omega
    rcases hc with hc | hc
    · rw [hc]
      exact Line.listed (.extended (.fullMulSigned hB w.fieldA_lt hc (by omega) (by omega)
        (by omega))) hC rfl rfl hD
    · rw [hc]
      exact Line.listed (.extended (.fullMul hB w.fieldA_lt hc (by omega) (by omega)
        (by omega))) hC rfl rfl hD

theorem laneCompare_listed (hC : w.fieldC = 15) (hB : w.fieldB = 15) (hA : w.fieldA = 0)
    (hD : w.fieldD = 15) :
    laneCompare w x = .unknown ∨ ∃ len, Listed (· = 0) w x len (laneCompare w x) := by
  have hd := extD_lt x
  have ha := extA_lt x
  have hb := extB_lt x
  unfold laneCompare
  simp only [ofExt_eq]
  split
  · exact .inl rfl
  · split
    · rename_i hc
      split
      · rename_i cond hcond
        exact Line.listed (.extended (.compareZero (mem_zeroConds.mpr hcond) hc (by omega)
          (by omega))) hC hB hA hD
      · exact .inl rfl
    · split
      · exact .inl rfl
      · split
        · rename_i cond signed hcond
          exact Line.listed (.extended (.compare (mem_regConds.mpr hcond) (by omega) (by omega)
            (by omega))) hC hB hA hD
        · exact .inl rfl

theorem interpolate_listed (hC : w.fieldC = 15) (hB : w.fieldB = 15) (hA : w.fieldA = 1)
    (hD : w.fieldD = 15) :
    interpolate w x = .unknown ∨ ∃ len, Listed (· = 0) w x len (interpolate w x) := by
  have hd := extD_lt x
  have ha := extA_lt x
  have hb := extB_lt x
  unfold interpolate
  simp only [ofExt_eq]
  split
  · exact .inl rfl
  · exact Line.listed (.extended (.interpolate (by omega) (by omega) (by omega) (by omega)))
      hC hB hA hD

theorem extendedGroup_listed : ∀ t ∈ extendedGroup, t.Listed := by
  simp only [extendedGroup, List.forall_mem_cons, Template.Listed, Template.accepts_iff,
    accepts_ofNat, accepts_operand]
  refine ⟨?_, ?_, ?_, ?_, ?_, ?_, by simp⟩ <;> rintro w x ⟨hC, hB, hA, hD⟩
  · exact Line.listed (.extended (.csrRead (fieldD_lt_15 hD))) hC hB hA rfl
  · exact Line.listed (.extended (.csrWrite (fieldD_lt_15 hD))) hC hB hA rfl
  · exact fullMul_listed hC (by omega) hD
  · exact fullMul_listed hC (by omega) hD
  · exact laneCompare_listed hC hB hA hD
  · exact interpolate_listed hC hB hA hD

theorem longRef_cases (w : Half) (x : Word) :
    (w.fieldA = 15 ∧ longRef w x = .ofAddress x) ∨
      (w.fieldA < 15 ∧ longRef w x = .ofBaseOffset w.fieldA (sext16 x)) := by
  rw [longRef, sext16_eq]
  split
  · exact .inl ⟨‹_›, rfl⟩
  · exact .inr ⟨fieldA_lt_15 ‹_›, rfl⟩

theorem longMemory_listed (hC : w.fieldC = 15) (hB : 8 ≤ w.fieldB) :
    longMemory w x = .unknown ∨ ∃ len, Listed (· = 0) w x len (longMemory w x) := by
  unfold longMemory
  split
  · rename_i hD
    split
    · rename_i hB
      rcases longRef_cases w x with ⟨hA, href⟩ | ⟨hA, href⟩ <;> rw [href]
      · exact Line.listed (.memory .jumpAbsolute) hC hB hA hD
      · exact Line.listed (.memory (.jumpLong hA)) hC hB rfl hD
    · rename_i hB
      rcases longRef_cases w x with ⟨hA, href⟩ | ⟨hA, href⟩ <;> rw [href]
      · exact Line.listed (.memory .jumpAbsoluteTask) hC hB hA hD
      · exact Line.listed (.memory (.jumpLongTask hA)) hC hB rfl hD
    · exact .inl rfl
  · rename_i hD
    split
    · rename_i op hop
      have hlt := w.fieldB_lt
      have hcode : w.fieldB = 8 + w.fieldB % 8 := by omega
      have hmem := mem_longOps.mpr ⟨Nat.mod_lt w.fieldB (by decide), hop⟩
      rcases longRef_cases w x with ⟨hA, href⟩ | ⟨hA, href⟩ <;> rw [href]
      · exact Line.listed (.memory (.absolute hmem (fieldD_lt_15 hD))) hC hcode hA rfl
      · exact Line.listed (.memory (.long hmem hA (fieldD_lt_15 hD))) hC hcode rfl rfl
    · exact .inl rfl

theorem longMemoryGroup_listed : ∀ t ∈ longMemoryGroup, t.Listed := by
  have hrows : ∀ t ∈ longMemoryGroup, t.fieldC = 15 ∧
      ∀ n, t.fieldB.accepts n = true → 8 ≤ n := by
    simp [longMemoryGroup, accepts_exactly, accepts_ofNat]
  intro t ht w x h
  obtain ⟨hC, hB, -, -⟩ := Template.accepts_iff.mp h
  obtain ⟨hrow, hlong⟩ := hrows t ht
  rw [hrow] at hC
  rw [longMemoryGroup_build t ht]
  exact longMemory_listed (accepts_ofNat.mp hC) (hlong _ hB)

theorem table_listed : ∀ t ∈ table, t.Listed := by
  rw [table_eq, List.forall_mem_flatten]
  simp only [groups, List.forall_mem_cons]
  exact ⟨exceptionGroup_listed, moveGroup_listed, unaryGroup_listed, reservedImmediates_listed,
    binaryGroup_listed, compactGroup_listed, shortMemoryGroup_listed, branchGroup_listed,
    extendedGroup_listed, longMemoryGroup_listed, by simp⟩

end Encoding

/-! ## The decoder -/

variable {w : Half} {x : Word} {len : Nat} {insn : Insn}

theorem decode_of_listed (h : Listed (· = 0) w (cutExtension w.insnLength x) len insn) :
    (decode w x).insn = insn ∧ (decode w x).len = len := by
  obtain ⟨t, ht, ha, hi⟩ := h.reads rfl rfl rfl rfl
  exact ⟨(decode_row ht ha).trans hi, w.insnLength_eq.trans h.length⟩

theorem listed_of_decode (w : Half) (x : Word) :
    (decode w x).insn = .unknown ∨
      ∃ len, Listed (· = 0) w (cutExtension w.insnLength x) len (decode w x).insn := by
  cases hfind : Encoding.table.find? (·.accepts w) with
  | none =>
      left
      unfold decode decodeWith
      rw [hfind]
  | some t =>
      have ht := List.mem_of_find?_eq_some hfind
      have ha : t.accepts w = true := by simpa using List.find?_some hfind
      rw [decode_row ht ha]
      exact Encoding.table_listed t ht w _ ha

theorem decode_iff_assigned :
    (decode w x).insn = insn ↔ Assigned (· = 0) w (cutExtension w.insnLength x) insn := by
  constructor
  · rintro rfl
    rcases listed_of_decode w x with hunknown | hlisted
    · by_cases hany : ∃ len other, Listed (· = 0) w (cutExtension w.insnLength x) len other
      · obtain ⟨len, other, hother⟩ := hany
        exact .inl ⟨len, (decode_of_listed hother).1 ▸ hother⟩
      · exact .inr ⟨hunknown, fun len other h => hany ⟨len, other, h⟩⟩
    · exact .inl hlisted
  · rintro (⟨len, hlisted⟩ | ⟨rfl, hnone⟩)
    · exact (decode_of_listed hlisted).1
    · rcases listed_of_decode w x with hunknown | ⟨len, hlisted⟩
      · exact hunknown
      · exact absurd hlisted (hnone len _)

/-- The decoder returns what the tables assign to the fields of a word and to the bits of its
extension that the length rule keeps, with every operand, and nothing with a meaning where they
list nothing; its length is the one in the tables, and its rows may stand in any order. Of the
lane interpolations it knows those with 0 in the field `EXT_C`. -/
theorem decode_agrees (w : Half) (x : Word) :
    (∀ insn, (decode w x).insn = insn ↔
        Assigned (· = 0) w (cutExtension w.insnLength x) insn) ∧
      (∀ len insn, Listed (· = 0) w (cutExtension w.insnLength x) len insn →
        (decode w x).len = len) ∧
      (decode w x).ext = cutExtension w.insnLength x ∧
      w.insnLength = Half.lengthOf w.fieldC w.fieldB w.fieldA w.fieldD ∧
      ∀ rows, rows.Perm Encoding.table → decodeWith rows w x = decode w x :=
  ⟨fun _ => decode_iff_assigned, fun _ _ h => (decode_of_listed h).2, rfl, w.insnLength_eq,
    fun _ h => decodeWith_perm h⟩

/-- A word of the table read with the rows the other way round: a branch on a bit. -/
theorem decode_agrees_reversed :
    decodeWith Encoding.table.reverse 0x3f5f 4 = decode 0x3f5f 4 ∧
      (decode 0x3f5f 4).insn = .bitBranch 5 3 true 8 :=
  ⟨(decode_agrees 0x3f5f 4).2.2.2.2 _ (List.reverse_perm _), by decide +kernel⟩

/-- The tables list a lane interpolation whatever its field `EXT_C` is; the decoder does not. -/
theorem decode_refuses_interpolation :
    ¬ ∀ w x insn, (decode w x).insn = insn ↔
      Assigned (fun _ => True) w (cutExtension w.insnLength x) insn := by
  intro h
  have hline : Listed (fun _ => True) 0xff1f (cutExtension (0xff1f : Half).insnLength 0x1321) 4
      (.interpolate 1 2 3) :=
    .extended (.interpolate trivial (by decide) (by decide) (by decide))
  have hunknown : (decode 0xff1f 0x1321).insn = .unknown := by decide +kernel
  have hdecode := (h 0xff1f 0x1321 (.interpolate 1 2 3)).mpr (.inl ⟨4, hline⟩)
  rw [hunknown] at hdecode
  cases hdecode

end TypedCore
