import TypedCore.Proofs.Encoding.Agreement
import TypedCore.Proofs.Execution.Step
import TypedCore.Proofs.Memory.Routing

/-!
# Frame accesses and alignment

A compact load or store moves a word at `$fp` or `$sp` plus a displacement, which
stands in fields B and A without the bit that selects the register. That bit
is cleared before the fields are read in ones' complement, so the complement
of a negative field has it set: a displacement above zero is a multiple of
four, and one below zero is two more than a multiple of four
(`Encoding.frameOffset_emod`).

An access raises `unaligned` exactly where its address is not a multiple of its
width (`MemOp.unaligned_iff`), whatever the model, the mode and the windows.
So with aligned frame registers every frame access above the register gets
past the alignment check, and none below it does.
-/

namespace TypedCore

/-! ## Unaligned accesses -/

namespace Platform

variable {p q : Platform} {mode : Mode} {addr value : Word} {width : Width}
  {use : Word → Effects} {effects : Effects}

theorem loadThen_cause_aligned (huse : ∀ v, (use v).cause = .none)
    (hal : width.isAligned addr = true) (h : p.loadThen mode addr width use = (effects, q)) :
    effects.cause ≠ .unaligned := by
  rcases loadThen_cases h with ⟨v, -, rfl⟩ | ⟨fault, hread, rfl⟩
  · show (use v).cause ≠ .unaligned
    rw [huse v]
    decide
  · rw [load_fault_aligned hal hread]
    exact (by decide : Access.read.violation ≠ .unaligned)

theorem storeLow_cause_aligned (hal : width.isAligned addr = true)
    (h : p.storeLow mode addr width value = (effects, q)) : effects.cause ≠ .unaligned := by
  rcases storeLow_cases h with ⟨-, rfl⟩ | ⟨fault, hwrite, rfl⟩
  · exact (by decide : Cause.none ≠ .unaligned)
  · rw [write_fault_aligned hal hwrite]
    exact (by decide : Cause.memoryViolation ≠ .unaligned)

theorem loadThen_unaligned (hal : width.isAligned addr = false) :
    p.loadThen mode addr width use = (.fault ⟨.unaligned, addr⟩, p) := by
  rw [loadThen, read, load_unaligned hal]

theorem storeLow_unaligned (hal : width.isAligned addr = false) :
    p.storeLow mode addr width value = (.fault ⟨.unaligned, addr⟩, p) := by
  rw [storeLow, write_unaligned hal]

end Platform

section Memory

variable {op : MemOp} {reg : Nat} {mem : MemRef} {s : State} {p : Platform} {addr : Word}

/-- A load or store at an address that is not aligned does nothing but raise the cause. -/
theorem executeMemory_unaligned (haddr : mem.resolve s.regs = .ok addr)
    (hal : op.width.isAligned addr = false) :
    executeMemory op reg mem s p = .ok (.fault ⟨.unaligned, addr⟩, p) := by
  unfold executeMemory
  rw [haddr]
  cases op with
  | load | loadLinked => exact congrArg Except.ok (Platform.loadThen_unaligned hal)
  | store | storeConditional => exact congrArg Except.ok (Platform.storeLow_unaligned hal)

theorem executeMemory_aligned (haddr : mem.resolve s.regs = .ok addr)
    (hal : op.width.isAligned addr = true) :
    ∃ effects q, executeMemory op reg mem s p = .ok (effects, q) ∧
      effects.cause ≠ .unaligned := by
  unfold executeMemory
  rw [haddr]
  cases op with
  | load | loadLinked => exact ⟨_, _, rfl, Platform.loadThen_cause_aligned (fun _ => rfl) hal rfl⟩
  | store | storeConditional => exact ⟨_, _, rfl, Platform.storeLow_cause_aligned hal rfl⟩

end Memory

/-! ## Displacements -/

/-- An address at a displacement from an aligned one is as far from an aligned one as
the displacement is from a multiple of four. -/
theorem Width.isAligned_word_add {base : Word} (h : Width.word.isAligned base = true) (d : Int) :
    Width.word.isAligned (base + BitVec.ofInt 32 d) = true ↔ d % 4 = 0 := by
  simp only [isAligned, bytes, beq_iff_eq, BitVec.toNat_add, BitVec.toNat_ofInt] at h ⊢
  omega

namespace Encoding

/-- The displacement of a compact load or store, in bytes. -/
def frameOffset (w : Half) : Int := onesComplement 8 (w.fieldB * 16 + w.fieldA / 2 * 2) * 2

variable (w : Half)

/-- A displacement above zero is a multiple of four. The bit that is cleared before the
fields are read is set in the complement, which puts one below zero between two of them. -/
theorem frameOffset_emod :
    frameOffset w % 4 = (if w.fieldB < 8 then 0 else 2) ∧ (0 ≤ frameOffset w ↔ w.fieldB < 8) := by
  have hB := w.fieldB_lt
  have hA := w.fieldA_lt
  unfold frameOffset onesComplement
  simp only [Nat.shiftLeft_eq]
  split <;> split <;> omega

end Encoding

/-! ## Frame accesses -/

/-- The word of a compact load or store. -/
structure Half.IsFrameAccess (w : Half) : Prop where
  fieldC : w.fieldC = 12 ∨ w.fieldC = 13
  fieldB : w.fieldB ≠ 15
  fieldA : w.fieldA ≠ 15
  fieldD : w.fieldD ≠ 15

/-- `$fp` and `$sp` hold addresses of words. -/
def State.FrameAligned (s : State) : Prop :=
  Width.word.isAligned (s.regs.read 12).value = true ∧
    Width.word.isAligned (s.regs.read 13).value = true

/-- The address that a compact load or store uses. -/
def State.frameAddr (s : State) (w : Half) : Word :=
  (s.regs.read (12 + w.fieldA % 2)).value + BitVec.ofInt 32 (Encoding.frameOffset w)

variable {w : Half} {s : State}

theorem decode_frameAccess (h : w.IsFrameAccess) (x : Word) :
    ∃ op : MemOp, op.width = .word ∧
      (decode w x).insn = .memory op w.fieldD (Encoding.frameRef w) := by
  have hB := Half.fieldB_lt_15 h.fieldB
  have hA := Half.fieldA_lt_15 h.fieldA
  have hD := Half.fieldD_lt_15 h.fieldD
  have hlisted : ∀ op len, Listing.Tiny w.fieldC w.fieldB w.fieldA w.fieldD len
      (.memory op w.fieldD (Listing.tinyRef w.fieldB w.fieldA)) →
      (decode w x).insn = .memory op w.fieldD (Encoding.frameRef w) := by
    intro op len htiny
    rw [Listing.tinyRef_eq]
    exact (decode_of_listed (.tiny htiny)).1
  obtain hC | hC := h.fieldC
  · exact ⟨.store .word, rfl, hlisted _ 2 (hC ▸ .store hB hA hD)⟩
  · exact ⟨.load .word false, rfl, hlisted _ 2 (hC ▸ .load hB hA hD)⟩

theorem resolve_frameRef (w : Half) (s : State) :
    (Encoding.frameRef w).resolve s.regs = .ok (s.frameAddr w) := rfl

theorem State.FrameAligned.isAligned_iff (h : s.FrameAligned) (w : Half) :
    Width.word.isAligned (s.frameAddr w) = true ↔ w.fieldB < 8 := by
  have hbase : Width.word.isAligned (s.regs.read (12 + w.fieldA % 2)).value = true := by
    obtain hbit | hbit := Nat.mod_two_eq_zero_or_one w.fieldA
    · exact hbit ▸ h.1
    · exact hbit ▸ h.2
  rw [frameAddr, Width.isAligned_word_add hbase, (Encoding.frameOffset_emod w).1]
  split <;> omega

/-- With aligned frame registers, an access above the register gets past the alignment
check, and one below it only raises the cause. -/
theorem frameAccess_execute (h : w.IsFrameAccess) (hs : s.FrameAligned) (x : Word)
    (p : Platform) :
    (w.fieldB < 8 → ∃ effects q, (decode w x).insn.execute s p = .ok (effects, q) ∧
      effects.cause ≠ .unaligned) ∧
    (8 ≤ w.fieldB → (decode w x).insn.execute s p =
      .ok (.fault ⟨.unaligned, s.frameAddr w⟩, p)) := by
  obtain ⟨op, hop, hinsn⟩ := decode_frameAccess h x
  have haligned := hs.isAligned_iff w
  rw [← hop] at haligned
  rw [hinsn]
  refine ⟨fun hlow => executeMemory_aligned (resolve_frameRef w s) (haligned.mpr hlow),
    fun hhigh => executeMemory_unaligned (resolve_frameRef w s) ?_⟩
  exact Bool.eq_false_iff.mpr fun hal => absurd (haligned.mp hal) (Nat.not_lt.mpr hhigh)

namespace Machine

/-- Compact loads and stores with aligned frame registers, in every mode and on every model.
The displacement is a multiple of four exactly if it is not negative, which is if field B
is below 8; else it is two more than such a multiple, and the access does not happen:
the instruction raises `unaligned` at the address it would have used. -/
theorem frameAccess_aligned (w : Half) (h : w.IsFrameAccess) :
    (∀ x, ∃ op : MemOp, op.width = .word ∧ (decode w x).insn = .memory op w.fieldD
      ⟨some (12 + w.fieldA % 2), some (BitVec.ofInt 32 (Encoding.frameOffset w)), true⟩) ∧
    Encoding.frameOffset w % 4 = (if w.fieldB < 8 then 0 else 2) ∧
    (0 ≤ Encoding.frameOffset w ↔ w.fieldB < 8) ∧
    (∀ x (s : State) p, s.FrameAligned →
      (w.fieldB < 8 → ∃ effects q, (decode w x).insn.execute s p = .ok (effects, q) ∧
        effects.cause ≠ .unaligned) ∧
      (8 ≤ w.fieldB → (decode w x).insn.execute s p =
        .ok (.fault ⟨.unaligned, s.frameAddr w⟩, p))) ∧
    ∀ (m : Machine) x, m.insn? = some (decode w x).insn → m.state.FrameAligned →
      (m.raised = .unaligned ↔ 8 ≤ w.fieldB) := by
  refine ⟨decode_frameAccess h, (Encoding.frameOffset_emod w).1, (Encoding.frameOffset_emod w).2,
    fun x s p hs => frameAccess_execute h hs x p, fun m x hi hm => ?_⟩
  have ha := m.attempt_of_insn? hi
  have hbegun : m.begun.FrameAligned := hm
  obtain ⟨hlow, hhigh⟩ := frameAccess_execute h hbegun x m.fetched.2
  constructor
  · intro hraised
    refine Nat.le_of_not_lt fun hB => ?_
    obtain ⟨effects, q, hexecute, hcause⟩ := hlow hB
    exact hcause ((raised_eq (ha.trans hexecute)).symm.trans hraised)
  · intro hB
    exact raised_eq (ha.trans (hhigh hB))

/-- A task about to load `$r4` from a word at `$sp + 36`, or at `$fp - 34`. -/
def frameLoad (w : Half) : Machine where
  state := { regs := (RegFile.set {} 12 (.int 512)).set 13 (.int 512) }
  platform :=
    { model := .generic
      bus := { devices := [.ram (Ram.setBytes ⟨0, 4096, ∅⟩ 0 (bytesOfNat 2 w.toNat))] } }
  environment := .operating

theorem frameAccess_aligned_loads :
    (frameLoad 0xd134).raised ≠ .unaligned ∧ (frameLoad 0xdee4).raised = .unaligned := by
  obtain ⟨-, -, -, -, hfp⟩ :=
    frameAccess_aligned 0xdee4 ⟨by decide, by decide, by decide, by decide⟩
  obtain ⟨-, -, -, -, hsp⟩ :=
    frameAccess_aligned 0xd134 ⟨by decide, by decide, by decide, by decide⟩
  have habove := hsp (frameLoad 0xd134) 0 (by decide +kernel)
    ⟨by decide +kernel, by decide +kernel⟩
  have hbelow := hfp (frameLoad 0xdee4) 0 (by decide +kernel)
    ⟨by decide +kernel, by decide +kernel⟩
  exact ⟨fun hraised => absurd (habove.mp hraised) (by decide), hbelow.mpr (by decide)⟩

/-- The displacement of a compact load need not be a multiple of four: that of `0xdee4` is -34,
and the load from an aligned `$fp` raises `unaligned`. -/
theorem frameAccess_below :
    ¬ ∀ w x (m : Machine), w.IsFrameAccess → m.insn? = some (decode w x).insn →
      m.state.FrameAligned → Encoding.frameOffset w % 4 = 0 ∧ m.raised ≠ .unaligned := by
  intro h
  have hload := h 0xdee4 0 (frameLoad 0xdee4) ⟨by decide, by decide, by decide, by decide⟩
    (by decide +kernel) ⟨by decide +kernel, by decide +kernel⟩
  exact hload.2 (by decide +kernel)

end Machine

end TypedCore
