import TypedCore.Proofs.Execution.Shadow
import TypedCore.Proofs.Memory.Routing

/-!
# What a task sees of the machine

In task mode the scheduler's program counter is out of reach, and of the latch a
task sees the cause only by asking for it. `State.forTask` is the state without
these two. Nothing that an instruction of a task computes depends on what is
left out: executing it (`execute_forTask`) and applying its effects
(`apply_forTask`) are the same on both sides, as long as it does not read the
cause register.

The other thing a task cannot see is which device the bus used last, if memory
is apart from the devices.
-/

namespace TypedCore

/-- The state without what belongs to the scheduler: its program counter and the cause. -/
def State.forTask (s : State) : State :=
  { s with spc := 0, nextSpc := 0, latch := { s.latch with ecause := 0 } }

/-! ## Instructions -/

theorem State.pc_forTask {s : State} (hm : s.mode = .task) : s.forTask.pc = s.pc := by
  have hm' : s.forTask.mode = .task := hm
  rw [pc, pc, hm, hm']
  rfl

theorem Insn.execute_forTask (insn : Insn) {s : State} (hm : s.mode = .task) (p : Platform) :
    insn.execute s.forTask p = insn.execute s p := by
  unfold execute
  rw [State.pc_forTask hm]
  rfl

/-! ## Effects -/

namespace State

variable {s : State}

theorem showsRegs_forTask : ShowsRegs forTask :=
  ⟨fun _ => rfl, fun _ => rfl, fun _ _ _ => rfl⟩

theorem setNextPc_forTask (hm : s.mode = .task) (pc : Word) :
    s.forTask.setNextPc pc = (s.setNextPc pc).forTask := by
  have hm' : s.forTask.mode = .task := hm
  rw [setNextPc, setNextPc, hm, hm']
  rfl

end State

theorem Effects.settle_forTask (e : Effects) {s : State} (hm : s.mode = .task) :
    e.settle s.forTask = (e.settle s).map State.forTask := by
  unfold settle
  rw [State.showsRegs_forTask.writeRegs]
  cases hw : e.writes.foldlM (fun s (w : Nat × TypedWord) => s.writeReg w.1 w.2) s with
  | error fault => rfl
  | ok t =>
      have ht : t.mode = .task := (State.Kept.writeRegs hw).mode.trans hm
      cases hpc : e.nextPc with
      | none => rfl
      | some pc =>
          simp only [Except.map, bind, Except.bind, pure, Except.pure]
          rw [State.setNextPc_forTask ht]
          rfl

/-- What a status register other than the cause reads as does not depend on the cause. -/
theorem Platform.readCsr_other {addr : Word} (haddr : addr.toNat ≠ 2) (p : Platform)
    (l : ExceptionLatch) (mode : Mode) :
    ∃ x : Except HostFault Word, ∀ c, p.readCsr { l with ecause := c } mode addr =
      x.map fun v => (v, { l with ecause := c }) := by
  unfold readCsr ExceptionLatch.read
  split
  case h_5 =>
      split
      case h_3 h => exact absurd h haddr
      case h_1 => exact ⟨.ok 0, fun c => rfl⟩
      case h_2 => exact ⟨.ok 0, fun c => rfl⟩
      case h_4 => exact ⟨.ok l.eaddr, fun c => rfl⟩
      case h_5 => exact ⟨.error (.unimplemented .floatStatusRegister), fun c => rfl⟩
      case h_6 => exact ⟨.error (.unknownCsr addr), fun c => rfl⟩
  all_goals exact ⟨.ok _, fun c => rfl⟩

/-- A write goes the same way whatever the cause is. -/
theorem Platform.writeCsr_other (p : Platform) (l : ExceptionLatch) (addr value : Word) :
    ∃ x : Except HostFault (Platform × ExceptionLatch), ∀ c, ∃ c',
      p.writeCsr { l with ecause := c } addr value =
        x.map fun r => (r.1, { r.2 with ecause := c' }) := by
  unfold writeCsr ExceptionLatch.write
  split
  case h_5 =>
      split
      case h_1 => exact ⟨.ok (p, l), fun c => ⟨c, rfl⟩⟩
      case h_2 => exact ⟨.ok (p, l), fun c => ⟨c, rfl⟩⟩
      case h_3 => exact ⟨.ok (p, l), fun c => ⟨value, rfl⟩⟩
      case h_4 => exact ⟨.ok (p, { l with eaddr := value }), fun c => ⟨c, rfl⟩⟩
      case h_5 =>
          exact ⟨.error (.unimplemented .floatStatusRegister), fun c => ⟨c, rfl⟩⟩
      case h_6 => exact ⟨.error (.unknownCsr addr), fun c => ⟨c, rfl⟩⟩
  all_goals exact ⟨.ok (_, l), fun c => ⟨c, rfl⟩⟩

/-- The outcome of applying effects, as a task sees it. -/
def taskOutcome (r : Except HostFault (State × Platform)) : Except HostFault (State × Platform) :=
  r.map fun x => (x.1.forTask, x.2)

theorem CsrAccess.apply_forTask {access : CsrAccess}
    (hcause : ∀ rd addr, access = .read rd addr → addr.toNat ≠ 2) (s : State) (p : Platform) :
    taskOutcome (access.apply s.forTask p) = taskOutcome (access.apply s p) := by
  cases access with
  | read rd addr =>
      obtain ⟨x, hx⟩ := Platform.readCsr_other (hcause rd addr rfl) p s.latch s.mode
      have hread : p.readCsr s.latch s.mode addr = x.map fun v => (v, s.latch) :=
        hx s.latch.ecause
      have hread' : p.readCsr s.forTask.latch s.forTask.mode addr =
          x.map fun v => (v, s.forTask.latch) := hx 0
      unfold apply
      dsimp only
      rw [hread, hread']
      cases x with
      | error e => rfl
      | ok v =>
          have hwrite : s.forTask.writeReg rd ⟨v, (s.forTask.regs.read rd).type⟩ =
              (s.writeReg rd ⟨v, (s.regs.read rd).type⟩).map State.forTask :=
            State.showsRegs_forTask.writeReg s rd ⟨v, (s.regs.read rd).type⟩
          simp only [Except.map, bind, Except.bind, pure, Except.pure]
          rw [hwrite]
          cases s.writeReg rd ⟨v, (s.regs.read rd).type⟩ <;> rfl
  | write addr value =>
      obtain ⟨x, hx⟩ := Platform.writeCsr_other p s.latch addr value
      obtain ⟨c, hc⟩ := hx s.latch.ecause
      obtain ⟨c', hc'⟩ := hx 0
      have hwrite : p.writeCsr s.latch addr value = _ := hc
      have hwrite' : p.writeCsr s.forTask.latch addr value = _ := hc'
      unfold apply
      dsimp only
      rw [hwrite, hwrite']
      cases x <;> rfl

namespace Effects

variable {e : Effects} {s t : State}

theorem apply_forTask (hm : s.mode = .task)
    (hcause : ∀ rd addr, e.csr = some (.read rd addr) → addr.toNat ≠ 2) (p : Platform) :
    taskOutcome (e.apply s.forTask p) = taskOutcome (e.apply s p) := by
  cases hc : e.cause.isRaised with
  | true =>
      rw [apply_raised hc, apply_raised hc]
      rfl
  | false =>
      rw [apply_quiet hc, apply_quiet hc, settle_forTask e hm]
      cases e.settle s with
      | error fault => rfl
      | ok u =>
          cases hcsr : e.csr with
          | none => rfl
          | some access =>
              exact CsrAccess.apply_forTask (fun rd addr h => hcause rd addr (hcsr.trans (h ▸ rfl)))
                u p

/-- Effects come to the same for states that a task cannot tell apart. -/
theorem apply_congr (hm : s.mode = .task) (hst : s.forTask = t.forTask)
    (hcause : ∀ rd addr, e.csr = some (.read rd addr) → addr.toNat ≠ 2) (p : Platform) :
    taskOutcome (e.apply s p) = taskOutcome (e.apply t p) := by
  have ht : t.mode = .task := (congrArg State.mode hst).symm.trans hm
  rw [← apply_forTask hm hcause, hst, apply_forTask ht hcause]

theorem apply_error_congr {p : Platform} {fault : HostFault} (hm : s.mode = .task)
    (hst : s.forTask = t.forTask)
    (hcause : ∀ rd addr, e.csr = some (.read rd addr) → addr.toNat ≠ 2)
    (h : e.apply s p = .error fault) : e.apply t p = .error fault := by
  have hsame := apply_congr hm hst hcause p
  rw [h] at hsame
  cases ht : e.apply t p with
  | error fault' =>
      rw [ht] at hsame
      rw [show fault' = fault from (Except.error.inj hsame).symm]
  | ok r => rw [ht] at hsame; cases hsame

theorem apply_ok_congr {p q : Platform} {s' : State} (hm : s.mode = .task)
    (hst : s.forTask = t.forTask)
    (hcause : ∀ rd addr, e.csr = some (.read rd addr) → addr.toNat ≠ 2)
    (h : e.apply s p = .ok (s', q)) :
    ∃ t', e.apply t p = .ok (t', q) ∧ s'.forTask = t'.forTask := by
  have hsame := apply_congr hm hst hcause p
  rw [h] at hsame
  cases ht : e.apply t p with
  | error fault => rw [ht] at hsame; cases hsame
  | ok r =>
      rw [ht] at hsame
      obtain ⟨hstate, hq⟩ := Prod.mk.inj (Except.ok.inj hsame)
      have hq' : q = r.2 := hq
      exact ⟨r.1, by rw [hq'], hstate⟩

end Effects

end TypedCore
