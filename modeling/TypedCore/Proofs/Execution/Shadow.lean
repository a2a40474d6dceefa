import TypedCore.Proofs.Execution.Step

/-!
# The shadow

An instruction never touches the mode and the program counters themselves. It
works on a shadow of them, and a commit makes the shadow current. This module
follows the shadow through an instruction: `beginInstruction` sets it, effects
move it as far as they say so (`Effects.apply_shadow`), the reaction to a cause
moves little of it, and an interrupt comes after the commit (`Core.Ends.mode`).

Registers and status registers have no part in this, so the operations on them
keep the shadow as a whole.
-/

namespace TypedCore

/-! ## Effects -/

namespace Effects

variable {e : Effects} {s t : State} {p q : Platform}

/-- A state with its shadow moved as effects say. -/
def shadowed (e : Effects) (s : State) : State :=
  let s := match e.nextPc with
    | some pc => s.setNextPc pc
    | none => s
  { s with nextTpc := e.nextTpc.getD s.nextTpc, nextMode := e.nextMode.getD s.nextMode }

@[simp] theorem shadowed_nextMode : (e.shadowed s).nextMode = e.nextMode.getD s.nextMode := by
  unfold shadowed State.setNextPc
  cases e.nextPc with
  | none => rfl
  | some pc => cases hm : s.mode <;> rfl

theorem shadowed_nextSpc_task (hm : s.mode = .task) : (e.shadowed s).nextSpc = s.nextSpc := by
  unfold shadowed State.setNextPc
  rw [hm]
  cases e.nextPc <;> rfl

theorem shadowed_nextSpc (hm : s.mode = .scheduler) :
    (e.shadowed s).nextSpc = e.nextPc.getD s.nextSpc := by
  unfold shadowed State.setNextPc
  rw [hm]
  cases e.nextPc <;> rfl

theorem shadowed_nextTpc (hm : s.mode = .scheduler) :
    (e.shadowed s).nextTpc = e.nextTpc.getD s.nextTpc := by
  unfold shadowed State.setNextPc
  rw [hm]
  cases e.nextPc <;> rfl

theorem settle_eq (h : e.settle s = .ok t) :
    ∃ regs dirty, t = { e.shadowed s with regs, dirty } := by
  unfold settle at h
  cases hw : e.writes.foldlM (fun s (w : Nat × TypedWord) => s.writeReg w.1 w.2) s with
  | error fault => rw [hw] at h; cases h
  | ok u =>
      rw [hw] at h
      obtain ⟨regs, dirty, rfl⟩ := State.writeRegs_eq hw
      refine ⟨regs, dirty, (Except.ok.inj h).symm.trans ?_⟩
      unfold shadowed State.setNextPc
      cases e.nextPc with
      | none => rfl
      | some pc => cases hm : s.mode <;> rfl

end Effects

theorem CsrAccess.apply_eq {access : CsrAccess} {s t : State} {p q : Platform}
    (h : access.apply s p = .ok (t, q)) :
    ∃ regs dirty latch, t = { s with regs, dirty, latch } := by
  cases access with
  | read rd addr =>
      obtain ⟨-, v, -, hwrite⟩ := apply_read h
      obtain ⟨regs, dirty, rfl⟩ := State.writeReg_eq hwrite
      exact ⟨regs, dirty, _, rfl⟩
  | write addr value =>
      obtain ⟨rfl, -⟩ := apply_write h
      exact ⟨s.regs, s.dirty, _, rfl⟩

/-- Without a cause, effects move the shadow as they say, and a status register has no part
in that. -/
theorem Effects.apply_eq {e : Effects} {s t : State} {p q : Platform}
    (hc : e.cause.isRaised = false) (h : e.apply s p = .ok (t, q)) :
    ∃ regs dirty latch, t = { e.shadowed s with regs, dirty, latch } := by
  obtain ⟨u, hsettle, h⟩ := apply_ok hc h
  obtain ⟨regs, dirty, rfl⟩ := settle_eq hsettle
  cases hcsr : e.csr with
  | some access =>
      rw [hcsr] at h
      obtain ⟨regs, dirty, latch, rfl⟩ := CsrAccess.apply_eq h
      exact ⟨regs, dirty, latch, rfl⟩
  | none =>
      rw [hcsr] at h
      obtain ⟨rfl, -⟩ := h
      exact ⟨regs, dirty, _, rfl⟩

/-! ## Reactions -/

namespace State

variable {σ : Type} {s : State} {environment : Environment} {p : Platform} {host : Host σ} {h : σ}

/-- No reaction moves the scheduler's program counter. -/
theorem respond_nextSpc (s : State) (environment : Environment) (p : Platform) (host : Host σ)
    (h : σ) : (s.respond environment p host h).state.nextSpc = s.nextSpc := by
  cases hu : environment.isUser with
  | true =>
      obtain ⟨regs, dirty, nextTpc, ht⟩ := respond_user hu s p host h
      rw [ht]
  | false =>
      cases hm : s.mode with
      | task => rw [respond_task hu hm]
      | scheduler => rw [respond_scheduler hu hm]

/-- Where there is a scheduler, every reaction goes on in scheduler mode, or halts there. -/
theorem respond_scheduled (hu : environment.isUser = false) (hm : s.nextMode = s.mode) :
    (s.respond environment p host h).state = { s with nextMode := .scheduler } ∧
      ∃ halt, (s.respond environment p host h).result = .ok halt := by
  cases hmode : s.mode with
  | task =>
      rw [respond_task hu hmode]
      exact ⟨by rw [hmode], _, rfl⟩
  | scheduler =>
      rw [respond_scheduler hu hmode, ← hmode]
      exact ⟨congrArg (fun nextMode => { s with nextMode }) hm, _, rfl⟩

end State

/-! ## Commits -/

namespace Core.Ends

variable {c d : Core} {halt x : Option Halt}

theorem spc (h : c.Ends halt x d) : d.state.spc = c.state.nextSpc := by
  cases h with
  | halted halt => rfl
  | exited halt bus hexit => rfl
  | interrupted s hexit hpending hs =>
      rw [State.takeInterrupt_eq hs]
      rfl
  | wentOn hexit hs => rfl

theorem tpc (h : c.Ends halt x d) : d.state.tpc = c.state.nextTpc := by
  cases h with
  | halted halt => rfl
  | exited halt bus hexit => rfl
  | interrupted s hexit hpending hs =>
      rw [State.takeInterrupt_eq hs]
      rfl
  | wentOn hexit hs => rfl

/-- The mode is the one of the shadow, unless an interrupt was taken. -/
theorem mode (h : c.Ends halt x d) :
    d.state.mode =
      if c.interruptPending && !d.interruptPending then .scheduler else c.state.nextMode := by
  cases h with
  | halted halt => simp [committed, State.commit]
  | exited halt bus hexit => simp [committed, State.commit]
  | interrupted s hexit hpending hs =>
      rw [State.takeInterrupt_eq hs, hpending]
      rfl
  | wentOn hexit hs => simp [committed, State.commit]

/-- In the user environment no interrupt is taken. -/
theorem mode_user (h : c.Ends halt x d) (hu : c.environment.isUser = true) :
    d.state.mode = c.state.nextMode := by
  have hno : c.state.commit.takeInterrupt c.environment = none := by
    unfold State.takeInterrupt
    rw [hu]
    rfl
  rw [(h.uninterrupted fun _ => hno).2.1]
  rfl

end Core.Ends

end TypedCore
