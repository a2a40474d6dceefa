import TypedCore.Machine
import TypedCore.Proofs.Protection.Windows

/-!
# Applying effects

Effects are applied in two parts. The first, `Effects.settle`, is about the
processor alone: registers and shadow change, and everything that an
instruction cannot change by itself is `Kept`. The second is the access to a
status register, which is the only place where the exception latch and the
protection windows are written.

What a status register does is said through what lies behind it: the latch
after an access is a function of the register's number, `afterRead` and
`afterWrite`, and so are the windows, `Windows.write`. A write reaches one of
the two, never both.
-/

namespace TypedCore

/-! ## Register writes -/

namespace State

variable {s t : State}

/-- A register write changes registers and marks, and nothing else. -/
theorem writeReg_eq {i : Nat} {r : TypedWord} (h : s.writeReg i r = .ok t) :
    ∃ regs dirty, t = { s with regs, dirty } := by
  unfold writeReg RegFile.write at h
  split at h
  · exact ⟨_, _, (Except.ok.inj h).symm⟩
  · cases h

theorem writeRegs_eq {writes : List (Nat × TypedWord)}
    (h : writes.foldlM (fun s (w : Nat × TypedWord) => s.writeReg w.1 w.2) s = .ok t) :
    ∃ regs dirty, t = { s with regs, dirty } := by
  induction writes generalizing s with
  | nil =>
      obtain rfl := Except.ok.inj h
      exact ⟨s.regs, s.dirty, rfl⟩
  | cons w ws ih =>
      rw [List.foldlM_cons] at h
      cases hw : s.writeReg w.1 w.2 with
      | error e => rw [hw] at h; cases h
      | ok u =>
          rw [hw] at h
          obtain ⟨regs, dirty, rfl⟩ := ih (s := u) h
          obtain ⟨_, _, rfl⟩ := writeReg_eq hw
          exact ⟨regs, dirty, rfl⟩

/-- A view of states that shows the registers and their marks, and has nothing to do with them
otherwise. -/
structure ShowsRegs (view : State → State) : Prop where
  regs (s : State) : (view s).regs = s.regs
  dirty (s : State) : (view s).dirty = s.dirty
  update (s : State) (regs : RegFile) (dirty : BitVec 16) :
    view { s with regs, dirty } = { view s with regs, dirty }

namespace ShowsRegs

variable {view : State → State}

theorem writeReg (hv : ShowsRegs view) (s : State) (i : Nat) (r : TypedWord) :
    (view s).writeReg i r = (s.writeReg i r).map view := by
  unfold State.writeReg
  rw [hv.regs, hv.dirty]
  cases s.regs.write i r with
  | error e => rfl
  | ok result => exact congrArg Except.ok (hv.update s _ _).symm

theorem writeRegs (hv : ShowsRegs view) (writes : List (Nat × TypedWord)) (s : State) :
    writes.foldlM (fun (s : State) (w : Nat × TypedWord) => s.writeReg w.1 w.2) (view s) =
      (writes.foldlM (fun (s : State) (w : Nat × TypedWord) => s.writeReg w.1 w.2) s).map
        view := by
  induction writes generalizing s with
  | nil => rfl
  | cons w ws ih =>
      rw [List.foldlM_cons, List.foldlM_cons, hv.writeReg]
      cases s.writeReg w.1 w.2 with
      | error e => rfl
      | ok t => exact ih t

end ShowsRegs

end State

/-! ## What an instruction keeps -/

/-- Two states that differ at most in registers and shadow. -/
structure State.Kept (s t : State) : Prop where
  spc : t.spc = s.spc
  tpc : t.tpc = s.tpc
  mode : t.mode = s.mode
  cause : t.cause = s.cause
  faultAddr : t.faultAddr = s.faultAddr
  latch : t.latch = s.latch

namespace State.Kept

variable {s t u : State}

theorem refl (s : State) : s.Kept s := ⟨rfl, rfl, rfl, rfl, rfl, rfl⟩

theorem trans (h₁ : s.Kept t) (h₂ : t.Kept u) : s.Kept u where
  spc := h₂.spc.trans h₁.spc
  tpc := h₂.tpc.trans h₁.tpc
  mode := h₂.mode.trans h₁.mode
  cause := h₂.cause.trans h₁.cause
  faultAddr := h₂.faultAddr.trans h₁.faultAddr
  latch := h₂.latch.trans h₁.latch

theorem writeReg {i : Nat} {r : TypedWord} (h : s.writeReg i r = .ok t) : s.Kept t := by
  obtain ⟨regs, dirty, rfl⟩ := writeReg_eq h
  exact ⟨rfl, rfl, rfl, rfl, rfl, rfl⟩

theorem writeRegs {writes : List (Nat × TypedWord)}
    (h : writes.foldlM (fun s (w : Nat × TypedWord) => s.writeReg w.1 w.2) s = .ok t) :
    s.Kept t := by
  obtain ⟨regs, dirty, rfl⟩ := writeRegs_eq h
  exact ⟨rfl, rfl, rfl, rfl, rfl, rfl⟩

theorem setNextPc (s : State) (pc : Word) : s.Kept (s.setNextPc pc) := by
  unfold State.setNextPc
  split <;> exact ⟨rfl, rfl, rfl, rfl, rfl, rfl⟩

end State.Kept

/-! ## The two parts of applying effects -/

namespace Effects

variable {e : Effects} {s t : State} {p : Platform}

/-- The state once registers and shadow have what the effects ask for. -/
def settle (e : Effects) (s : State) : Except HostFault State := do
  let s ← e.writes.foldlM (fun s (i, r) => s.writeReg i r) s
  let s := match e.nextPc with
    | some pc => s.setNextPc pc
    | none => s
  return { s with nextTpc := e.nextTpc.getD s.nextTpc, nextMode := e.nextMode.getD s.nextMode }

theorem settle_kept (h : e.settle s = .ok t) : s.Kept t := by
  unfold settle at h
  cases hw : e.writes.foldlM (fun s (w : Nat × TypedWord) => s.writeReg w.1 w.2) s with
  | error fault => rw [hw] at h; cases h
  | ok u =>
      rw [hw] at h
      obtain rfl := Except.ok.inj h
      have hnext : u.Kept (match e.nextPc with | some pc => u.setNextPc pc | none => u) := by
        split
        · exact .setNextPc u _
        · exact .refl u
      exact ((State.Kept.writeRegs hw).trans hnext).trans ⟨rfl, rfl, rfl, rfl, rfl, rfl⟩

/-- A raised cause takes the place of every other effect. -/
theorem apply_raised (hc : e.cause.isRaised = true) (s : State) (p : Platform) :
    e.apply s p = .ok ({ s with cause := e.cause, faultAddr := e.faultAddr }, p) := by
  simp [apply, hc, pure, Except.pure]

/-- Without a cause, the status register comes after everything else. -/
theorem apply_quiet (hc : e.cause.isRaised = false) (s : State) (p : Platform) :
    e.apply s p = (e.settle s).bind fun t =>
      match e.csr with
      | some access => access.apply t p
      | none => .ok (t, p) := by
  unfold apply settle
  rw [hc]
  cases e.writes.foldlM (fun s (w : Nat × TypedWord) => s.writeReg w.1 w.2) s with
  | error fault => rfl
  | ok u => rfl

end Effects

/-! ## Status registers -/

/-- Without a cause there is nothing to latch. -/
theorem State.latched_quiet {s : State} (hc : s.cause = .none) : s.latched = s.latch := by
  unfold latched
  rw [hc]
  rfl

namespace ExceptionLatch

/-- The latch after a read of a status register: reading the cause clears it. -/
def afterRead (l : ExceptionLatch) (addr : Word) : ExceptionLatch :=
  if addr.toNat = 2 then { l with ecause := 0 } else l

/-- The latch after a write of a status register. -/
def afterWrite (l : ExceptionLatch) (addr value : Word) : ExceptionLatch :=
  if addr.toNat = 2 then { l with ecause := value }
  else if addr.toNat = 3 then { l with eaddr := value }
  else l

end ExceptionLatch

namespace Platform

variable {p q : Platform} {l l' : ExceptionLatch} {mode : Mode} {addr value v : Word}

/-- A status register is one of a window, or one of the latch. -/
theorem readCsr_cases (h : p.readCsr l mode addr = .ok (v, l')) :
    (0x80 ≤ addr.toNat ∧ addr.toNat ≤ 0x83 ∧ l' = l) ∨ l.read mode addr = .ok (some (v, l')) := by
  unfold readCsr at h
  split at h
  case h_5 =>
      right
      cases hread : l.read mode addr with
      | error e => rw [hread] at h; cases h
      | ok result =>
          rw [hread] at h
          cases result with
          | none => cases h
          | some result => exact congrArg _ (congrArg _ (Except.ok.inj h))
  all_goals
    rename_i haddr
    exact .inl ⟨by omega, by omega, (Prod.mk.inj (Except.ok.inj h)).2.symm⟩

theorem writeCsr_cases (h : p.writeCsr l addr value = .ok (q, l')) :
    (0x80 ≤ addr.toNat ∧ addr.toNat ≤ 0x83 ∧ l' = l ∧
        q = p.withWindows (p.windows.write addr value)) ∨
      (q = p ∧ l.write addr value = .ok (some l')) := by
  unfold writeCsr at h
  split at h
  case h_5 =>
      right
      cases hwrite : l.write addr value with
      | error e => rw [hwrite] at h; cases h
      | ok result =>
          rw [hwrite] at h
          cases result with
          | none => cases h
          | some result =>
              obtain ⟨rfl, rfl⟩ := Prod.mk.inj (Except.ok.inj h)
              exact ⟨rfl, rfl⟩
  all_goals
    rename_i haddr
    obtain ⟨rfl, rfl⟩ := Prod.mk.inj (Except.ok.inj h)
    exact .inl ⟨by omega, by omega, rfl, by simp [Windows.write, haddr, windows, withWindows]⟩

theorem readCsr_latch (h : p.readCsr l mode addr = .ok (v, l')) : l' = l.afterRead addr := by
  unfold ExceptionLatch.afterRead
  rcases readCsr_cases h with ⟨hlow, -, rfl⟩ | h
  · rw [if_neg (by omega)]
  · unfold ExceptionLatch.read at h
    split at h <;> simp_all

theorem writeCsr_latch (h : p.writeCsr l addr value = .ok (q, l')) :
    l' = l.afterWrite addr value := by
  unfold ExceptionLatch.afterWrite
  rcases writeCsr_cases h with ⟨hlow, -, rfl, -⟩ | ⟨-, h⟩
  · rw [if_neg (by omega), if_neg (by omega)]
  · unfold ExceptionLatch.write at h
    split at h <;> simp_all

theorem readCsr_cause (haddr : addr.toNat = 2) :
    p.readCsr l mode addr =
      .ok (if mode.isTask then l.ecause ||| ExceptionLatch.taskFlag else l.ecause,
        { l with ecause := 0 }) := by
  unfold readCsr ExceptionLatch.read
  rw [haddr]
  cases p.model <;> rfl

theorem readCsr_faultAddr (haddr : addr.toNat = 3) :
    p.readCsr l mode addr = .ok (l.eaddr, l) := by
  unfold readCsr ExceptionLatch.read
  rw [haddr]
  cases p.model <;> rfl

/-- The two registers of the latch can be written on every model. -/
theorem writeCsr_own (haddr : addr.toNat = 2 ∨ addr.toNat = 3) :
    p.writeCsr l addr value = .ok (p, l.afterWrite addr value) := by
  unfold writeCsr ExceptionLatch.write ExceptionLatch.afterWrite
  rcases haddr with haddr | haddr <;> rw [haddr] <;> cases p.model <;> rfl

/-- On the windowed model a write goes to one of the windows or to the latch. -/
theorem writeCsr_windowed (hm : p.model = .windowed) (l : ExceptionLatch) (addr value : Word) :
    p.writeCsr l addr value =
      if 0x80 ≤ addr.toNat ∧ addr.toNat ≤ 0x83 then
        .ok (p.withWindows (p.windows.write addr value), l)
      else
        (l.write addr value).bind fun
          | some l => .ok (p, l)
          | none => .error (.unknownCsr addr) := by
  obtain ⟨model, bus, inst, data⟩ := p
  obtain rfl : model = .windowed := hm
  unfold writeCsr
  split
  case h_5 hx₁ hx₂ hx₃ hx₄ =>
      have hother : ¬ (0x80 ≤ addr.toNat ∧ addr.toNat ≤ 0x83) := by
        intro h
        have h₁ : addr.toNat ≠ 0x80 := fun h => hx₁ rfl h
        have h₂ : addr.toNat ≠ 0x81 := fun h => hx₂ rfl h
        have h₃ : addr.toNat ≠ 0x82 := fun h => hx₃ rfl h
        have h₄ : addr.toNat ≠ 0x83 := fun h => hx₄ rfl h
        omega
      rw [if_neg hother]
      rfl
  all_goals
    rename_i haddr
    rw [if_pos (by omega)]
    unfold Windows.write
    rw [haddr]
    rfl

end Platform

namespace CsrAccess

variable {s t : State} {p q : Platform} {rd : Nat} {addr value : Word}

theorem apply_read (h : (read rd addr).apply s p = .ok (t, q)) :
    q = p ∧ ∃ v, p.readCsr s.latch s.mode addr = .ok (v, s.latch.afterRead addr) ∧
      { s with latch := s.latch.afterRead addr }.writeReg rd ⟨v, (s.regs.read rd).type⟩ =
        .ok t := by
  unfold apply at h
  cases hread : p.readCsr s.latch s.mode addr with
  | error e => simp [hread, bind, Except.bind] at h
  | ok result =>
      obtain ⟨v, latch⟩ := result
      obtain rfl := Platform.readCsr_latch hread
      cases hwrite : { s with latch := s.latch.afterRead addr }.writeReg rd
          ⟨v, (s.regs.read rd).type⟩ with
      | error e => simp [hread, hwrite, bind, Except.bind] at h
      | ok u =>
          simp [hread, hwrite, bind, Except.bind, pure, Except.pure] at h
          obtain ⟨rfl, rfl⟩ := h
          exact ⟨rfl, v, rfl, hwrite⟩

theorem apply_write (h : (write addr value).apply s p = .ok (t, q)) :
    t = { s with latch := s.latch.afterWrite addr value } ∧
      p.writeCsr s.latch addr value = .ok (q, s.latch.afterWrite addr value) := by
  unfold apply at h
  cases hwrite : p.writeCsr s.latch addr value with
  | error e => simp [hwrite, bind, Except.bind] at h
  | ok result =>
      obtain ⟨q', latch⟩ := result
      obtain rfl := Platform.writeCsr_latch hwrite
      simp [hwrite, bind, Except.bind, pure, Except.pure] at h
      obtain ⟨rfl, rfl⟩ := h
      exact ⟨rfl, rfl⟩

theorem apply_write_ok {l : ExceptionLatch} (hwrite : p.writeCsr s.latch addr value = .ok (q, l)) :
    (write addr value).apply s p = .ok ({ s with latch := l }, q) := by
  unfold apply
  dsimp only
  rw [hwrite]
  rfl

/-- A status register that can be read is, into a register that exists. -/
theorem apply_read_ok {l : ExceptionLatch} {v : Word} (hrd : rd < 15)
    (hread : p.readCsr s.latch s.mode addr = .ok (v, l)) :
    ∃ t, (read rd addr).apply s p = .ok (t, p) ∧ (t.regs.read rd).value = v := by
  unfold apply
  simp only [hread, State.writeReg, RegFile.write, hrd, if_true, bind, Except.bind, pure,
    Except.pure]
  exact ⟨_, rfl, by rw [RegFile.read_set, if_pos ⟨rfl, hrd⟩]⟩

/-- An access keeps what an instruction keeps, up to the latch. -/
theorem apply_kept {access : CsrAccess} (h : access.apply s p = .ok (t, q)) :
    { s with latch := t.latch }.Kept t := by
  cases access with
  | read rd addr =>
      obtain ⟨-, v, -, hwrite⟩ := apply_read h
      have hk := State.Kept.writeReg hwrite
      exact ⟨hk.spc, hk.tpc, hk.mode, hk.cause, hk.faultAddr, rfl⟩
  | write addr value =>
      obtain ⟨rfl, -⟩ := apply_write h
      exact .refl _

end CsrAccess

namespace Effects

variable {e : Effects} {s t : State} {p q : Platform}

theorem apply_ok (hc : e.cause.isRaised = false) (h : e.apply s p = .ok (t, q)) :
    ∃ u, e.settle s = .ok u ∧
      match e.csr with
      | some access => access.apply u p = .ok (t, q)
      | none => t = u ∧ q = p := by
  rw [apply_quiet hc] at h
  cases hsettle : e.settle s with
  | error fault => rw [hsettle] at h; cases h
  | ok u =>
      rw [hsettle] at h
      refine ⟨u, rfl, ?_⟩
      cases hcsr : e.csr with
      | some access => rw [hcsr] at h; exact h
      | none =>
          rw [hcsr] at h
          obtain ⟨rfl, rfl⟩ := Prod.mk.inj (Except.ok.inj h)
          exact ⟨rfl, rfl⟩

theorem apply_kept (hc : e.cause.isRaised = false) (h : e.apply s p = .ok (t, q)) :
    { s with latch := t.latch }.Kept t := by
  obtain ⟨u, hsettle, h⟩ := apply_ok hc h
  have hk := settle_kept hsettle
  cases hcsr : e.csr with
  | some access =>
      rw [hcsr] at h
      have ha := CsrAccess.apply_kept h
      exact ⟨ha.spc.trans hk.spc, ha.tpc.trans hk.tpc, ha.mode.trans hk.mode,
        ha.cause.trans hk.cause, ha.faultAddr.trans hk.faultAddr, rfl⟩
  | none =>
      rw [hcsr] at h
      obtain ⟨rfl, -⟩ := h
      exact ⟨hk.spc, hk.tpc, hk.mode, hk.cause, hk.faultAddr, rfl⟩

end Effects

end TypedCore
