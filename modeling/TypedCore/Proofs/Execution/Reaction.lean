import TypedCore.Proofs.Execution.Apply

/-!
# The reaction to a cause

What `State.respond` does, one lemma for each way it can go. Only a system call
in the user environment involves the host; all other reactions are a halt or the
change to scheduler mode.

Whatever the reaction is, it works on registers and shadow alone: mode, program
counters, cause and latch are `Kept`.
-/

namespace TypedCore.State

variable {σ : Type} {s : State} {environment : Environment} {p q : Platform} {host : Host σ} {h : σ}

/-! ## The ways to react -/

theorem respond_syscall (hu : environment.isUser = true) (hc : s.cause = .syscall) :
    s.respond environment p host h = s.syscall p host h := by
  unfold respond
  rw [if_pos hu, if_pos hc]

theorem respond_fatal (hu : environment.isUser = true) (hc : s.cause ≠ .syscall) :
    s.respond environment p host h = ⟨.ok (some (.bySignal s.cause.signal)), s, p, h⟩ := by
  unfold respond
  rw [if_pos hu, if_neg hc]

theorem respond_task (hu : environment.isUser = false) (hm : s.mode = .task) :
    s.respond environment p host h = ⟨.ok none, { s with nextMode := .scheduler }, p, h⟩ := by
  unfold respond
  rw [hu, if_neg Bool.false_ne_true, hm]

theorem respond_scheduler (hu : environment.isUser = false) (hm : s.mode = .scheduler) :
    s.respond environment p host h = ⟨.ok (some (.bySignal .trap)), s, p, h⟩ := by
  unfold respond
  rw [hu, if_neg Bool.false_ne_true, hm]

/-- A call whose number cannot be fetched ends the run as that fetch would have. -/
theorem syscall_unfetched {fault : MemFault}
    (hf : p.fetchHalf .task (s.tpc.even + 2) = (.error fault, q)) :
    s.syscall p host h = ⟨.ok (some (.bySignal fault.cause.signal)), s, q, h⟩ := by
  unfold syscall
  dsimp only
  rw [hf]

/-- What the delivery of a reply leaves behind. -/
def delivered (s : State) (p : Platform) (reply : SyscallReply) (h : σ) : Response σ :=
  match s.deliver p reply with
  | .ok (halt, s, p) => ⟨.ok halt, s, p, h⟩
  | .error e => ⟨.error e, s, p, h⟩

/-- The arguments of a call. -/
def callArgs (s : State) : SyscallArgs :=
  ⟨(s.regs.read resultReg).value, (s.regs.read (resultReg + 1)).value,
    (s.regs.read (resultReg + 2)).value⟩

/-- Any other call is serviced, and the task goes on behind its number. -/
theorem syscall_fetched {number : Half}
    (hf : p.fetchHalf .task (s.tpc.even + 2) = (.ok number, q)) :
    s.syscall p host h =
      match q.service host (Syscall.ofNumber? number.toNat) s.callArgs h with
      | (.error e, p, h) => ⟨.error e, { s with nextTpc := s.tpc.even + 4 }, p, h⟩
      | (.ok reply, p, h) => { s with nextTpc := s.tpc.even + 4 }.delivered p reply h := by
  unfold syscall
  dsimp only
  rw [hf]
  rfl

/-! ## What every reaction keeps -/

/-- A reply is at most one register write, as far as the processor is concerned. -/
theorem deliver_writes {reply : SyscallReply} {halt : Option Halt} {t : State}
    (hd : s.deliver p reply = .ok (halt, t, q)) :
    t = s ∨ ∃ r, s.writeReg resultReg r = .ok t := by
  unfold deliver at hd
  cases reply with
  | halt x =>
      obtain ⟨-, rfl, -⟩ := Except.ok.inj hd
      exact .inl rfl
  | value v =>
      dsimp only at hd
      cases hw : s.writeReg resultReg (.int v) with
      | error e => rw [hw] at hd; cases hd
      | ok u =>
          rw [hw] at hd
          cases hd
          exact .inr ⟨_, hw⟩
  | failed ret errno =>
      dsimp only at hd
      cases hw : s.writeReg resultReg (.int ret) with
      | error e => rw [hw] at hd; cases hd
      | ok u =>
          simp only [hw, bind, Except.bind, pure, Except.pure] at hd
          split at hd
          · cases hd
            exact .inr ⟨_, hw⟩
          · split at hd <;> cases hd <;> exact .inr ⟨_, hw⟩

/-- A system call goes on behind its number, with the reply in a register. -/
theorem syscall_writes (s : State) (p : Platform) (host : Host σ) (h : σ) :
    ∃ nextTpc, (s.syscall p host h).state = { s with nextTpc } ∨
      ∃ r, { s with nextTpc }.writeReg resultReg r = .ok (s.syscall p host h).state := by
  unfold syscall
  dsimp only
  split
  · exact ⟨s.nextTpc, .inl rfl⟩
  · split
    · exact ⟨_, .inl rfl⟩
    · split
      · rename_i hd
        exact ⟨_, deliver_writes hd⟩
      · exact ⟨_, .inl rfl⟩

/-- Whatever the reaction, it moves the shadow and writes at most one register. -/
theorem respond_writes (s : State) (environment : Environment) (p : Platform) (host : Host σ)
    (h : σ) :
    ∃ nextTpc nextMode,
      (s.respond environment p host h).state = { s with nextTpc, nextMode } ∨
        ∃ r, { s with nextTpc, nextMode }.writeReg resultReg r =
          .ok (s.respond environment p host h).state := by
  cases hu : environment.isUser with
  | true =>
      by_cases hc : s.cause = .syscall
      · rw [respond_syscall hu hc]
        obtain ⟨nextTpc, ht⟩ := syscall_writes s p host h
        exact ⟨nextTpc, s.nextMode, ht⟩
      · rw [respond_fatal hu hc]
        exact ⟨s.nextTpc, s.nextMode, .inl rfl⟩
  | false =>
      cases hm : s.mode with
      | task =>
          rw [respond_task hu hm]
          exact ⟨s.nextTpc, .scheduler, .inl (by rw [hm])⟩
      | scheduler =>
          rw [respond_scheduler hu hm]
          exact ⟨s.nextTpc, s.nextMode, .inl (by rw [← hm])⟩

/-- A reaction of the user environment is that of the host: to write registers, and to move
the task's program counter. -/
theorem respond_user (hu : environment.isUser = true) (s : State) (p : Platform) (host : Host σ)
    (h : σ) :
    ∃ regs dirty nextTpc,
      (s.respond environment p host h).state = { s with regs, dirty, nextTpc } := by
  by_cases hc : s.cause = .syscall
  · rw [respond_syscall hu hc]
    obtain ⟨nextTpc, ht | ⟨r, hw⟩⟩ := syscall_writes s p host h
    · exact ⟨s.regs, s.dirty, nextTpc, ht⟩
    · obtain ⟨regs, dirty, ht⟩ := writeReg_eq hw
      exact ⟨regs, dirty, nextTpc, ht⟩
  · rw [respond_fatal hu hc]
    exact ⟨s.regs, s.dirty, s.nextTpc, rfl⟩

/-- A reaction changes nothing of the processor but registers and shadow. -/
theorem respond_kept (s : State) (environment : Environment) (p : Platform) (host : Host σ)
    (h : σ) :
    s.Kept (s.respond environment p host h).state := by
  obtain ⟨nextTpc, nextMode, ht | ⟨r, hw⟩⟩ := respond_writes s environment p host h
  · rw [ht]
    exact ⟨rfl, rfl, rfl, rfl, rfl, rfl⟩
  · have hk := Kept.writeReg hw
    exact ⟨hk.spc, hk.tpc, hk.mode, hk.cause, hk.faultAddr, hk.latch⟩

/-- Where there is a scheduler, a reaction does not involve memory. -/
theorem respond_platform (hu : environment.isUser = false) :
    (s.respond environment p host h).platform = p := by
  cases hm : s.mode with
  | task => rw [respond_task hu hm]
  | scheduler => rw [respond_scheduler hu hm]

/-- A reaction that lets the run go on leaves no room for an interrupt: there is no
scheduler to take it, or it is the scheduler that goes on. -/
theorem respond_untaken (hr : (s.respond environment p host h).result = .ok none) :
    (s.respond environment p host h).state.commit.takeInterrupt environment = none := by
  unfold takeInterrupt
  cases hu : environment.isUser with
  | true => rfl
  | false =>
      cases hm : s.mode with
      | task =>
          rw [respond_task hu hm]
          rfl
      | scheduler =>
          rw [respond_scheduler hu hm] at hr
          cases hr

/-! ## Interrupts -/

theorem takeInterrupt_eq {t : State} (hs : s.takeInterrupt environment = some t) :
    t = { s with cause := .hardwareInterrupt, faultAddr := none }.setMode .scheduler := by
  unfold takeInterrupt at hs
  split at hs
  · cases hs
  · exact (Option.some.inj hs).symm

/-- Environments with a scheduler take interrupts alike. -/
theorem takeInterrupt_congr {e₁ e₂ : Environment} (s : State) (hu₁ : e₁.isUser = false)
    (hu₂ : e₂.isUser = false) : s.takeInterrupt e₁ = s.takeInterrupt e₂ := by
  unfold takeInterrupt
  rw [hu₁, hu₂]

end TypedCore.State
