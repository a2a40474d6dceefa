import TypedCore.Machine.Rehearsal
import TypedCore.Proofs.Execution.Step

/-!
# Precise exceptions

An instruction that raises a cause leaves no trace but the cause. Three facts
carry this. Fetching changes nothing but the bus's note of the last device;
executing an instruction that raises a cause changes no more than that
(`Insn.execute_raised`); and the cause takes the place of every other effect, so
that the reaction starts from `Machine.raisedState`, where registers and both
program counters are the ones from before.

What the reaction adds is a halt or a change of mode. The one exception is a
system call of the user environment: the host services it, it ends like the call
of a function, and it is left out here. Only where not even its number can be
fetched does the host never see it, and then it is as precise as any other fault.
-/

namespace TypedCore

/-! ## System calls -/

namespace Machine

variable {σ : Type} (m : Machine)

/-- The number behind the next instruction, if that is a system call. -/
def callNumber : Except MemFault Half :=
  (m.fetched.2.fetchHalf .task (m.state.tpc.even + 2)).1

/-- The next instruction is a system call that the host gets to see. -/
def CallReachesHost : Prop :=
  m.environment.isUser = true ∧ m.raised = .syscall ∧ ∃ number, m.callNumber = .ok number

/-! ## What the cause replaces -/

variable {m} {effects : Effects} {p : Platform}

/-- An instruction that raises a cause has only been looked for in memory. -/
theorem attempt_raised (ha : m.attempt = .ok (effects, p)) (hc : effects.cause.isRaised = true) :
    ∃ i, p = m.platform.usedLast i := by
  obtain ⟨i, hi⟩ := Platform.fetch_snd m.platform m.state.mode m.state.pc.even
  unfold attempt at ha
  split at ha
  · rename_i fault q hf
    obtain rfl : q = p := (Prod.mk.inj (Except.ok.inj ha)).2
    exact ⟨i, (congrArg Prod.snd hf).symm.trans hi⟩
  · rename_i d q hf
    have hq : q = m.platform.usedLast i := (congrArg Prod.snd hf).symm.trans hi
    obtain ⟨j, hj⟩ := Insn.execute_raised ha hc
    exact ⟨j, by rw [hj, hq, Platform.usedLast_usedLast]⟩

/-- A system call is not the outcome of an access, so the platform is as the fetch left it. -/
theorem attempt_syscall (ha : m.attempt = .ok (effects, p)) (hc : effects.cause = .syscall) :
    p = m.fetched.2 := by
  unfold attempt at ha
  split at ha
  · rename_i fault q hf
    obtain ⟨rfl, -⟩ := Prod.mk.inj (Except.ok.inj ha)
    have hcause : fault.cause = .syscall := hc
    rcases Platform.fetch_fault hf with h | h <;> rw [hcause] at h <;> cases h
  · rename_i d q hf
    rw [Insn.execute_syscall ha hc, hf]

end Machine

/-- A step of a machine that changed nothing a restarted instruction could notice: all it
leaves behind is the cause. -/
structure StepOutcome.LeavesOnlyCause {σ : Type} (r : StepOutcome σ) (m : Machine) (h : σ) :
    Prop where
  regs : r.machine.state.regs = m.state.regs
  tpc : r.machine.state.tpc = m.state.tpc
  contents : m.platform.SameContents r.machine.platform
  host : r.host = h
  cause : r.machine.state.cause = m.raised
  faultAddr : r.machine.state.faultAddr = m.raisedAddr

namespace Machine

variable {σ : Type} {m : Machine} {effects : Effects} {p q : Platform} {r : StepOutcome σ} {h : σ}
  {halt : Option Halt} {mode : Mode}

/-- What is committed after a reaction that asks for a halt or enters scheduler mode. No
interrupt comes in between, so the cause is still there. -/
theorem raised_committed
    (hr : r.Commits ⟨{ m.raisedState effects with nextMode := mode }, q, m.environment,
      m.interruptPending⟩ halt h)
    (hquiet : halt.isSome ∨ mode = .scheduler) :
    r.machine.state = { m.raisedState effects with nextMode := mode }.commit ∧
      r.result = .ok (halt.or q.bus.takeExit.1) ∧ q.SameContents r.machine.platform ∧
      r.host = h := by
  obtain ⟨x, d, hends, hl⟩ := hr
  have hcontents : q.SameContents r.machine.platform := hl.platform ▸ hends.sameContents
  have hno : halt = none → ({ m.raisedState effects with nextMode := mode }.commit).takeInterrupt
      m.environment = none := by
    intro hnone
    rcases hquiet with hsome | rfl
    · rw [hnone] at hsome
      cases hsome
    · exact if_pos (by simp [State.commit, Mode.isTask])
  obtain ⟨rfl, hstate, -⟩ := hends.uninterrupted hno
  exact ⟨hl.state.trans hstate, hl.result, hcontents, hl.host⟩

theorem leavesOnlyCause (ha : m.attempt = .ok (effects, p)) (hq : m.platform.SameContents q)
    (hr : r.Commits ⟨{ m.raisedState effects with nextMode := mode }, q, m.environment,
      m.interruptPending⟩ halt h)
    (hquiet : halt.isSome ∨ mode = .scheduler) : r.LeavesOnlyCause m h := by
  obtain ⟨hstate, -, hcontents, hhost⟩ := raised_committed hr hquiet
  exact {
    regs := by rw [hstate]; rfl
    tpc := by rw [hstate]; rfl
    contents := hq.trans hcontents
    host := hhost
    cause := by rw [hstate, raised_eq ha]; rfl
    faultAddr := by rw [hstate, raisedAddr_eq ha]; rfl }

/-- The scheduler's program counter moves only in scheduler mode. -/
theorem raised_spc (hmode : m.state.mode = .task)
    (hstate : r.machine.state = { m.raisedState effects with nextMode := mode }.commit) :
    r.machine.state.spc = m.state.spc := by
  rw [hstate]
  simp [State.commit, raisedState, begun, State.beginInstruction, hmode]

/-! ## The reaction -/

/-- The halt that the reaction to a cause asks for, if the host does not get to see it. -/
def verdict (m : Machine) : Option Halt :=
  if m.environment.isUser then
    match m.raised, m.callNumber with
    | .syscall, .error fault => some (.bySignal fault.cause.signal)
    | cause, _ => some (.bySignal cause.signal)
  else
    match m.state.mode with
    | .task => none
    | .scheduler => some (.bySignal .trap)

theorem verdict_user (hu : m.environment.isUser = true) (hc : m.raised ≠ .syscall) :
    m.verdict = some (.bySignal m.raised.signal) := by
  unfold verdict
  rw [if_pos hu]
  split
  · rename_i hraised _
    exact absurd hraised hc
  · rfl

theorem verdict_unfetched {fault : MemFault} (hu : m.environment.isUser = true)
    (hc : m.raised = .syscall) (hn : m.callNumber = .error fault) :
    m.verdict = some (.bySignal fault.cause.signal) := by
  unfold verdict
  rw [if_pos hu, hc, hn]

theorem verdict_task (hu : m.environment.isUser = false) (hmode : m.state.mode = .task) :
    m.verdict = none := by
  unfold verdict
  rw [hu, if_neg Bool.false_ne_true, hmode]

theorem verdict_scheduler (hu : m.environment.isUser = false) (hmode : m.state.mode = .scheduler) :
    m.verdict = some (.bySignal .trap) := by
  unfold verdict
  rw [hu, if_neg Bool.false_ne_true, hmode]

/-- A reaction that the host has no part in leaves the shadow alone but for the mode. -/
theorem respond_of_not_reachesHost (ha : m.attempt = .ok (effects, p)) (hs : ¬ m.CallReachesHost)
    (host : Host σ) (h : σ) :
    ∃ mode i, (m.raisedState effects).respond m.environment p host h =
        ⟨.ok m.verdict, { m.raisedState effects with nextMode := mode }, p.usedLast i, h⟩ ∧
      (m.verdict.isSome ∨ mode = .scheduler) := by
  have hraised := raised_eq ha
  cases hu : m.environment.isUser with
  | true =>
      refine ⟨m.begun.nextMode, ?_⟩
      by_cases hc : effects.cause = .syscall
      · cases hn : m.callNumber with
        | ok number => exact absurd ⟨hu, hraised.trans hc, number, hn⟩ hs
        | error fault =>
            have hv := verdict_unfetched hu (hraised.trans hc) hn
            obtain ⟨i, hi⟩ := Platform.fetchHalf_snd p .task (m.state.tpc.even + 2)
            rw [callNumber, ← attempt_syscall ha hc] at hn
            have hf : p.fetchHalf .task ((m.raisedState effects).tpc.even + 2) =
                (.error fault, p.usedLast i) := Prod.ext hn hi
            refine ⟨i, ?_, .inl (by rw [hv]; rfl)⟩
            rw [State.respond_syscall hu hc, State.syscall_unfetched hf, hv]
            rfl
      · have hv := verdict_user hu (fun h => hc (hraised.symm.trans h))
        refine ⟨p.bus.last, ?_, .inl (by rw [hv]; rfl)⟩
        rw [State.respond_fatal hu hc, hv, hraised]
        rfl
  | false =>
      cases hmode : m.state.mode with
      | task =>
          refine ⟨.scheduler, p.bus.last, ?_, .inr rfl⟩
          rw [State.respond_task (s := m.raisedState effects) hu hmode, verdict_task hu hmode]
          rfl
      | scheduler =>
          have hv := verdict_scheduler hu hmode
          refine ⟨m.begun.nextMode, p.bus.last, ?_, .inl (by rw [hv]; rfl)⟩
          rw [State.respond_scheduler (s := m.raisedState effects) hu hmode, hv]
          rfl

/-! ## Precision -/

/-- A step that raises a cause, unless that is a call which reaches the host, leaves only the
cause behind. In the user environment it halts with the signal of the cause; a call that does
not reach the host, with the signal of the fault that kept it from doing so. In the other
environments it enters scheduler mode out of task mode, with no more than a device's own exit
request as its result, and it halts in scheduler mode. -/
theorem step_precise (m : Machine) (host : Host σ) (h : σ) (hraised : m.raised.isRaised = true)
    (hs : ¬ m.CallReachesHost) :
    (m.step host h).LeavesOnlyCause m h ∧
      (m.state.mode = .task → (m.step host h).machine.state.spc = m.state.spc) ∧
      (m.environment.isUser = true → m.raised ≠ .syscall →
        (m.step host h).result = .ok (some (.bySignal m.raised.signal))) ∧
      (m.environment.isUser = true → ∀ fault, m.raised = .syscall → m.callNumber = .error fault →
        (m.step host h).result = .ok (some (.bySignal fault.cause.signal))) ∧
      (m.environment.isUser = false → m.state.mode = .task →
        (m.step host h).machine.state.mode = .scheduler ∧
          (m.step host h).result = .ok m.platform.bus.takeExit.1) ∧
      (m.environment.isUser = false → m.state.mode = .scheduler →
        (m.step host h).result = .ok (some (.bySignal .trap))) := by
  cases ha : m.attempt with
  | error e => rw [raised, ha] at hraised; cases hraised
  | ok result =>
      obtain ⟨effects, p⟩ := result
      have hc : effects.cause.isRaised = true := raised_eq ha ▸ hraised
      obtain ⟨i, rfl⟩ := attempt_raised ha hc
      -- Every reaction has one form, so what is committed is looked at once and not by cases.
      obtain ⟨mode, j, hrespond, hquiet⟩ := respond_of_not_reachesHost ha hs host h
      have hcommits := step_raised ha hc host h
      rw [hrespond] at hcommits
      obtain ⟨hstate, hresult, -, -⟩ := raised_committed hcommits hquiet
      have hexit : ((m.platform.usedLast i).usedLast j).bus.takeExit.1 =
          m.platform.bus.takeExit.1 :=
        m.platform.bus.takeExit_usedLast j
      rw [hexit] at hresult
      refine ⟨leavesOnlyCause ha (.usedLast m.platform j) hcommits hquiet, ?_, ?_, ?_, ?_, ?_⟩
      · intro hmode
        exact raised_spc hmode hstate
      · intro hu hsys
        rw [hresult, verdict_user hu hsys, Option.some_or]
      · intro hu fault hsys hn
        rw [hresult, verdict_unfetched hu hsys hn, Option.some_or]
      · intro hu hmode
        rw [verdict_task hu hmode] at hresult hquiet
        rcases hquiet with hsome | rfl
        · cases hsome
        · exact ⟨by rw [hstate]; rfl, hresult⟩
      · intro hu hmode
        rw [hresult, verdict_scheduler hu hmode, Option.some_or]

/-- A task about to store `$r0` at the unaligned address 2. Its program counter has bit 0 set. -/
def strayStore : Machine where
  state := { regs := RegFile.set {} 5 (.int 2), tpc := 1, nextTpc := 1 }
  platform :=
    { model := .windowed
      bus := { devices := [.ram (Ram.setBytes ⟨0, 64, ∅⟩ 0 [0x50, 0xe7])] } }
  environment := .operating

theorem step_precise_strayStore :
    strayStore.raised = .unaligned ∧ ¬ strayStore.CallReachesHost ∧
      (strayStore.step Host.noting none).LeavesOnlyCause strayStore none ∧
      (strayStore.step Host.noting none).machine.state.mode = .scheduler := by
  have hraised : strayStore.raised = .unaligned := by decide +kernel
  have hs : ¬ strayStore.CallReachesHost := by
    intro hs
    cases hs.1
  have hp := step_precise strayStore Host.noting none (by rw [hraised]; rfl) hs
  exact ⟨hraised, hs, hp.1, (hp.2.2.2.2.1 rfl rfl).1⟩

end Machine

end TypedCore
