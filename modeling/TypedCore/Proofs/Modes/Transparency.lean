import TypedCore.Proofs.Memory.Evolution
import TypedCore.Proofs.Modes.Switching
import TypedCore.Proofs.Modes.TaskView

/-!
# Interrupts and the task

Two runs of a machine with different requests for an interrupt take the same
steps in task mode, if all that the scheduler does is to enter task mode again,
the task does not ask for the cause, and memory is apart from the devices.

The proof walks along both runs. `Machine.Twins` is what holds between two
machines at any time: a task would find the same registers, the same program
counter, the same fault address and the same platform, up to the device that was
used last. Twins need not be in the same mode. Where both are in task mode they
take the same step (`Twins.step_task`); a machine in scheduler mode can take its
step alone (`Twins.step_scheduler`). The one thing that a step in scheduler mode
could change for the task is to collect an exit request, but no interrupt is
taken while there is one.

Without the condition on memory the statement is false. A fetch by the scheduler
makes memory the device that was used last, and where a device overlaps memory
that decides what the task's next fetch finds. The last theorem gives such a run.
-/

namespace TypedCore

/-! ## Commits -/

theorem State.latched_forTask (s : State) : s.forTask.latched.eaddr = s.latched.eaddr := by
  have hcause : s.forTask.cause = s.cause := rfl
  unfold latched
  rw [hcause]
  split <;> rfl

/-- What a commit without a halt leaves of a machine, as far as a task is concerned. -/
structure StepOutcome.Settles {σ : Type} (r : StepOutcome σ) (c : Core) : Prop where
  result : r.result = .ok c.platform.bus.takeExit.1
  regs : r.machine.state.regs = c.state.regs
  tpc : r.machine.state.tpc = c.state.nextTpc
  eaddr : r.machine.state.latched.eaddr = c.state.latched.eaddr
  mode : r.machine.state.mode = c.state.nextMode ∨ c.platform.bus.takeExit.1 = none
  platform : r.machine.platform = { c.platform with bus := c.platform.bus.takeExit.2 }

namespace Core.Ends

variable {c d : Core} {x : Option Halt}

theorem result (h : c.Ends none x d) : x = c.platform.bus.takeExit.1 := by
  cases h with
  | exited halt bus hexit => exact (congrArg Prod.fst hexit).symm
  | interrupted s hexit hpending hs => exact hexit.symm
  | wentOn hexit hs => exact hexit.symm

theorem platform (h : c.Ends none x d) :
    d.platform = { c.platform with bus := c.platform.bus.takeExit.2 } := by
  cases h with
  | exited halt bus hexit => rw [hexit]
  | interrupted s hexit hpending hs => rw [Bus.takeExit_of_none hexit]
  | wentOn hexit hs => rw [Bus.takeExit_of_none hexit]; rfl

/-- An interrupt has no address, and none is taken where a cause already leads to the
scheduler. -/
theorem eaddr (h : c.Ends none x d) (hc : c.state.cause = .none ∨ c.state.nextMode = .scheduler) :
    d.state.latched.eaddr = c.state.latched.eaddr := by
  cases h with
  | exited halt bus hexit => rfl
  | interrupted s hexit hpending hs =>
      rcases hc with hquiet | hscheduler
      · rw [State.takeInterrupt_eq hs, State.latched_quiet hquiet]
        rfl
      · have huntaken : c.state.commit.takeInterrupt c.environment = none :=
          if_pos (by simp [State.commit, hscheduler, Mode.isTask])
        rw [huntaken] at hs
        cases hs
  | wentOn hexit hs => rfl

theorem mode_or (h : c.Ends none x d) :
    d.state.mode = c.state.nextMode ∨ c.platform.bus.takeExit.1 = none := by
  cases h with
  | exited halt bus hexit => exact .inl rfl
  | interrupted s hexit hpending hs => exact .inr hexit
  | wentOn hexit hs => exact .inr hexit

end Core.Ends

theorem StepOutcome.Commits.settles {σ : Type} {r : StepOutcome σ} {c : Core} {h : σ}
    (hr : r.Commits c none h) (hc : c.state.cause = .none ∨ c.state.nextMode = .scheduler) :
    r.Settles c := by
  obtain ⟨x, d, hends, hl⟩ := hr
  exact {
    result := by rw [hl.result, hends.result]
    regs := by rw [hl.state, hends.regs]
    tpc := by rw [hl.state, hends.tpc]
    eaddr := by rw [hl.state, hends.eaddr hc]
    mode := by rw [hl.state]; exact hends.mode_or
    platform := by rw [hl.platform, hends.platform] }

/-- Whether an instruction reads the cause register. -/
def Insn.readsCause : Insn → Bool
  | csrRead _ addr => addr.toNat == 2
  | _ => false

namespace Machine

variable {σ : Type} {m n : Machine} {host : Host σ} {h : σ} {effects : Effects} {p q : Platform}
  {s : State}

/-- The core that a step of a task with a cause commits. -/
def raisedCore (m : Machine) (effects : Effects) (p : Platform) : Core :=
  ⟨{ m.raisedState effects with nextMode := .scheduler }, p, m.environment, m.interruptPending⟩

theorem raised_settles (hu : m.environment.isUser = false) (hm : m.state.mode = .task)
    (ha : m.attempt = .ok (effects, p)) (hc : effects.cause.isRaised = true) (host : Host σ)
    (h : σ) : (m.step host h).Settles (m.raisedCore effects p) := by
  have hf := step_raised ha hc host h
  have hmode : (m.raisedState effects).mode = .task := hm
  unfold StepOutcome.Follows at hf
  rw [State.respond_task hu hmode] at hf
  exact StepOutcome.Commits.settles hf (.inr rfl)

theorem retired_settles (ha : m.attempt = .ok (effects, p)) (hc : effects.cause.isRaised = false)
    (happly : effects.apply m.begun p = .ok (s, q)) (host : Host σ) (h : σ) :
    (m.step host h).Settles ⟨s, q, m.environment, m.interruptPending⟩ :=
  (step_retired ha hc happly host h).settles (.inl (Effects.apply_kept hc happly).cause)

/-- The core that `stm` commits. -/
def enteredCore (m : Machine) : Core :=
  ⟨{ m.begun with nextMode := .task }, m.fetched.2, m.environment, m.interruptPending⟩

theorem enterTask_settles (hm : m.state.mode = .scheduler) (hi : m.insn? = some .enterTask)
    (host : Host σ) (h : σ) : (m.step host h).Settles m.enteredCore := by
  have ha := attempt_enterTask hi
  have happly : (Effects.enterTask m.state.mode).apply m.begun m.fetched.2 =
      .ok ({ m.begun with nextMode := .task }, m.fetched.2) := by
    rw [hm]
    rfl
  exact retired_settles ha rfl happly host h

/-! ## Twins -/

/-- Two machines that a task cannot tell apart. If only one of them is in task mode, no device
asks for an exit. -/
structure Twins (m n : Machine) : Prop where
  regs : m.state.regs = n.state.regs
  tpc : m.state.tpc = n.state.tpc
  eaddr : m.state.latched.eaddr = n.state.latched.eaddr
  mode : m.state.mode = n.state.mode ∨ n.platform.bus.takeExit.1 = none
  platform : ∃ i, m.platform = n.platform.usedLast i
  user₁ : m.environment.isUser = false
  user₂ : n.environment.isUser = false
  apart : n.platform.bus.RamApart

namespace Twins

theorem refl (hu : m.environment.isUser = false) (ha : m.platform.bus.RamApart) : m.Twins m :=
  ⟨rfl, rfl, rfl, .inl rfl, ⟨m.platform.bus.last, rfl⟩, hu, hu, ha⟩

theorem symm (t : m.Twins n) : n.Twins m := by
  obtain ⟨i, hi⟩ := t.platform
  exact {
    regs := t.regs.symm
    tpc := t.tpc.symm
    eaddr := t.eaddr.symm
    mode := by
      rcases t.mode with hsame | hquiet
      · exact .inl hsame.symm
      · right
        rw [hi]
        exact (Bus.takeExit_usedLast _ i).trans hquiet
    platform := ⟨n.platform.bus.last, by rw [hi]; rfl⟩
    user₁ := t.user₂
    user₂ := t.user₁
    apart := by rw [hi]; exact t.apart }

theorem raiseInterrupt (t : m.Twins n) : m.raiseInterrupt.Twins n :=
  ⟨t.regs, t.tpc, t.eaddr, t.mode, t.platform, t.user₁, t.user₂, t.apart⟩

end Twins

/-- Memory stays apart from the devices. -/
theorem step_ramApart (ha : m.platform.bus.RamApart) (host : Host σ) (h : σ) :
    (m.step host h).machine.platform.bus.RamApart :=
  ha.of_layout (act_evolves m host h .step).bus.layout

/-- Commits of states that a task cannot tell apart make twins, and ask for the same halt. -/
theorem twins_of_settles {h' : σ} {c d : Core} (t : m.Twins n)
    (hc : (m.step host h).Settles c) (hd : (n.step host h').Settles d)
    (hstate : c.state.forTask = d.state.forTask)
    (hplatform : ∃ i, c.platform = d.platform.usedLast i) :
    (m.step host h).machine.Twins (n.step host h').machine ∧
      (m.step host h).result = (n.step host h').result := by
  obtain ⟨i, hi⟩ := hplatform
  have hexit : c.platform.bus.takeExit.1 = d.platform.bus.takeExit.1 := by
    rw [hi]
    exact Bus.takeExit_usedLast _ i
  have hregs : c.state.forTask.regs = d.state.forTask.regs := congrArg State.regs hstate
  have htpc : c.state.forTask.nextTpc = d.state.forTask.nextTpc := congrArg State.nextTpc hstate
  have hnext : c.state.forTask.nextMode = d.state.forTask.nextMode :=
    congrArg State.nextMode hstate
  refine ⟨?_, by rw [hc.result, hd.result, hexit]⟩
  exact {
    regs := by
      rw [hc.regs, hd.regs]
      exact hregs
    tpc := by
      rw [hc.tpc, hd.tpc]
      exact htpc
    eaddr := by
      rw [hc.eaddr, hd.eaddr, ← State.latched_forTask, hstate, State.latched_forTask]
    mode := by
      cases hx : d.platform.bus.takeExit.1 with
      | none =>
          right
          rw [hd.platform]
          dsimp only
          rw [Bus.takeExit_of_none hx]
          exact hx
      | some halt =>
          left
          rw [hc.mode.resolve_right (by simp [hexit, hx]), hd.mode.resolve_right (by simp [hx])]
          exact hnext
    platform := by
      refine ⟨i, ?_⟩
      rw [hc.platform, hd.platform, hi]
      have hbus : (d.platform.bus.usedLast i).takeExit.2 = d.platform.bus.takeExit.2.usedLast i :=
        d.platform.bus.takeExit_snd_usedLast i
      simp only [Platform.usedLast, hbus]
    user₁ := (m.step_environment host h).symm ▸ t.user₁
    user₂ := (n.step_environment host h').symm ▸ t.user₂
    apart := step_ramApart t.apart host h' }

/-! ## Steps -/

/-- The scheduler's next instruction is `stm`, and the task's does not ask for the cause. -/
def Unobtrusive (m : Machine) : Prop :=
  (m.state.mode = .scheduler → m.insn? = some .enterTask) ∧
    (m.state.mode = .task → ∀ insn ∈ m.insn?, insn.readsCause = false)

instance (m : Machine) : Decidable m.Unobtrusive := inferInstanceAs (Decidable (_ ∧ _))

theorem attempt_of_fault {fault : MemFault} (hf : m.fetched.1 = .error fault) :
    m.attempt = .ok (.fault fault, m.fetched.2) ∧ (Effects.fault fault).cause.isRaised = true := by
  have hpair : m.fetched = (.error fault, m.fetched.2) := Prod.ext hf rfl
  constructor
  · unfold attempt
    rw [hpair]
  · have hcause : fault.cause.isRaised = true := by
      rcases Platform.fetch_fault hpair with h | h <;> rw [h] <;> rfl
    exact hcause

namespace Twins

/-- Two machines in task mode fetch the same, and if it is an instruction, from the same device. -/
theorem fetched (t : m.Twins n) (hm : m.state.mode = .task) (hn : n.state.mode = .task) :
    m.fetched = n.fetched ∨ ∃ fault, m.fetched.1 = .error fault ∧ n.fetched.1 = .error fault := by
  have hpc : m.state.pc = n.state.pc := by
    rw [State.pc, State.pc, hm, hn]
    exact t.tpc
  obtain ⟨i, hi⟩ := t.platform
  have hfetch : m.fetched = (n.platform.usedLast i).fetch n.state.mode n.state.pc.even := by
    rw [Machine.fetched, hi, hpc, hm, hn]
  rw [hfetch]
  exact Platform.fetch_usedLast t.apart n.state.mode n.state.pc.even i

theorem fetched_snd (t : m.Twins n) : ∃ i, m.fetched.2 = n.fetched.2.usedLast i := by
  obtain ⟨i, hi⟩ := t.platform
  obtain ⟨j, hj⟩ := Platform.fetch_snd m.platform m.state.mode m.state.pc.even
  obtain ⟨k, hk⟩ := Platform.fetch_snd n.platform n.state.mode n.state.pc.even
  have hleft : m.fetched.2 = m.platform.usedLast j := hj
  have hright : n.fetched.2 = n.platform.usedLast k := hk
  exact ⟨j, by rw [hleft, hright, hi]; rfl⟩

/-- Two machines in one mode find the same program counter in front of their next instruction
and behind it. -/
theorem begun (t : m.Twins n) (hmode : m.state.mode = n.state.mode)
    (hf : m.state.mode = .task → m.fetched.1 = n.fetched.1) :
    m.begun.forTask = n.begun.forTask := by
  unfold Machine.begun
  cases hm : m.state.mode with
  | task =>
      have hn : n.state.mode = .task := hmode.symm.trans hm
      rw [hf hm]
      simp [State.forTask, State.beginInstruction, State.fallThrough, State.pc, hm, hn, t.regs,
        t.tpc, t.eaddr]
  | scheduler =>
      have hn : n.state.mode = .scheduler := hmode.symm.trans hm
      simp [State.forTask, State.beginInstruction, hm, hn, t.regs, t.tpc, t.eaddr]

/-- An instruction of a task asks for the same on both machines. -/
theorem attempt (t : m.Twins n) (hm : m.state.mode = .task) (hn : n.state.mode = .task)
    (hf : m.fetched = n.fetched) : m.attempt = n.attempt := by
  have hb := t.begun (hm.trans hn.symm) fun _ => by rw [hf]
  have hm' : m.begun.mode = .task := hm
  have hn' : n.begun.mode = .task := hn
  unfold Machine.attempt
  rw [hf]
  split
  · rfl
  · rename_i d q _
    rw [← Insn.execute_forTask d.insn hm', hb, Insn.execute_forTask d.insn hn']

/-- A cause that an instruction of a task raises leads both machines to the scheduler. -/
theorem step_raised (t : m.Twins n) (hm : m.state.mode = .task) (hn : n.state.mode = .task)
    (ha : m.attempt = .ok (effects, p)) (hb : n.attempt = .ok (effects, q))
    (hc : effects.cause.isRaised = true) (hbegun : m.begun.forTask = n.begun.forTask)
    (hplatform : ∃ i, p = q.usedLast i) (host : Host σ) (h h' : σ) :
    (m.step host h).machine.Twins (n.step host h').machine ∧
      (m.step host h).result = (n.step host h').result := by
  have hstate := congrArg (fun s : State =>
    { s with
      cause := effects.cause, faultAddr := effects.faultAddr, nextTpc := n.state.tpc
      nextMode := .scheduler }) hbegun
  refine twins_of_settles t (raised_settles t.user₁ hm ha hc host h)
    (raised_settles t.user₂ hn hb hc host h') ?_ hplatform
  unfold raisedCore raisedState
  rw [t.tpc]
  exact hstate

/-- A fault of the simulator comes on both machines, before anything is committed. -/
theorem step_left {e : HostFault} (t : m.Twins n) (hm : m.state.mode = .task)
    (hn : n.state.mode = .task) {h h' : σ} (hbegun : m.begun.forTask = n.begun.forTask)
    (hl : (m.step host h).Leaves (.error e) ⟨m.begun, p, m.environment, m.interruptPending⟩ h)
    (hl' : (n.step host h').Leaves (.error e) ⟨n.begun, q, n.environment, n.interruptPending⟩ h')
    (hplatform : ∃ i, p = q.usedLast i) :
    (m.step host h).machine.Twins (n.step host h').machine ∧
      (m.step host h).result = (n.step host h').result := by
  refine ⟨?_, hl.result.trans hl'.result.symm⟩
  exact {
    regs := by rw [hl.state, hl'.state]; exact t.regs
    tpc := by rw [hl.state, hl'.state]; exact t.tpc
    eaddr := by
      rw [hl.state, hl'.state, ← State.latched_forTask, hbegun, State.latched_forTask]
    mode := by rw [hl.state, hl'.state]; exact .inl (hm.trans hn.symm)
    platform := by rw [hl.platform, hl'.platform]; exact hplatform
    user₁ := (m.step_environment host h).symm ▸ t.user₁
    user₂ := (n.step_environment host h').symm ▸ t.user₂
    apart := step_ramApart t.apart host h' }

/-- In task mode both machines take the same step. -/
theorem step_task (t : m.Twins n) (hm : m.state.mode = .task) (hn : n.state.mode = .task)
    (hcause : ∀ insn ∈ m.insn?, insn.readsCause = false) (host : Host σ)
    (h h' : σ) :
    (m.step host h).machine.Twins (n.step host h').machine ∧
      (m.step host h).result = (n.step host h').result := by
  -- Fetches of twins agree in full, or both fail and may differ in which device they note.
  rcases t.fetched hm hn with hf | ⟨fault, hf, hf'⟩
  · have hbegun := t.begun (hm.trans hn.symm) fun _ => by rw [hf]
    have hsame := t.attempt hm hn hf
    have hself : ∀ p : Platform, ∃ i, p = p.usedLast i := fun p => ⟨p.bus.last, rfl⟩
    cases ha : m.attempt with
    | error e =>
        exact t.step_left hm hn hbegun (step_unbuilt ha host h)
          (step_unbuilt (hsame.symm.trans ha) host h') (hf ▸ hself _)
    | ok attempted =>
        obtain ⟨effects, p⟩ := attempted
        have hb : n.attempt = .ok (effects, p) := hsame.symm.trans ha
        cases hc : effects.cause.isRaised with
        | true => exact t.step_raised hm hn ha hb hc hbegun (hself p) host h h'
        | false =>
            have hother : ∀ rd addr, effects.csr = some (.read rd addr) → addr.toNat ≠ 2 := by
              intro rd addr hcsr
              obtain ⟨insn, hi, haccess⟩ := m.insn?_of_csr ha hcsr
              rw [Insn.csrAccess_read haccess] at hi
              exact ne_of_beq_false (hcause _ hi)
            have hm' : m.begun.mode = .task := hm
            cases happly : effects.apply m.begun p with
            | error e =>
                have happly' := Effects.apply_error_congr hm' hbegun hother happly
                exact t.step_left hm hn hbegun (step_refused ha happly host h)
                  (step_refused hb happly' host h') (hself p)
            | ok applied =>
                obtain ⟨s, q⟩ := applied
                obtain ⟨s', happly', hstate⟩ := Effects.apply_ok_congr hm' hbegun hother happly
                exact twins_of_settles t (retired_settles ha hc happly host h)
                  (retired_settles hb hc happly' host h') hstate (hself q)
  · have hbegun := t.begun (hm.trans hn.symm) fun _ => by rw [hf, hf']
    obtain ⟨ha, hc⟩ := attempt_of_fault hf
    exact t.step_raised hm hn ha (attempt_of_fault hf').1 hc hbegun t.fetched_snd host h h'

/-- In scheduler mode both machines enter task mode. -/
theorem step_both (t : m.Twins n) (hm : m.state.mode = .scheduler) (hn : n.state.mode = .scheduler)
    (hi : m.insn? = some .enterTask) (hi' : n.insn? = some .enterTask) (host : Host σ)
    (h h' : σ) : (m.step host h).machine.Twins (n.step host h').machine := by
  have hbegun := t.begun (hm.trans hn.symm) fun hm' => by rw [hm] at hm'; cases hm'
  have hstate := congrArg (fun s : State => { s with nextMode := .task }) hbegun
  exact (twins_of_settles t (enterTask_settles hm hi host h) (enterTask_settles hn hi' host h')
    hstate t.fetched_snd).1

/-- A machine in scheduler mode enters task mode while the other one waits. -/
theorem step_scheduler (t : m.Twins n) (hm : m.state.mode = .scheduler)
    (hi : m.insn? = some .enterTask) (hquiet : n.platform.bus.takeExit.1 = none) (host : Host σ)
    (h : σ) : (m.step host h).machine.Twins n := by
  have hs := enterTask_settles hm hi host h
  obtain ⟨i, hfetched⟩ : ∃ i, m.fetched.2 = n.platform.usedLast i := by
    obtain ⟨i, hi⟩ := t.platform
    obtain ⟨j, hj⟩ := Platform.fetch_snd m.platform m.state.mode m.state.pc.even
    have hleft : m.fetched.2 = m.platform.usedLast j := hj
    exact ⟨j, by rw [hleft, hi]; rfl⟩
  have hexit : m.fetched.2.bus.takeExit.1 = none := by
    rw [hfetched]
    exact (Bus.takeExit_usedLast _ i).trans hquiet
  exact {
    regs := hs.regs.trans t.regs
    tpc := by
      rw [hs.tpc]
      simp [enteredCore, Machine.begun, State.beginInstruction, hm, t.tpc]
    eaddr := hs.eaddr.trans t.eaddr
    mode := .inr hquiet
    platform := by
      refine ⟨i, ?_⟩
      rw [hs.platform]
      unfold enteredCore
      dsimp only
      rw [Bus.takeExit_of_none hexit]
      exact hfetched
    user₁ := (m.step_environment host h).symm ▸ t.user₁
    user₂ := t.user₂
    apart := t.apart }

end Twins

/-! ## Runs -/

/-- A step in task mode: what it starts from, what it executes, and what it leaves. Which device
was used last is left out of the platform. -/
structure TaskStep where
  regs : RegFile
  tpc : Word
  platform : Platform
  insn? : Option Insn
  effects : Except HostFault Effects
  result : Except HostFault (Option Halt)
  regsAfter : RegFile
  tpcAfter : Word
  platformAfter : Platform

def taskStep (m : Machine) (host : Host σ) (h : σ) : TaskStep where
  regs := m.state.regs
  tpc := m.state.tpc
  platform := m.platform.usedLast 0
  insn? := m.insn?
  effects := m.attempt.map Prod.fst
  result := (m.step host h).result
  regsAfter := (m.step host h).machine.state.regs
  tpcAfter := (m.step host h).machine.state.tpc
  platformAfter := (m.step host h).machine.platform.usedLast 0

/-- The steps of a run that are taken in task mode. -/
def taskSteps (host : Host σ) (m : Machine) (h : σ) : List Action → List TaskStep
  | [] => []
  | .step :: acts =>
    let rest := taskSteps host (m.step host h).machine (m.step host h).host acts
    if m.state.mode = .task then m.taskStep host h :: rest else rest
  | a :: acts => taskSteps host (m.act host h a).1 (m.act host h a).2 acts

/-- A run of steps and requests for an interrupt, in which every step is unobtrusive. -/
def UnobtrusiveRun (host : Host σ) (m : Machine) (h : σ) : List Action → Prop
  | [] => True
  | .step :: acts =>
    m.Unobtrusive ∧ UnobtrusiveRun host (m.step host h).machine (m.step host h).host acts
  | .interrupt :: acts => UnobtrusiveRun host m.raiseInterrupt h acts
  | .load .. :: _ => False

theorem taskSteps_step (hm : m.state.mode = .task) (acts : List Action) :
    m.taskSteps host h (.step :: acts) = m.taskStep host h ::
      taskSteps host (m.step host h).machine (m.step host h).host acts := if_pos hm

theorem taskSteps_skip (hm : m.state.mode = .scheduler) (acts : List Action) :
    m.taskSteps host h (.step :: acts) =
      taskSteps host (m.step host h).machine (m.step host h).host acts :=
  if_neg (by rw [hm]; intro h; cases h)

namespace Twins

theorem taskStep (t : m.Twins n) (hm : m.state.mode = .task) (hn : n.state.mode = .task)
    (hcause : ∀ insn ∈ m.insn?, insn.readsCause = false) (host : Host σ)
    (h h' : σ) : m.taskStep host h = n.taskStep host h' := by
  obtain ⟨i, hi⟩ := t.platform
  obtain ⟨tnext, hresult⟩ := t.step_task hm hn hcause host h h'
  obtain ⟨j, hj⟩ := tnext.platform
  have hinsn : m.insn? = n.insn? ∧ m.attempt.map Prod.fst = n.attempt.map Prod.fst := by
    rcases t.fetched hm hn with hf | ⟨fault, hf, hf'⟩
    · exact ⟨by rw [insn?, insn?, hf], by rw [t.attempt hm hn hf]⟩
    · exact ⟨by rw [insn?, insn?, hf, hf'], by
        rw [(attempt_of_fault hf).1, (attempt_of_fault hf').1]; rfl⟩
  unfold Machine.taskStep
  rw [t.regs, t.tpc, hi, hinsn.1, hinsn.2, hresult, tnext.regs, tnext.tpc, hj]
  rfl

/-- Of two unobtrusive runs of twins, one takes the task through the steps of the other, and
perhaps on from there. The induction is on both runs together: one of them goes on alone as long
as it is in scheduler mode. -/
theorem taskSteps : ∀ (acts acts' : List Action) {m n : Machine} {h h' : σ}, m.Twins n →
    m.UnobtrusiveRun host h acts → n.UnobtrusiveRun host h' acts' →
    m.taskSteps host h acts <+: n.taskSteps host h' acts' ∨
      n.taskSteps host h' acts' <+: m.taskSteps host h acts
  | [], _, _, _, _, _, _, _, _ => .inl List.nil_prefix
  | _, [], _, _, _, _, _, _, _ => .inr List.nil_prefix
  | .load .. :: _, _, _, _, _, _, _, hr, _ => hr.elim
  | _, .load .. :: _, _, _, _, _, _, _, hr' => hr'.elim
  | .interrupt :: acts, acts', _, _, _, _, t, hr, hr' =>
      taskSteps acts acts' t.raiseInterrupt hr hr'
  | acts, .interrupt :: acts', _, _, _, _, t, hr, hr' =>
      taskSteps acts acts' t.symm.raiseInterrupt.symm hr hr'
  | .step :: acts, .step :: acts', m, n, h, h', t, hr, hr' => by
      obtain ⟨⟨hstm, hcause⟩, hrest⟩ := hr
      obtain ⟨⟨hstm', hcause'⟩, hrest'⟩ := hr'
      cases hm : m.state.mode with
      | task =>
          cases hn : n.state.mode with
          | task =>
              rw [taskSteps_step hm, taskSteps_step hn, t.taskStep hm hn (hcause hm) host h h',
                List.prefix_cons_inj, List.prefix_cons_inj]
              exact taskSteps acts acts' (t.step_task hm hn (hcause hm) host h h').1 hrest hrest'
          | scheduler =>
              have hquiet : m.platform.bus.takeExit.1 = none :=
                t.symm.mode.resolve_left (by simp [hm, hn])
              have tnext := t.symm.step_scheduler hn (hstm' hn) hquiet host h'
              rw [taskSteps_skip hn]
              exact taskSteps (.step :: acts) acts' tnext.symm ⟨⟨hstm, hcause⟩, hrest⟩ hrest'
      | scheduler =>
          rw [taskSteps_skip hm]
          cases hn : n.state.mode with
          | task =>
              have hquiet : n.platform.bus.takeExit.1 = none :=
                t.mode.resolve_left (by simp [hm, hn])
              have tnext := t.step_scheduler hm (hstm hm) hquiet host h
              exact taskSteps acts (.step :: acts') tnext hrest ⟨⟨hstm', hcause'⟩, hrest'⟩
          | scheduler =>
              rw [taskSteps_skip hn]
              exact taskSteps acts acts' (t.step_both hm hn (hstm hm) (hstm' hn) host h h') hrest
                hrest'
termination_by acts acts' => acts.length + acts'.length

end Twins

/-- Interrupts do not show in what a task does. From one state, under any two schedules of
interrupts, the steps in task mode are the same as far as both runs go, with all that they start
from and all that they do, if the scheduler does nothing but enter task mode, the task does not
ask for the cause, and memory shares no address with a device. -/
theorem taskSteps_agree (m : Machine) (host : Host σ) (h : σ)
    (hu : m.environment.isUser = false) (hapart : m.platform.bus.RamApart)
    (acts acts' : List Action) (hrun : m.UnobtrusiveRun host h acts)
    (hrun' : m.UnobtrusiveRun host h acts') :
    m.taskSteps host h acts <+: m.taskSteps host h acts' ∨
      m.taskSteps host h acts' <+: m.taskSteps host h acts :=
  (Twins.refl hu hapart).taskSteps acts acts' hrun hrun'

/-- A task that reads a byte at address 66 and then loads a constant, at the end of a memory of 64
bytes with a console somewhere behind its first byte, and a scheduler of nothing but `stm`. -/
def poller (console : Word) : Machine where
  state := { regs := RegFile.set {} 5 (.int 66), tpc := 60 }
  platform :=
    { model := .peripheral
      bus :=
        { devices :=
            [.ram ((Ram.setBytes ⟨0, 64, ∅⟩ 0 [0x08, 0x00, 0x08, 0x00]).setBytes 60
              [0x54, 0xe0, 0x16, 0x01]), .console { base := console }] } }
  environment := .operating

/-- With the console right behind memory, an interrupt after the first step changes nothing. -/
theorem taskSteps_agree_poller :
    (poller 64).environment.isUser = false ∧ (poller 64).platform.bus.RamApart ∧
      (poller 64).UnobtrusiveRun Host.noting none [.step, .step] ∧
      (poller 64).UnobtrusiveRun Host.noting none [.interrupt, .step, .step, .step] ∧
      (poller 64).taskSteps Host.noting none [.step, .step] =
        (poller 64).taskSteps Host.noting none [.interrupt, .step, .step, .step] := by
  have hapart : (poller 64).platform.bus.RamApart := by decide +kernel
  have hrun : (poller 64).UnobtrusiveRun Host.noting none [.step, .step] :=
    ⟨by decide +kernel, by decide +kernel, trivial⟩
  have hrun' : (poller 64).UnobtrusiveRun Host.noting none [.interrupt, .step, .step, .step] :=
    ⟨by decide +kernel, by decide +kernel, by decide +kernel, trivial⟩
  have hlength : ((poller 64).taskSteps Host.noting none [.step, .step]).length =
      ((poller 64).taskSteps Host.noting none [.interrupt, .step, .step, .step]).length := by
    decide +kernel
  refine ⟨rfl, hapart, hrun, hrun', ?_⟩
  rcases taskSteps_agree (poller 64) Host.noting none rfl hapart _ _ hrun hrun' with hpre | hpre
  · exact hpre.eq_of_length hlength
  · exact (hpre.eq_of_length hlength.symm).symm

/-- With the console over the last two bytes of memory it does: after the byte was read, the bus
asks the console for the next instruction, unless the scheduler fetched one in between. -/
theorem interrupts_change_routing :
    ¬ ∀ (m : Machine) (acts acts' : List Action), m.environment.isUser = false →
      m.UnobtrusiveRun Host.noting none acts → m.UnobtrusiveRun Host.noting none acts' →
        m.taskSteps Host.noting none acts <+: m.taskSteps Host.noting none acts' ∨
          m.taskSteps Host.noting none acts' <+: m.taskSteps Host.noting none acts := by
  intro hagree
  have hrun : (poller 62).UnobtrusiveRun Host.noting none [.step, .step] :=
    ⟨by decide +kernel, by decide +kernel, trivial⟩
  have hrun' : (poller 62).UnobtrusiveRun Host.noting none [.interrupt, .step, .step, .step] :=
    ⟨by decide +kernel, by decide +kernel, by decide +kernel, trivial⟩
  have hinsn : ((poller 62).taskSteps Host.noting none [.step, .step]).map TaskStep.insn? =
      [some (.memory (.load .byte false) 4 ⟨some 5, none, false⟩), none] := by
    decide +kernel
  have hinsn' : ((poller 62).taskSteps Host.noting none
      [.interrupt, .step, .step, .step]).map TaskStep.insn? =
      [some (.memory (.load .byte false) 4 ⟨some 5, none, false⟩), some (.tinyImm 6 1)] := by
    decide +kernel
  rcases hagree (poller 62) _ _ rfl hrun hrun' with hpre | hpre
  · have hmap := hpre.map TaskStep.insn?
    rw [hinsn, hinsn'] at hmap
    revert hmap
    decide
  · have hmap := hpre.map TaskStep.insn?
    rw [hinsn, hinsn'] at hmap
    revert hmap
    decide

end Machine

end TypedCore
