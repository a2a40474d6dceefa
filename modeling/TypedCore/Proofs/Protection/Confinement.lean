import TypedCore.Proofs.Protection.Lockstep

/-!
# Confinement of a task

Two machines that differ in no more than what task mode cannot reach take the
same step, and what they differ in afterwards is still out of reach. So nothing
that lies outside the windows has an influence on a task, and a task changes
nothing outside its data window. The property is one of pairs of runs: it says
what a task can learn, which no property of a single run does.

An instruction runs in lockstep. Its effects are applied to equal states, and
the reaction to a cause looks at the state alone. At the end there is no device
that could ask for a halt, and an interrupt is taken by both machines or by
neither.
-/

namespace TypedCore

/-! ## Applying effects -/

namespace Platform

variable {S : Nat → Prop} {p₁ p₂ : Platform}

theorem readCsr_alike (h : p₁.Alike S p₂) : p₁.readCsr = p₂.readCsr := by
  have hinst : p₁.inst = p₂.inst := congrArg Windows.inst h.windows
  have hdata : p₁.data = p₂.data := congrArg Windows.data h.windows
  funext latch mode addr
  unfold readCsr
  rw [h.model₁, h.model₂, hinst, hdata]

/-- Moving the windows leaves the memories alone. -/
theorem Alike.withWindows (h : p₁.Alike S p₂) (w : Windows) :
    (p₁.withWindows w).Alike S (p₂.withWindows w) :=
  ⟨h.model₁, h.model₂, rfl, h.rams⟩

end Platform

section Apply

variable {S : Nat → Prop} {q₁ q₂ : Platform}

/-- One access to a status register on two platforms: refused alike, or with the same state
after it and no more than the windows changed. -/
theorem CsrAccess.apply_alike (access : CsrAccess) (s : State) (h : q₁.Alike S q₂) :
    (∃ e, access.apply s q₁ = .error e ∧ access.apply s q₂ = .error e) ∨
      ∃ t r₁ r₂, access.apply s q₁ = .ok (t, r₁) ∧ access.apply s q₂ = .ok (t, r₂) ∧
        r₁.Alike S r₂ ∧ r₁.bus = q₁.bus ∧ r₂.bus = q₂.bus := by
  cases access with
  | read rd addr =>
      unfold apply
      dsimp only
      rw [Platform.readCsr_alike h]
      cases q₂.readCsr s.latch s.mode addr with
      | error e => exact .inl ⟨e, rfl, rfl⟩
      | ok result =>
          dsimp only [bind, Except.bind]
          cases { s with latch := result.2 }.writeReg rd ⟨result.1, (s.regs.read rd).type⟩ with
          | error e => exact .inl ⟨e, rfl, rfl⟩
          | ok t => exact .inr ⟨t, q₁, q₂, rfl, rfl, h, rfl, rfl⟩
  | write addr value =>
      unfold apply
      dsimp only
      rw [Platform.writeCsr_windowed h.model₁, Platform.writeCsr_windowed h.model₂, h.windows]
      by_cases haddr : 0x80 ≤ addr.toNat ∧ addr.toNat ≤ 0x83
      · rw [if_pos haddr, if_pos haddr]
        exact .inr ⟨_, _, _, rfl, rfl, h.withWindows _, rfl, rfl⟩
      · rw [if_neg haddr, if_neg haddr]
        cases s.latch.write addr value with
        | error e => exact .inl ⟨e, rfl, rfl⟩
        | ok latch =>
            cases latch with
            | none => exact .inl ⟨_, rfl, rfl⟩
            | some latch => exact .inr ⟨_, q₁, q₂, rfl, rfl, h, rfl, rfl⟩

theorem Effects.apply_alike (e : Effects) (s : State) (h : q₁.Alike S q₂) :
    (∃ f, e.apply s q₁ = .error f ∧ e.apply s q₂ = .error f) ∨
      ∃ t r₁ r₂, e.apply s q₁ = .ok (t, r₁) ∧ e.apply s q₂ = .ok (t, r₂) ∧
        r₁.Alike S r₂ ∧ r₁.bus = q₁.bus ∧ r₂.bus = q₂.bus := by
  cases hc : e.cause.isRaised with
  | true =>
      exact .inr ⟨_, q₁, q₂, apply_raised hc s q₁, apply_raised hc s q₂, h, rfl, rfl⟩
  | false =>
      rw [apply_quiet hc, apply_quiet hc]
      cases e.settle s with
      | error f => exact .inl ⟨f, rfl, rfl⟩
      | ok u =>
          dsimp only [Except.bind]
          cases e.csr with
          | none => exact .inr ⟨u, q₁, q₂, rfl, rfl, h, rfl, rfl⟩
          | some access => exact access.apply_alike u h

end Apply

/-! ## Machines -/

/-- Two machines in an environment with a scheduler that differ in their memories outside a
set at most. Their environments and hosts need not be the same. -/
structure Core.Alike (S : Nat → Prop) (c₁ c₂ : Core) : Prop where
  state : c₁.state = c₂.state
  interruptPending : c₁.interruptPending = c₂.interruptPending
  user₁ : c₁.environment.isUser = false
  user₂ : c₂.environment.isUser = false
  platform : c₁.platform.Alike S c₂.platform

/-- Two machines that are alike wherever the windows reach, after their platforms changed
within the data window at most. -/
structure Core.Confined (w : Windows) (p₁ p₂ : Platform) (c₁ c₂ : Core) : Prop where
  alike : c₁.Alike w.Reaches c₂
  changed₁ : p₁.ChangedIn w.data.Reaches c₁.platform
  changed₂ : p₂.ChangedIn w.data.Reaches c₂.platform

theorem Platform.ChangedIn.of_bus {S : Nat → Prop} {p q r : Platform} (h : p.ChangedIn S q)
    (hbus : r.bus = q.bus) : p.ChangedIn S r := by
  obtain ⟨m, m', hp, hq, hm⟩ := h
  exact ⟨m, m', hp, hbus ▸ hq, hm⟩

namespace Core

variable {S : Nat → Prop} {c₁ c₂ d₁ d₂ : Core} {halt x₁ x₂ : Option Halt}

theorem Alike.takeExit₁ (h : c₁.Alike S c₂) : c₁.platform.bus.takeExit.1 = none := by
  obtain ⟨r₁, r₂, hr₁, -, -⟩ := h.platform.rams
  rw [Bus.takeExit_ram hr₁]

theorem Alike.takeExit₂ (h : c₁.Alike S c₂) : c₂.platform.bus.takeExit.1 = none := by
  obtain ⟨r₁, r₂, -, hr₂, -⟩ := h.platform.rams
  rw [Bus.takeExit_ram hr₂]

/-- Machines that are alike end an instruction alike. -/
theorem Ends.alike (h₁ : c₁.Ends halt x₁ d₁) (h₂ : c₂.Ends halt x₂ d₂) (h : c₁.Alike S c₂) :
    x₁ = x₂ ∧ d₁.Alike S d₂ ∧ d₁.platform = c₁.platform ∧ d₂.platform = c₂.platform := by
  have htake : c₁.state.commit.takeInterrupt c₁.environment =
      c₂.state.commit.takeInterrupt c₂.environment := by
    rw [h.state]
    exact State.takeInterrupt_congr _ h.user₁ h.user₂
  have hcommit : c₁.committed.state = c₂.committed.state := congrArg State.commit h.state
  -- How the first machine ends tells how the second one can, and it can only in one way.
  cases h₁ with
  | halted halt =>
      obtain ⟨rfl, rfl⟩ := h₂.unique (.halted halt)
      exact ⟨rfl, ⟨hcommit, h.interruptPending, h.user₁, h.user₂, h.platform⟩, rfl, rfl⟩
  | exited halt bus hexit =>
      have hnone := h.takeExit₁
      rw [hexit] at hnone
      cases hnone
  | interrupted s hexit hpending hs =>
      obtain ⟨rfl, rfl⟩ := h₂.unique
        (.interrupted s h.takeExit₂ (h.interruptPending ▸ hpending) (htake ▸ hs))
      exact ⟨rfl, ⟨rfl, rfl, h.user₁, h.user₂, h.platform⟩, rfl, rfl⟩
  | wentOn hexit hs =>
      obtain ⟨rfl, rfl⟩ := h₂.unique (.wentOn h.takeExit₂ fun hpending =>
        htake.symm.trans (hs (h.interruptPending.trans hpending)))
      exact ⟨rfl, ⟨hcommit, h.interruptPending, h.user₁, h.user₂, h.platform⟩, rfl, rfl⟩

theorem reaction_platform {σ : Type} {c : Core} {tpc : Word} {host : Host σ} {h : σ}
    (hu : c.environment.isUser = false) : (c.reaction tpc host h).platform = c.platform := by
  unfold reaction
  split
  · exact State.respond_platform hu
  · rfl

/-- A reaction depends on nothing that task mode cannot reach, and not on the host. -/
theorem reaction_alike {σ₁ σ₂ : Type} (h : c₁.Alike S c₂) (tpc : Word) (host₁ : Host σ₁) (h₁ : σ₁)
    (host₂ : Host σ₂) (h₂ : σ₂) :
    (c₁.reaction tpc host₁ h₁).result = (c₂.reaction tpc host₂ h₂).result ∧
      (c₁.reaction tpc host₁ h₁).state = (c₂.reaction tpc host₂ h₂).state := by
  unfold reaction
  rw [h.state]
  cases hc : c₂.state.cause.isRaised with
  | false => exact ⟨rfl, rfl⟩
  | true =>
      rw [if_pos rfl, if_pos rfl]
      cases hm : c₂.state.mode with
      | task =>
          rw [State.respond_task (s := { c₂.state with nextTpc := tpc }) h.user₁ hm,
            State.respond_task (s := { c₂.state with nextTpc := tpc }) h.user₂ hm]
          exact ⟨rfl, rfl⟩
      | scheduler =>
          rw [State.respond_scheduler (s := { c₂.state with nextTpc := tpc }) h.user₁ hm,
            State.respond_scheduler (s := { c₂.state with nextTpc := tpc }) h.user₂ hm]
          exact ⟨rfl, rfl⟩

end Core

/-- Machines that are alike follow their reactions alike. -/
theorem StepOutcome.Follows.alike {σ₁ σ₂ : Type} {S : Nat → Prop} {c₁ c₂ : Core} {tpc : Word}
    {host₁ : Host σ₁} {h₁ : σ₁} {host₂ : Host σ₂} {h₂ : σ₂} {r₁ : StepOutcome σ₁}
    {r₂ : StepOutcome σ₂} (f₁ : r₁.Follows c₁ (c₁.reaction tpc host₁ h₁))
    (f₂ : r₂.Follows c₂ (c₂.reaction tpc host₂ h₂)) (h : c₁.Alike S c₂) :
    r₁.result = r₂.result ∧ r₁.machine.core.Alike S r₂.machine.core ∧
      r₁.machine.platform = c₁.platform ∧ r₂.machine.platform = c₂.platform := by
  obtain ⟨hresult, hstate⟩ := Core.reaction_alike h tpc host₁ h₁ host₂ h₂
  have hp₁ : (c₁.reaction tpc host₁ h₁).platform = c₁.platform :=
    Core.reaction_platform h.user₁
  have hp₂ : (c₂.reaction tpc host₂ h₂).platform = c₂.platform :=
    Core.reaction_platform h.user₂
  unfold StepOutcome.Follows at f₁ f₂
  rw [hresult, hp₁] at f₁
  rw [hp₂] at f₂
  cases hr : (c₂.reaction tpc host₂ h₂).result with
  | error e =>
      rw [hr] at f₁ f₂
      refine ⟨f₁.result.trans f₂.result.symm, ?_, f₁.platform, f₂.platform⟩
      rw [f₁.core, f₂.core]
      exact ⟨hstate, h.interruptPending, h.user₁, h.user₂, h.platform⟩
  | ok halt =>
      rw [hr] at f₁ f₂
      obtain ⟨x₁, d₁, e₁, l₁⟩ := f₁
      obtain ⟨x₂, d₂, e₂, l₂⟩ := f₂
      obtain ⟨rfl, hd, hd₁, hd₂⟩ :=
        e₁.alike e₂ ⟨hstate, h.interruptPending, h.user₁, h.user₂, h.platform⟩
      refine ⟨l₁.result.trans l₂.result.symm, ?_, l₁.platform.trans hd₁, l₂.platform.trans hd₂⟩
      rw [l₁.core, l₂.core]
      exact hd

/-! ## Steps -/

namespace Machine

variable {σ₁ σ₂ : Type} {w : Windows} {m₁ m₂ : Machine} {host₁ : Host σ₁} {host₂ : Host σ₂}
  {h₁ : σ₁} {h₂ : σ₂}

theorem fetched_lockstep (h : m₁.core.Alike w.Reaches m₂.core) (hw : m₁.platform.windows = w)
    (ht : m₁.state.mode = .task) : Lockstep w m₁.platform m₂.platform m₁.fetched m₂.fetched := by
  have hs : m₁.state = m₂.state := h.state
  unfold fetched
  rw [← hs, ht]
  exact Platform.fetch_lockstep h.platform hw _

/-- Both machines begin the next instruction in the same state, and either it is built on
neither or it has the same effects on both. -/
theorem attempt_lockstep (h : m₁.core.Alike w.Reaches m₂.core) (hw : m₁.platform.windows = w)
    (ht : m₁.state.mode = .task) :
    (∃ e, m₁.attempt = .error e ∧ m₂.attempt = .error e) ∨
      ∃ o₁ o₂, m₁.attempt = .ok o₁ ∧ m₂.attempt = .ok o₂ ∧
        Lockstep w m₁.platform m₂.platform o₁ o₂ := by
  have hs : m₁.state = m₂.state := h.state
  obtain ⟨result, q₁, q₂, hf₁, hf₂, hm⟩ := fetched_lockstep h hw ht
  unfold attempt begun
  rw [hf₁, hf₂, hs]
  cases result with
  | error fault => exact .inr ⟨_, _, rfl, rfl, _, q₁, q₂, rfl, rfl, hm⟩
  | ok d =>
      have hbegun : (m₂.state.beginInstruction (fetchedClass (some d)).2).mode = .task := by
        rw [← hs]
        exact ht
      rcases d.insn.execute_lockstep hm.alike (hm.windows.trans hw) hbegun with
        herror | ⟨o₁, o₂, ho₁, ho₂, effects, s₁, s₂, he₁, he₂, hn⟩
      · exact .inl herror
      · exact .inr ⟨o₁, o₂, ho₁, ho₂, effects, s₁, s₂, he₁, he₂, hm.trans hn⟩

theorem begun_alike (h : m₁.core.Alike w.Reaches m₂.core) (hw : m₁.platform.windows = w)
    (ht : m₁.state.mode = .task) : m₁.begun = m₂.begun := by
  have hs : m₁.state = m₂.state := h.state
  obtain ⟨result, q₁, q₂, hf₁, hf₂, -⟩ := fetched_lockstep h hw ht
  unfold begun
  rw [hf₁, hf₂, hs]

/-- A step of a task confines it: two machines that are alike take it alike. -/
theorem step_confined (host₁ : Host σ₁) (h₁ : σ₁) (host₂ : Host σ₂) (h₂ : σ₂)
    (h : m₁.core.Alike w.Reaches m₂.core) (hw : m₁.platform.windows = w)
    (ht : m₁.state.mode = .task) :
    (m₁.step host₁ h₁).result = (m₂.step host₂ h₂).result ∧
      Core.Confined w m₁.platform m₂.platform (m₁.step host₁ h₁).machine.core
        (m₂.step host₂ h₂).machine.core := by
  have hs : m₁.state = m₂.state := h.state
  have hbegun := begun_alike h hw ht
  rcases attempt_lockstep h hw ht with ⟨e, ha₁, ha₂⟩ | ⟨o₁, o₂, ha₁, ha₂, hl⟩
  · obtain ⟨result, q₁, q₂, hf₁, hf₂, hm⟩ := fetched_lockstep h hw ht
    have l₁ := step_unbuilt ha₁ host₁ h₁
    have l₂ := step_unbuilt ha₂ host₂ h₂
    rw [hf₁] at l₁
    rw [hf₂, ← hbegun] at l₂
    refine ⟨l₁.result.trans l₂.result.symm, ?_⟩
    rw [l₁.core, l₂.core]
    exact ⟨⟨rfl, h.interruptPending, h.user₁, h.user₂, hm.alike⟩, hm.changed₁, hm.changed₂⟩
  · obtain ⟨effects, q₁, q₂, rfl, rfl, hm⟩ := hl
    rcases effects.apply_alike m₁.begun hm.alike with
      ⟨e, hp₁, hp₂⟩ | ⟨s, r₁, r₂, hp₁, hp₂, halike, hbus₁, hbus₂⟩
    · have l₁ := step_refused ha₁ hp₁ host₁ h₁
      have l₂ := step_refused ha₂ (hbegun ▸ hp₂) host₂ h₂
      rw [← hbegun] at l₂
      refine ⟨l₁.result.trans l₂.result.symm, ?_⟩
      rw [l₁.core, l₂.core]
      exact ⟨⟨rfl, h.interruptPending, h.user₁, h.user₂, hm.alike⟩, hm.changed₁, hm.changed₂⟩
    · have f₁ := step_follows ha₁ hp₁ host₁ h₁
      have f₂ := step_follows ha₂ (hbegun ▸ hp₂) host₂ h₂
      rw [← hs] at f₂
      obtain ⟨hresult, hc, hplatform₁, hplatform₂⟩ :=
        f₁.alike f₂ ⟨rfl, h.interruptPending, h.user₁, h.user₂, halike⟩
      refine ⟨hresult, hc, hm.changed₁.of_bus ?_, hm.changed₂.of_bus ?_⟩
      · exact (congrArg Platform.bus hplatform₁).trans hbus₁
      · exact (congrArg Platform.bus hplatform₂).trans hbus₂

/-! ## Runs -/

/-- A run of a task: every step starts in task mode and writes no window, and nothing is
loaded in between. -/
def TaskRun {σ : Type} (host : Host σ) (m : Machine) (h : σ) : List Action → Prop
  | [] => True
  | .step :: acts =>
    m.state.mode = .task ∧ m.windowWrite? = none ∧
      TaskRun host (m.step host h).machine (m.step host h).host acts
  | .interrupt :: acts => TaskRun host m.raiseInterrupt h acts
  | .load .. :: _ => False

theorem run_confined (acts : List Action) (m₁ m₂ : Machine) (h₁ : σ₁) (h₂ : σ₂)
    (h : m₁.core.Alike w.Reaches m₂.core) (hw : m₁.platform.windows = w)
    (hrun : m₁.TaskRun host₁ h₁ acts) :
    m₁.results host₁ h₁ acts = m₂.results host₂ h₂ acts ∧
      Core.Confined w m₁.platform m₂.platform (m₁.run host₁ h₁ acts).1.core
        (m₂.run host₂ h₂ acts).1.core := by
  induction acts generalizing m₁ m₂ h₁ h₂ with
  | nil =>
      have hm := Platform.Moved.refl h.platform
      exact ⟨rfl, h, hm.changed₁, hm.changed₂⟩
  | cons a acts ih =>
      cases a with
      | step =>
          obtain ⟨ht, hspare, hrest⟩ := hrun
          obtain ⟨hresult, hfirst⟩ := step_confined host₁ h₁ host₂ h₂ h hw ht
          have hwindows : (m₁.step host₁ h₁).machine.platform.windows = w := by
            rw [(step_windows h.platform.model₁ h.user₁ host₁ h₁).2, hspare]
            exact hw
          obtain ⟨hresults, hothers⟩ := ih _ _ _ (m₂.step host₂ h₂).host hfirst.alike hwindows hrest
          refine ⟨?_, hothers.alike, hfirst.changed₁.trans hothers.changed₁,
            hfirst.changed₂.trans hothers.changed₂⟩
          rw [results, results, hresult, hresults]
      | interrupt =>
          have hasked : m₁.raiseInterrupt.core.Alike w.Reaches m₂.raiseInterrupt.core :=
            ⟨h.state, rfl, h.user₁, h.user₂, h.platform⟩
          exact ih _ _ h₁ h₂ hasked hw hrun
      | load image args sp => exact hrun.elim

/-- Nothing outside the windows has an influence on a task, and a task changes nothing outside
its data window: in one step, whatever it is, and in any number of steps that leave the
windows alone. -/
theorem task_confined {σ₁ σ₂ : Type} (m₁ m₂ : Machine) (host₁ : Host σ₁) (host₂ : Host σ₂)
    (h₁ : σ₁) (h₂ : σ₂) (h : m₁.core.Alike m₁.platform.windows.Reaches m₂.core)
    (ht : m₁.state.mode = .task) :
    ((m₁.step host₁ h₁).result = (m₂.step host₂ h₂).result ∧
      Core.Confined m₁.platform.windows m₁.platform m₂.platform (m₁.step host₁ h₁).machine.core
        (m₂.step host₂ h₂).machine.core) ∧
    ∀ acts, m₁.TaskRun host₁ h₁ acts →
      m₁.results host₁ h₁ acts = m₂.results host₂ h₂ acts ∧
        Core.Confined m₁.platform.windows m₁.platform m₂.platform (m₁.run host₁ h₁ acts).1.core
          (m₂.run host₂ h₂ acts).1.core := by
  refine ⟨step_confined host₁ h₁ host₂ h₂ h rfl ht, ?_⟩
  intro acts hrun
  exact run_confined acts m₁ m₂ h₁ h₂ h rfl hrun

/-- A task of one page that stores a word there, in front of a byte that is out of its reach. -/
def neighbour (secret : Byte) : Machine where
  state := { regs := RegFile.set {} 5 (.int 16) }
  platform :=
    { model := .windowed
      bus := { devices := [.ram ((Ram.setBytes ⟨0, 2048, ∅⟩ 0 [0x50, 0xe7]).setByte 1024 secret)] }
      inst := ⟨0, 0⟩
      data := ⟨0, 0⟩ }
  environment := .operating

theorem task_confined_neighbour :
    ((neighbour 1).step Host.noting none).result = ((neighbour 2).step Host.noting none).result ∧
      (neighbour 1).TaskRun Host.noting none [.interrupt, .step] ∧
      (neighbour 1).results Host.noting none [.interrupt, .step] =
        (neighbour 2).results Host.noting none [.interrupt, .step] := by
  have hpage : ∀ j, (neighbour 1).platform.windows.Reaches j → j < 1024 := by
    rintro j (hinst | hdata)
    · have hle : j / 1024 ≤ 0 := hinst.page_le
      omega
    · have hle : j / 1024 ≤ 0 := hdata.page_le
      omega
  have halike : (neighbour 1).core.Alike (neighbour 1).platform.windows.Reaches
      (neighbour 2).core := by
    refine ⟨rfl, rfl, rfl, rfl, rfl, rfl, rfl, _, _, rfl, rfl, rfl, rfl, ?_⟩
    intro j _ hreach
    have hlt : 0 + j < 1024 := hpage _ hreach
    rw [Ram.byte_setByte, Ram.byte_setByte, if_neg (by omega), if_neg (by omega)]
  have hrun : (neighbour 1).TaskRun Host.noting none [.interrupt, .step] := by
    refine ⟨rfl, ?_, trivial⟩
    decide +kernel
  have hconfined := task_confined (neighbour 1) (neighbour 2) Host.noting Host.noting none none
    halike rfl
  exact ⟨hconfined.1.1, hrun, (hconfined.2 _ hrun).1⟩

end Machine

end TypedCore
