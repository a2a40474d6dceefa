import TypedCore.Proofs.Encoding.Operands
import TypedCore.Proofs.Execution.Behaviour
import TypedCore.Proofs.Execution.Reaction

/-!
# The ways a step can go

`Machine.step` is a long function, and most of what is said about it does not
concern the trace, the profile or the memory record. A `Core` is a machine
without these notes, and four lemmas say what a step does to it:

* `step_unbuilt`: the instruction is not built, and nothing is committed;
* `step_refused`: a status register or a register does not exist, and nothing
  is committed;
* `step_retired`: the effects are applied and committed;
* `step_raised`: a cause was raised, and what the reaction to it leaves behind
  is committed.

`Core.Ends` says what a commit does after the shadow is known: a halt, a
device's exit request, an interrupt, or none of these.
-/

namespace TypedCore

/-! ## Machines without notes -/

/-- A machine without trace, profile and memory record. -/
structure Core where
  state : State
  platform : Platform
  environment : Environment
  interruptPending : Bool

/-- A machine without what was noted about its run. -/
def Machine.core (m : Machine) : Core :=
  ⟨m.state, m.platform, m.environment, m.interruptPending⟩

/-- A step that ends with a given result and leaves a given machine and host. -/
structure StepOutcome.Leaves {σ : Type} (r : StepOutcome σ)
    (result : Except HostFault (Option Halt)) (c : Core) (h : σ) : Prop where
  result : r.result = result
  core : r.machine.core = c
  host : r.host = h

namespace StepOutcome.Leaves

variable {σ : Type} {r : StepOutcome σ} {result : Except HostFault (Option Halt)} {c : Core} {h : σ}

theorem state (l : r.Leaves result c h) : r.machine.state = c.state := congrArg Core.state l.core

theorem platform (l : r.Leaves result c h) : r.machine.platform = c.platform :=
  congrArg Core.platform l.core

theorem environment (l : r.Leaves result c h) : r.machine.environment = c.environment :=
  congrArg Core.environment l.core

theorem interruptPending (l : r.Leaves result c h) :
    r.machine.interruptPending = c.interruptPending :=
  congrArg Core.interruptPending l.core

end StepOutcome.Leaves

/-! ## Committing -/

theorem Cause.eq_none {c : Cause} (h : c.isRaised = false) : c = .none := by
  cases c <;> first | rfl | cases h

namespace Core

/-- The machine with its shadow made current. -/
def committed (c : Core) : Core := { c with state := c.state.commit }

/-- How an instruction ends whose reaction asks for a halt or for none: the halt that the
step reports, and the machine after it. -/
inductive Ends (c : Core) : Option Halt → Option Halt → Core → Prop where
  | halted (halt : Halt) : Ends c (some halt) (some halt) c.committed
  | exited (halt : Halt) (bus : Bus) (hexit : c.platform.bus.takeExit = (some halt, bus)) :
      Ends c none (some halt) { c.committed with platform := { c.platform with bus } }
  | interrupted (s : State) (hexit : c.platform.bus.takeExit.1 = none)
      (hpending : c.interruptPending = true)
      (hs : c.state.commit.takeInterrupt c.environment = some s) :
      Ends c none none { c with state := s, interruptPending := false }
  | wentOn (hexit : c.platform.bus.takeExit.1 = none)
      (hs : c.interruptPending = true → c.state.commit.takeInterrupt c.environment = none) :
      Ends c none none c.committed

/-- There is only one way in which a given instruction can end. -/
theorem Ends.unique {c d e : Core} {halt x y : Option Halt} (h₁ : c.Ends halt x d)
    (h₂ : c.Ends halt y e) : x = y ∧ d = e := by
  cases h₁ with
  | halted halt => cases h₂; exact ⟨rfl, rfl⟩
  | exited halt bus hexit =>
      cases h₂ with
      | exited halt' bus' hexit' =>
          obtain ⟨hhalt, hbus⟩ := Prod.mk.inj (hexit.symm.trans hexit')
          exact ⟨hhalt, by rw [hbus]⟩
      | interrupted s hexit' => rw [hexit] at hexit'; cases hexit'
      | wentOn hexit' => rw [hexit] at hexit'; cases hexit'
  | interrupted s hexit hpending hs =>
      cases h₂ with
      | exited halt' bus' hexit' => rw [hexit'] at hexit; cases hexit
      | interrupted s' _ _ hs' =>
          obtain rfl := Option.some.inj (hs.symm.trans hs')
          exact ⟨rfl, rfl⟩
      | wentOn _ hs' => rw [hs' hpending] at hs; cases hs
  | wentOn hexit hs =>
      cases h₂ with
      | exited halt' bus' hexit' => rw [hexit'] at hexit; cases hexit
      | interrupted s' _ hpending hs' => rw [hs hpending] at hs'; cases hs'
      | wentOn => exact ⟨rfl, rfl⟩

theorem Ends.sameContents {c d : Core} {halt x : Option Halt} (h : c.Ends halt x d) :
    c.platform.SameContents d.platform := by
  cases h with
  | halted halt => exact .refl _
  | exited halt bus hexit =>
      have hbus : bus = c.platform.bus.takeExit.2 := (congrArg Prod.snd hexit).symm
      rw [hbus]
      exact .takeExit c.platform
  | interrupted s hexit hpending hs => exact .refl _
  | wentOn hexit hs => exact .refl _

theorem Ends.environment {c d : Core} {halt x : Option Halt} (h : c.Ends halt x d) :
    d.environment = c.environment := by
  cases h <;> rfl

/-- Nothing that ends an instruction touches a register. -/
theorem Ends.regs {c d : Core} {halt x : Option Halt} (h : c.Ends halt x d) :
    d.state.regs = c.state.regs := by
  cases h with
  | halted halt => rfl
  | exited halt bus hexit => rfl
  | interrupted s hexit hpending hs =>
      rw [State.takeInterrupt_eq hs]
      rfl
  | wentOn hexit hs => rfl

theorem Ends.cause {c d : Core} {halt x : Option Halt} (h : c.Ends halt x d) :
    d.state.cause = c.state.cause ∨ d.state.cause = .hardwareInterrupt := by
  cases h with
  | halted halt => exact .inl rfl
  | exited halt bus hexit => exact .inl rfl
  | interrupted s hexit hpending hs =>
      right
      rw [State.takeInterrupt_eq hs]
      rfl
  | wentOn hexit hs => exact .inl rfl

/-- Where no interrupt may be taken, all that can follow is a device's exit request, and an
interrupt that waits goes on waiting. -/
theorem Ends.uninterrupted {c d : Core} {halt x : Option Halt} (h : c.Ends halt x d)
    (hno : halt = none → c.state.commit.takeInterrupt c.environment = none) :
    x = halt.or c.platform.bus.takeExit.1 ∧ d.state = c.state.commit ∧
      d.interruptPending = c.interruptPending := by
  cases h with
  | halted halt => exact ⟨rfl, rfl, rfl⟩
  | exited halt bus hexit => exact ⟨(congrArg Prod.fst hexit).symm, rfl, rfl⟩
  | interrupted s hexit hpending hs => rw [hno rfl] at hs; cases hs
  | wentOn hexit hs => exact ⟨hexit.symm, rfl, rfl⟩

end Core

/-- A step that ends with a commit of a given machine. -/
def StepOutcome.Commits {σ : Type} (r : StepOutcome σ) (c : Core) (halt : Option Halt) (h : σ) :
    Prop :=
  ∃ x d, c.Ends halt x d ∧ r.Leaves (.ok x) d h

namespace Machine

variable {σ : Type} (m : Machine)

theorem core_takenCounted (begun : State) : (m.takenCounted begun).core = m.core := by
  simp only [takenCounted]
  split <;> rfl

theorem finish_ends (begun : State) (halt : Option Halt) :
    m.core.Ends halt (m.finish begun halt).1 (m.finish begun halt).2.core := by
  have hcore := core_takenCounted m begun
  unfold finish
  generalize m.takenCounted begun = n at hcore
  rw [← hcore]
  cases halt with
  | some halt => exact .halted halt
  | none =>
      simp only
      split
      · rename_i halt bus hexit
        exact .exited halt bus hexit
      · rename_i bus hexit
        have hnone : n.core.platform.bus.takeExit.1 = none := congrArg Prod.fst hexit
        unfold pollInterrupt
        split
        · rename_i hpending
          split
          · rename_i s hs
            exact .interrupted s hnone hpending hs
          · rename_i hs
            exact .wentOn hnone fun _ => hs
        · rename_i hpending
          exact .wentOn hnone fun hp => absurd hp hpending

/-! ## Fetching and executing -/

/-- What the machine fetches next, and the platform once it did. -/
def fetched : Except MemFault Decoded × Platform :=
  m.platform.fetch m.state.mode m.state.pc.even

/-- A fetch leaves nothing behind but the device that it used. -/
theorem fetched_usedLast : ∃ i, m.fetched.2 = m.platform.usedLast i :=
  Platform.fetch_snd m.platform m.state.mode m.state.pc.even

/-- The instruction that comes next, unless it cannot be fetched. -/
def insn? : Option Insn := m.fetched.1.toOption.map Decoded.insn

/-- The state that the next instruction begins with. -/
def begun : State := m.state.beginInstruction (fetchedClass m.fetched.1.toOption).2

/-- The effects of the next instruction, or of the fault that its fetch ends in, and the
platform after its memory access. -/
def attempt : Except HostFault (Effects × Platform) :=
  match m.fetched with
  | (.error fault, p) => .ok (.fault fault, p)
  | (.ok d, p) => d.insn.execute m.begun p

/-- The cause that the next instruction raises, in its fetch or when it is executed. -/
def raised : Cause :=
  match m.attempt with
  | .ok (effects, _) => effects.cause
  | .error _ => .none

/-- The address that goes with the cause of the next instruction. -/
def raisedAddr : Option Word :=
  match m.attempt with
  | .ok (effects, _) => effects.faultAddr
  | .error _ => none

theorem raised_eq {m : Machine} {effects : Effects} {p : Platform}
    (ha : m.attempt = .ok (effects, p)) : m.raised = effects.cause := by
  unfold raised
  rw [ha]

theorem raisedAddr_eq {m : Machine} {effects : Effects} {p : Platform}
    (ha : m.attempt = .ok (effects, p)) : m.raisedAddr = effects.faultAddr := by
  unfold raisedAddr
  rw [ha]

theorem fetched_decode {d : Decoded} (h : m.fetched.1 = .ok d) :
    ∃ word ext, d = decode word ext := by
  unfold fetched Platform.fetch at h
  split at h
  · cases h
  · split at h
    · exact ⟨_, _, (Except.ok.inj h).symm⟩
    · cases h

theorem insn?_valid {insn : Insn} (hi : m.insn? = some insn) : insn.Valid := by
  obtain ⟨d, hd, rfl⟩ := Option.map_eq_some_iff.mp hi
  cases hf : m.fetched.1 with
  | error fault => rw [hf] at hd; cases hd
  | ok d' =>
      rw [hf] at hd
      obtain rfl := Option.some.inj hd
      obtain ⟨word, ext, rfl⟩ := m.fetched_decode hf
      exact decode_valid word ext

theorem attempt_of_insn? {insn : Insn} (hi : m.insn? = some insn) :
    m.attempt = insn.execute m.begun m.fetched.2 := by
  obtain ⟨d, hd, rfl⟩ := Option.map_eq_some_iff.mp hi
  unfold attempt
  split
  · rename_i fault q hf
    rw [hf] at hd
    cases hd
  · rename_i d' q hf
    rw [hf] at hd
    obtain rfl := Option.some.inj hd
    rw [hf]

theorem attempt_of_unfetched {fault : MemFault} (hf : m.fetched.1 = .error fault) :
    m.attempt = .ok (.fault fault, m.fetched.2) := by
  unfold attempt
  split
  · rename_i fault' q hfetched
    rw [hfetched] at hf ⊢
    rw [Except.error.inj hf]
  · rename_i d q hfetched
    rw [hfetched] at hf
    cases hf

/-- Only an instruction asks for a status register, and the effects are its alone. -/
theorem insn?_of_csr {effects : Effects} {p : Platform} {access : CsrAccess}
    (ha : m.attempt = .ok (effects, p))
    (hcsr : effects.csr = some access) :
    ∃ insn, m.insn? = some insn ∧ insn.csrAccess m.state.regs = some access := by
  unfold insn?
  unfold attempt at ha
  split at ha
  · obtain ⟨rfl, -⟩ := Prod.mk.inj (Except.ok.inj ha)
    cases hcsr
  · rename_i d q hf
    refine ⟨d.insn, by rw [hf]; rfl, ?_⟩
    rw [← hcsr, Insn.execute_csr ha]
    rfl

theorem attempt_csr {insn : Insn} {access : CsrAccess} (hi : m.insn? = some insn)
    (haccess : insn.csrAccess m.state.regs = some access) :
    m.attempt = .ok ({ csr := some access }, m.fetched.2) := by
  rw [m.attempt_of_insn? hi]
  cases insn <;> cases haccess <;> rfl

/-- What was fetched always has a text. -/
theorem fetchedText_ok : ∃ t, fetchedText m.fetched.1.toOption = .ok t := by
  cases hf : m.fetched.1 with
  | error fault => exact ⟨_, rfl⟩
  | ok d =>
      obtain ⟨word, ext, rfl⟩ := m.fetched_decode hf
      exact decode_text_ok word ext

theorem step_eq (host : Host σ) (h : σ) :
    m.step host h =
      match m.attempt with
      | .error e =>
        ⟨.error e, { m with record := none, state := m.begun, platform := m.fetched.2 }, h⟩
      | .ok (effects, p) =>
        { m with record := none, state := m.begun, platform := p }.retire
          m.fetched.1.toOption effects m.state.tpc host h := by
  unfold step attempt begun fetched
  dsimp only
  generalize m.platform.fetch m.state.mode m.state.pc.even = f
  obtain ⟨_ | d, p⟩ := f
  · rfl
  · have hlen : (fetchedClass (Except.toOption (.ok d : Except MemFault Decoded))).2 = d.len := rfl
    rw [hlen]
    cases d.insn.execute (m.state.beginInstruction d.len) p <;> rfl

/-! ## Retiring -/

theorem traced_ok {fetched : Option Decoded} (begun : State)
    (ht : ∃ t, fetchedText fetched = .ok t) :
    ∃ lines, m.traced fetched begun = .ok { m with trace := lines } := by
  obtain ⟨t, ht⟩ := ht
  unfold traced
  split
  · rename_i hm
    exact ⟨none, by rw [← hm]; rfl⟩
  · simp [ht, bind, Except.bind, pure, Except.pure]

end Machine

/-- The reaction to the cause that stands in the shadow, with the task's program counter
put back to `tpc`; nothing if there is no cause. -/
def Core.reaction {σ : Type} (c : Core) (tpc : Word) (host : Host σ) (h : σ) : Response σ :=
  if c.state.cause.isRaised then
    { c.state with nextTpc := tpc }.respond c.environment c.platform host h
  else ⟨.ok none, c.state, c.platform, h⟩

/-- A step of a machine with core `c` that ends as a reaction asks: with its fault, or with
a commit of what it left behind. -/
def StepOutcome.Follows {σ : Type} (r : StepOutcome σ) (c : Core) (reaction : Response σ) : Prop :=
  match reaction.result with
  | .error e =>
    r.Leaves (.error e) { c with state := reaction.state, platform := reaction.platform }
      reaction.host
  | .ok halt =>
    r.Commits { c with state := reaction.state, platform := reaction.platform } halt reaction.host

namespace StepOutcome

variable {σ : Type} {r : StepOutcome σ} {c : Core} {halt : Option Halt} {reaction : Response σ}
  {h : σ}

theorem Commits.sameContents (hr : r.Commits c halt h) :
    c.platform.SameContents r.machine.platform := by
  obtain ⟨x, d, hends, hl⟩ := hr
  rw [hl.platform]
  exact hends.sameContents

theorem Commits.environment (hr : r.Commits c halt h) : r.machine.environment = c.environment := by
  obtain ⟨x, d, hends, hl⟩ := hr
  exact hl.environment.trans hends.environment

theorem Follows.sameContents (hf : r.Follows c reaction) :
    reaction.platform.SameContents r.machine.platform := by
  unfold Follows at hf
  split at hf
  · rw [hf.platform]
    exact .refl _
  · exact hf.sameContents

theorem Follows.environment (hf : r.Follows c reaction) :
    r.machine.environment = c.environment := by
  unfold Follows at hf
  split at hf
  · exact hf.environment
  · obtain ⟨x, d, hends, hl⟩ := hf
    exact hl.environment.trans hends.environment

end StepOutcome

namespace Machine

variable {σ : Type} {m : Machine} {effects : Effects} {s : State} {p q : Platform}

theorem dispatch_leaves (m : Machine) (tpc : Word) (host : Host σ) (h : σ) :
    (m.dispatch tpc host h).Leaves (m.core.reaction tpc host h).result
      ⟨(m.core.reaction tpc host h).state, (m.core.reaction tpc host h).platform,
        m.environment, m.interruptPending⟩
      (m.core.reaction tpc host h).host := by
  unfold dispatch Core.reaction
  by_cases hc : m.state.cause.isRaised = true
  · have hc' : m.core.state.cause.isRaised = true := hc
    rw [if_pos hc, if_pos hc']
    exact ⟨rfl, rfl, rfl⟩
  · have hc' : ¬ m.core.state.cause.isRaised = true := hc
    rw [if_neg hc, if_neg hc']
    exact ⟨rfl, rfl, rfl⟩

/-- A step whose dispatch left what a reaction asks for goes on as it asks. -/
theorem follows_of_dispatch {r : StepOutcome σ} {reaction : Response σ} (c : Core) (begun : State)
    (hd : r.Leaves reaction.result
      ⟨reaction.state, reaction.platform, c.environment, c.interruptPending⟩ reaction.host) :
    StepOutcome.Follows
      (match r.result with
        | .error e => ⟨.error e, r.machine, r.host⟩
        | .ok halt =>
          ⟨.ok (r.machine.finish begun halt).1, (r.machine.finish begun halt).2, r.host⟩)
      c reaction := by
  unfold StepOutcome.Follows
  rw [hd.result]
  cases reaction.result with
  | error e => exact ⟨rfl, hd.core, hd.host⟩
  | ok halt =>
      have hends := finish_ends r.machine begun halt
      rw [hd.core] at hends
      exact ⟨_, _, hends, rfl, rfl, hd.host⟩

/-- Once the effects are applied, a step goes on as the cause in the shadow asks. -/
theorem retire_follows {fetched : Option Decoded} {tpc : Word} (host : Host σ) (h : σ)
    (ht : ∃ t, fetchedText fetched = .ok t)
    (happly : effects.apply m.state m.platform = .ok (s, p)) :
    (m.retire fetched effects tpc host h).Follows ⟨s, p, m.environment, m.interruptPending⟩
      (Core.reaction ⟨s, p, m.environment, m.interruptPending⟩ tpc host h) := by
  obtain ⟨lines, hl⟩ := traced_ok
    { m with record := effects.record, state := s, platform := p } m.state ht
  have hd := dispatch_leaves
    (({ m with record := effects.record, state := s, platform := p, trace := lines } :
      Machine).counted fetched) tpc host h
  have hf := follows_of_dispatch ⟨s, p, m.environment, m.interruptPending⟩ m.state hd
  unfold retire
  dsimp only at hl ⊢
  rw [happly]
  dsimp only
  rw [hl]
  exact hf

/-! ## Steps -/

theorem step_unbuilt {e : HostFault} (ha : m.attempt = .error e) (host : Host σ) (h : σ) :
    (m.step host h).Leaves (.error e)
      ⟨m.begun, m.fetched.2, m.environment, m.interruptPending⟩ h := by
  rw [step_eq, ha]
  exact ⟨rfl, rfl, rfl⟩

theorem step_refused {e : HostFault} (ha : m.attempt = .ok (effects, p))
    (happly : effects.apply m.begun p = .error e) (host : Host σ) (h : σ) :
    (m.step host h).Leaves (.error e) ⟨m.begun, p, m.environment, m.interruptPending⟩ h := by
  rw [step_eq, ha]
  simp only [retire, happly]
  exact ⟨rfl, rfl, rfl⟩

theorem step_follows (ha : m.attempt = .ok (effects, p))
    (happly : effects.apply m.begun p = .ok (s, q)) (host : Host σ) (h : σ) :
    (m.step host h).Follows ⟨s, q, m.environment, m.interruptPending⟩
      (Core.reaction ⟨s, q, m.environment, m.interruptPending⟩ m.state.tpc host h) := by
  rw [step_eq, ha]
  exact retire_follows host h m.fetchedText_ok happly

theorem step_retired (ha : m.attempt = .ok (effects, p)) (hc : effects.cause.isRaised = false)
    (happly : effects.apply m.begun p = .ok (s, q)) (host : Host σ) (h : σ) :
    (m.step host h).Commits ⟨s, q, m.environment, m.interruptPending⟩ none h := by
  have hf := step_follows ha happly host h
  have hs : s.cause = .none := (Effects.apply_kept hc happly).cause
  simp only [Core.reaction, hs, Cause.isRaised, Bool.false_eq_true, if_false] at hf
  exact hf

/-- What the reaction to a cause starts from: the shadow with the cause in it, and the
task's program counter back where it was. -/
def raisedState (m : Machine) (effects : Effects) : State :=
  { m.begun with
    cause := effects.cause, faultAddr := effects.faultAddr, nextTpc := m.state.tpc }

theorem step_raised (ha : m.attempt = .ok (effects, p)) (hc : effects.cause.isRaised = true)
    (host : Host σ) (h : σ) :
    (m.step host h).Follows ⟨m.raisedState effects, p, m.environment, m.interruptPending⟩
      ((m.raisedState effects).respond m.environment p host h) := by
  have hf := step_follows ha (Effects.apply_raised hc m.begun p) host h
  simp only [Core.reaction, hc, if_true] at hf
  exact hf

/-- A step that raises a cause leaves the state that the reaction made, and an interrupt that
waits goes on waiting. Only a fault of the host keeps the shadow from being committed. -/
theorem step_reacted (ha : m.attempt = .ok (effects, p)) (hc : effects.cause.isRaised = true)
    (host : Host σ) (h : σ) :
    let reaction := (m.raisedState effects).respond m.environment p host h
    ((∃ e, reaction.result = .error e) ∧ (m.step host h).machine.state = reaction.state ∨
        (m.step host h).machine.state = reaction.state.commit) ∧
      (m.step host h).machine.interruptPending = m.interruptPending := by
  intro reaction
  have hf := step_raised ha hc host h
  unfold StepOutcome.Follows at hf
  split at hf
  · rename_i e hresult
    exact ⟨.inl ⟨⟨e, hresult⟩, hf.state⟩, hf.interruptPending⟩
  · rename_i halt hresult
    obtain ⟨x, d, hends, hl⟩ := hf
    obtain ⟨-, hstate, hpending⟩ := hends.uninterrupted fun hnone =>
      State.respond_untaken (hnone ▸ hresult)
    exact ⟨.inr (hl.state.trans hstate), hl.interruptPending.trans hpending⟩

/-- Whatever the reaction to a raised cause comes to, nothing else of the processor changes
with it. -/
theorem step_raised_state (ha : m.attempt = .ok (effects, p)) (hc : effects.cause.isRaised = true)
    (host : Host σ) (h : σ) :
    ∃ t, (m.raisedState effects).Kept t ∧
      ((m.step host h).machine.state = t ∨ (m.step host h).machine.state = t.commit) ∧
      (m.step host h).machine.interruptPending = m.interruptPending := by
  obtain ⟨hstate, hpending⟩ := step_reacted ha hc host h
  exact ⟨_, (m.raisedState effects).respond_kept m.environment p host h,
    hstate.imp_left And.right, hpending⟩

/-- The ways a step can go, with what is known of each. -/
inductive Goes (m : Machine) (host : Host σ) (h : σ) : Prop where
  | unbuilt (e : HostFault) (ha : m.attempt = .error e)
      (hl : (m.step host h).Leaves (.error e)
        ⟨m.begun, m.fetched.2, m.environment, m.interruptPending⟩ h)
  | refused (effects : Effects) (p : Platform) (e : HostFault) (ha : m.attempt = .ok (effects, p))
      (hc : effects.cause.isRaised = false) (happly : effects.apply m.begun p = .error e)
      (hl : (m.step host h).Leaves (.error e) ⟨m.begun, p, m.environment, m.interruptPending⟩ h)
  | raised (effects : Effects) (p : Platform) (ha : m.attempt = .ok (effects, p))
      (hc : effects.cause.isRaised = true)
      (hf : (m.step host h).Follows ⟨m.raisedState effects, p, m.environment, m.interruptPending⟩
        ((m.raisedState effects).respond m.environment p host h))
  | retired (effects : Effects) (p : Platform) (s : State) (q : Platform)
      (ha : m.attempt = .ok (effects, p)) (hc : effects.cause.isRaised = false)
      (happly : effects.apply m.begun p = .ok (s, q))
      (hr : (m.step host h).Commits ⟨s, q, m.environment, m.interruptPending⟩ none h)

theorem step_goes (m : Machine) (host : Host σ) (h : σ) : m.Goes host h := by
  cases ha : m.attempt with
  | error e => exact .unbuilt e ha (step_unbuilt ha host h)
  | ok result =>
      obtain ⟨effects, p⟩ := result
      cases hc : effects.cause.isRaised with
      | true => exact .raised effects p ha hc (step_raised ha hc host h)
      | false =>
          cases happly : effects.apply m.begun p with
          | error e => exact .refused effects p e ha hc happly (step_refused ha happly host h)
          | ok applied =>
              exact .retired effects p applied.1 applied.2 ha hc happly
                (step_retired ha hc happly host h)

/-- The cause that a step leaves is the one that its instruction raised, or that of an
interrupt if there was none. -/
theorem step_cause (m : Machine) (host : Host σ) (h : σ) :
    (m.step host h).machine.state.cause = m.raised ∨
      m.raised = .none ∧ (m.step host h).machine.state.cause = .hardwareInterrupt := by
  cases m.step_goes host h with
  | unbuilt e ha hl =>
      left
      rw [hl.state, raised, ha]
      rfl
  | refused effects p e ha hc happly hl =>
      left
      rw [hl.state, raised_eq ha, Cause.eq_none hc]
      rfl
  | raised effects p ha hc hf =>
      left
      obtain ⟨t, hk, hstate | hstate, -⟩ := step_raised_state ha hc host h
      · rw [hstate, raised_eq ha]
        exact hk.cause
      · rw [hstate, raised_eq ha]
        exact hk.cause
  | retired effects p s q ha hc happly hr =>
      obtain ⟨x, d, hends, hl⟩ := hr
      have hs : s.cause = .none := (Effects.apply_kept hc happly).cause
      rw [hl.state, raised_eq ha, Cause.eq_none hc]
      rcases hends.cause with hkept | hinterrupt
      · exact .inl (hkept.trans hs)
      · exact .inr ⟨rfl, hinterrupt⟩

theorem step_environment (m : Machine) (host : Host σ) (h : σ) :
    (m.step host h).machine.environment = m.environment := by
  cases m.step_goes host h with
  | unbuilt e ha hl => exact hl.environment
  | refused effects p e ha hc happly hl => exact hl.environment
  | raised effects p ha hc hf => exact hf.environment
  | retired effects p s q ha hc happly hr => exact hr.environment

end Machine

end TypedCore
