import TypedCore.Machine.Rehearsal
import TypedCore.Proofs.Encoding.Agreement
import TypedCore.Proofs.Execution.Outcome
import TypedCore.Proofs.Execution.Run
import TypedCore.Proofs.Execution.Shadow

/-!
# Switching between task and scheduler

Mode and program counters are changed by effects, by the reaction to a cause, by
an interrupt and by loading. Here each of the three has one law. A raised cause
leads to scheduler mode, `stm` to task mode, and unless an interrupt is taken
that decides the mode (`Machine.step_mode`). A task does not touch `spc`
(`Machine.step_spc`), and a scheduler moves `tpc` with the jumps that say so and
with nothing else (`Machine.step_tpc`).

So a scheduler that enters task mode is resumed behind its `stm`, however long
the task runs and whatever brings it back.
-/

namespace TypedCore

/-! ## Entering task mode -/

theorem Word.even_add (a : Word) {b : Word} (hb : b.even = b) : (a.even + b).even = a.even + b := by
  have hbnat := congrArg BitVec.toNat hb
  rw [toNat_even] at hbnat
  apply BitVec.eq_of_toNat_eq
  rw [toNat_even, BitVec.toNat_add, toNat_even]
  omega

theorem Listing.Line.enterTask_len {x : Word} {interpolates : Nat → Prop} {c b a d len : Nat}
    (h : Line x interpolates c b a d len .enterTask) : len = 2 := by
  cases h with
  | alu h => cases h; rfl
  | tiny h => cases h
  | memory h => cases h
  | branch h => cases h
  | extended h => cases h

/-- An instruction that is listed with one length only is always decoded with it. -/
theorem decode_len {w : Half} {x : Word} {insn : Insn} {n : Nat} (hknown : insn ≠ .unknown)
    (hline : ∀ {ext interpolates c b a d len},
      Listing.Line ext interpolates c b a d len insn → len = n)
    (h : (decode w x).insn = insn) : (decode w x).len = n := by
  rcases listed_of_decode w x with hu | ⟨len, hl⟩
  · exact absurd (h.symm.trans hu) hknown
  · rw [(decode_of_listed hl).2]
    rw [h] at hl
    exact hline hl

/-- What `stm` asks for: task mode, where it is not there already. -/
def Effects.enterTask (mode : Mode) : Effects :=
  { nextMode := if mode = .scheduler then some .task else none }

namespace Insn.Asks

variable {insn : Insn} {s : State} {e : Effects}

theorem nextMode (h : insn.Asks s e) : e.nextMode = none ∨ insn = .enterTask := by
  cases h with
  | entersTask hi hmode => exact .inr hi
  | jumps target addr record ht => cases target <;> exact .inl rfl
  | _ => exact .inl rfl

theorem nextTpc (h : insn.Asks s e) : e.nextTpc = none ∨ insn.jumpTarget? = some .task := by
  cases h with
  | jumps target addr record ht =>
      cases target with
      | active => exact .inl rfl
      | task => exact .inr ht
  | _ => exact .inl rfl

end Insn.Asks

namespace Machine

variable {σ : Type} {m : Machine} {effects : Effects} {p : Platform} {host : Host σ} {h : σ}

theorem attempt_enterTask (hi : m.insn? = some .enterTask) :
    m.attempt = .ok (.enterTask m.state.mode, m.fetched.2) := by
  rw [m.attempt_of_insn? hi]
  have hmode : m.begun.mode = m.state.mode := rfl
  unfold Insn.execute
  dsimp only
  rw [hmode]
  cases m.state.mode <;> rfl

theorem attempt_nextMode (ha : m.attempt = .ok (effects, p)) :
    effects.nextMode.getD m.state.mode =
      if m.insn? = some .enterTask then .task else m.state.mode := by
  split
  · rename_i hi
    rw [attempt_enterTask hi] at ha
    cases ha
    cases m.state.mode <;> rfl
  · rename_i hi
    rcases attempt_asks ha with ⟨fault, -, rfl⟩ | ⟨insn, hinsn, -, hasks⟩
    · rfl
    · rcases hasks.nextMode with hnone | rfl
      · rw [hnone]
        rfl
      · exact absurd hinsn hi

theorem attempt_nextTpc (ha : m.attempt = .ok (effects, p))
    (hj : ∀ insn, m.insn? = some insn → insn.jumpTarget? ≠ some .task) :
    effects.nextTpc = none := by
  rcases attempt_asks ha with ⟨fault, -, rfl⟩ | ⟨insn, hinsn, -, hasks⟩
  · rfl
  · exact hasks.nextTpc.resolve_right (hj insn hinsn)

/-- The length of what was fetched, where the instruction alone decides it. -/
theorem fetched_len {insn : Insn} {n : Nat} (hi : m.insn? = some insn)
    (hlen : ∀ {w x}, (decode w x).insn = insn → (decode w x).len = n) :
    (fetchedClass m.fetched.1.toOption).2 = n := by
  obtain ⟨d, hd, hinsn⟩ := Option.map_eq_some_iff.mp hi
  rw [hd]
  cases hf : m.fetched.1 with
  | error fault => rw [hf] at hd; cases hd
  | ok d' =>
      rw [hf] at hd
      obtain rfl := Option.some.inj hd
      obtain ⟨word, ext, rfl⟩ := m.fetched_decode hf
      exact hlen hinsn

theorem begun_enterTask (hi : m.insn? = some .enterTask) (hmode : m.state.mode = .scheduler) :
    m.begun.nextSpc = m.state.spc.even + 2 := by
  have hlen : (fetchedClass m.fetched.1.toOption).2 = 2 :=
    fetched_len hi (decode_len (by decide) Listing.Line.enterTask_len)
  simp [begun, hlen, State.beginInstruction, hmode, State.fallThrough, State.pc]

/-! ## Steps -/

/-- A step that retires its effects commits the shadow that they move, unless an interrupt
changes the mode once more. -/
theorem retired_shadow {s : State} {q : Platform} (hc : effects.cause.isRaised = false)
    (happly : effects.apply m.begun p = .ok (s, q))
    (hr : (m.step host h).Commits ⟨s, q, m.environment, m.interruptPending⟩ none h) :
    (m.step host h).machine.state.spc = (effects.shadowed m.begun).nextSpc ∧
      (m.step host h).machine.state.tpc = (effects.shadowed m.begun).nextTpc ∧
      (m.step host h).machine.state.mode =
        if m.takesInterrupt host h then .scheduler else effects.nextMode.getD m.state.mode := by
  obtain ⟨regs, dirty, latch, rfl⟩ := Effects.apply_eq hc happly
  obtain ⟨x, d, hends, hl⟩ := hr
  unfold takesInterrupt
  rw [hl.interruptPending, hl.state]
  exact ⟨hends.spc, hends.tpc, hends.mode.trans (by rw [Effects.shadowed_nextMode]; rfl)⟩

/-- Where there is a scheduler, a step that raises a cause leads to it. -/
theorem raised_scheduled (hu : m.environment.isUser = false)
    (ha : m.attempt = .ok (effects, p)) (hc : effects.cause.isRaised = true) (host : Host σ)
    (h : σ) :
    (m.step host h).machine.state =
      { m.raisedState effects with nextMode := .scheduler }.commit := by
  obtain ⟨⟨⟨e, herror⟩, -⟩ | hstate, -⟩ := step_reacted ha hc host h
  · obtain ⟨-, halt, hhalt⟩ :=
      State.respond_scheduled (s := m.raisedState effects) (p := p) (h := h) hu rfl
    rw [hhalt] at herror
    cases herror
  · rw [hstate, (State.respond_scheduled hu rfl).1]

/-- The mode that the next instruction leads to. -/
def leadsTo (m : Machine) : Mode :=
  if m.raised.isRaised then .scheduler
  else if m.insn? = some .enterTask then .task
  else m.state.mode

/-- What the mode is after a step. -/
theorem step_mode (hu : m.environment.isUser = false) (host : Host σ) (h : σ) :
    (m.step host h).machine.state.mode =
      if m.takesInterrupt host h then .scheduler else m.leadsTo := by
  unfold leadsTo
  -- Of the four ways only the last can be `stm`, whose effects can always be applied.
  cases m.step_goes host h with
  | unbuilt e ha hl =>
      have hi : m.insn? ≠ some .enterTask := by
        intro hi
        rw [attempt_enterTask hi] at ha
        cases ha
      rw [untaken_of_pending hl.interruptPending, hl.state, raised, ha]
      simp [Cause.isRaised, hi]
      rfl
  | refused effects p e ha hc happly hl =>
      have hi : m.insn? ≠ some .enterTask := by
        intro hi
        rw [attempt_enterTask hi] at ha
        cases ha
        cases happly
      rw [untaken_of_pending hl.interruptPending, hl.state, raised_eq ha, hc]
      simp [hi]
      rfl
  | raised effects p ha hc hf =>
      rw [raised_scheduled hu ha hc host h, raised_eq ha, hc]
      simp [State.commit]
  | retired effects p s q ha hc happly hr =>
      rw [(retired_shadow hc happly hr).2.2, attempt_nextMode ha, raised_eq ha, hc]
      rfl

/-- A task does not move the scheduler's program counter, and no reaction does. -/
theorem step_spc (hmode : m.state.mode = .task) (host : Host σ) (h : σ) :
    (m.step host h).machine.state.spc = m.state.spc := by
  have hbegun : m.begun.nextSpc = m.state.spc := by
    simp [begun, State.beginInstruction, hmode]
  cases m.step_goes host h with
  | unbuilt e ha hl => rw [hl.state]; rfl
  | refused effects p e ha hc happly hl => rw [hl.state]; rfl
  | raised effects p ha hc hf =>
      -- A reaction that the host failed is not committed, so then it is `spc` that counts.
      obtain ⟨⟨-, hstate⟩ | hstate, -⟩ := step_reacted ha hc host h
      · rw [hstate]
        exact ((m.raisedState effects).respond_kept m.environment p host h).spc
      · rw [hstate]
        exact ((m.raisedState effects).respond_nextSpc m.environment p host h).trans hbegun
  | retired effects p s q ha hc happly hr =>
      rw [(retired_shadow hc happly hr).1, Effects.shadowed_nextSpc_task (s := m.begun) hmode]
      exact hbegun

/-- A scheduler moves the task's program counter with the jumps that say so. -/
theorem step_tpc (hu : m.environment.isUser = false) (hmode : m.state.mode = .scheduler)
    (hj : ∀ insn, m.insn? = some insn → insn.jumpTarget? ≠ some .task) (host : Host σ) (h : σ) :
    (m.step host h).machine.state.tpc = m.state.tpc := by
  cases m.step_goes host h with
  | unbuilt e ha hl => rw [hl.state]; rfl
  | refused effects p e ha hc happly hl => rw [hl.state]; rfl
  | raised effects p ha hc hf => rw [raised_scheduled hu ha hc host h]; rfl
  | retired effects p s q ha hc happly hr =>
      rw [(retired_shadow hc happly hr).2.1, Effects.shadowed_nextTpc (s := m.begun) hmode,
        attempt_nextTpc ha hj]
      simp [begun, State.beginInstruction, hmode]

/-- A scheduler that enters task mode is to go on behind its `stm`. -/
theorem step_enterTask (hi : m.insn? = some .enterTask) (hmode : m.state.mode = .scheduler)
    (host : Host σ) (h : σ) :
    (m.step host h).machine.state.spc = m.state.spc.even + 2 := by
  have ha := attempt_enterTask hi
  obtain ⟨⟨s, q⟩, happly⟩ :
      ∃ r, (Effects.enterTask m.state.mode).apply m.begun m.fetched.2 = .ok r := ⟨_, rfl⟩
  have hr := step_retired ha rfl happly host h
  rw [(retired_shadow rfl happly hr).1, Effects.shadowed_nextSpc (s := m.begun) hmode]
  exact begun_enterTask hi hmode

/-- Without a scheduler there is no mode but the one. -/
theorem step_mode_user (hu : m.environment.isUser = true) (hmode : m.state.mode = .task)
    (host : Host σ) (h : σ) : (m.step host h).machine.state.mode = .task := by
  cases m.step_goes host h with
  | unbuilt e ha hl => rw [hl.state]; exact hmode
  | refused effects p e ha hc happly hl => rw [hl.state]; exact hmode
  | raised effects p ha hc hf =>
      obtain ⟨⟨-, hstate⟩ | hstate, -⟩ := step_reacted ha hc host h
      · rw [hstate, ((m.raisedState effects).respond_kept m.environment p host h).mode]
        exact hmode
      · obtain ⟨regs, dirty, nextTpc, hreact⟩ :=
          State.respond_user hu (m.raisedState effects) p host h
        rw [hstate, hreact]
        exact hmode
  | retired effects p s q ha hc happly hr =>
      obtain ⟨regs, dirty, latch, rfl⟩ := Effects.apply_eq hc happly
      obtain ⟨x, d, hends, hl⟩ := hr
      rw [hl.state, hends.mode_user hu, Effects.shadowed_nextMode]
      refine (attempt_nextMode ha).trans ?_
      rw [hmode, ite_self]

/-! ## Runs -/

/-- A load in task mode is one for the task. -/
theorem load_task (hmode : m.state.mode = .task) (image : Image) (args : List (List Byte))
    (sp : Word) :
    (m.load image args sp).2.state.mode = .task ∧
      (m.load image args sp).2.state.spc = m.state.spc := by
  have hset : (m.state.setPc image.entry).mode = .task ∧
      (m.state.setPc image.entry).spc = m.state.spc := by
    unfold State.setPc
    split
    · exact ⟨hmode, rfl⟩
    · rename_i hother
      rw [hmode] at hother
      cases hother
  unfold load
  split
  · exact ⟨hmode, rfl⟩
  · dsimp only
    split
    · rename_i s hs
      obtain ⟨regs, dirty, rfl⟩ := State.writeReg_eq hs
      exact hset
    · exact ⟨hmode, rfl⟩

/-- Whatever is done to a machine without a scheduler, it stays in task mode. -/
theorem run_user (acts : List Action) (m : Machine) (host : Host σ) (h : σ)
    (hu : m.environment.isUser = true) (hmode : m.state.mode = .task) :
    (m.run host h acts).1.state.mode = .task ∧
      (m.run host h acts).1.state.spc = m.state.spc := by
  induction acts generalizing m h with
  | nil => exact ⟨hmode, rfl⟩
  | cons a acts ih =>
      cases a with
      | step =>
          have hu' := m.step_environment host h ▸ hu
          obtain ⟨hrest, hspc⟩ := ih _ (m.step host h).host hu' (step_mode_user hu hmode host h)
          exact ⟨hrest, hspc.trans (step_spc hmode host h)⟩
      | interrupt => exact ih m.raiseInterrupt h hu hmode
      | load image args sp =>
          have hu' : (m.load image args sp).2.environment.isUser = true := by
            unfold load
            split
            · exact hu
            · dsimp only
              split <;> exact hu
          obtain ⟨hloaded, hsame⟩ := load_task hmode image args sp
          obtain ⟨hrest, hspc⟩ := ih _ h hu' hloaded
          exact ⟨hrest, hspc.trans hsame⟩

/-- A stretch of a run in which the scheduler has no part: its steps are all out of task mode,
and nothing but requests for an interrupt comes in between. -/
def TaskStretch (host : Host σ) (m : Machine) (h : σ) : List Action → Prop
  | [] => True
  | .step :: acts =>
    m.state.mode = .task ∧ TaskStretch host (m.step host h).machine (m.step host h).host acts
  | .interrupt :: acts => TaskStretch host m.raiseInterrupt h acts
  | .load .. :: _ => False

theorem run_spc (acts : List Action) (m : Machine) (h : σ) (hrun : m.TaskStretch host h acts) :
    (m.run host h acts).1.state.spc = m.state.spc := by
  induction acts generalizing m h with
  | nil => rfl
  | cons a acts ih =>
      cases a with
      | step =>
          obtain ⟨hmode, hrest⟩ := hrun
          exact (ih _ _ hrest).trans (step_spc hmode host h)
      | interrupt => exact ih m.raiseInterrupt h hrun
      | load image args sp => exact hrun.elim

/-- When modes and program counters change, over whole runs. Without a scheduler they do not.
With one, a step leads from task to scheduler mode exactly if it raises a cause or an interrupt
is taken after it, and from scheduler to task mode exactly if it is `stm` and no interrupt is
taken; each mode leaves the other's program counter alone, but for the scheduler's jumps that
are meant for the task. So after an `stm` the scheduler's next instruction is the one behind
it. -/
theorem switching (m : Machine) (host : Host σ) (h : σ) :
    (m.environment.isUser = true → ∀ acts,
      (m.reset.run host h acts).1.state.mode = .task ∧
        (m.reset.run host h acts).1.state.spc = m.reset.state.spc) ∧
    (m.environment.isUser = false →
      let next := (m.step host h).machine
      (m.state.mode = .task →
        (next.state.mode = .scheduler ↔
          m.raised.isRaised = true ∨ m.takesInterrupt host h = true) ∧
        next.state.spc = m.state.spc) ∧
      (m.state.mode = .scheduler →
        (next.state.mode = .task ↔
          m.insn? = some .enterTask ∧ m.takesInterrupt host h = false) ∧
        (next.state.tpc ≠ m.state.tpc →
          ∃ insn, m.insn? = some insn ∧ insn.jumpTarget? = some .task) ∧
        (m.insn? = some .enterTask →
          ∀ acts, next.TaskStretch host (m.step host h).host acts →
            let back := (next.run host (m.step host h).host acts).1
            back.state.mode = .scheduler → back.state.pc.even = m.state.spc.even + 2))) := by
  refine ⟨?_, ?_⟩
  · intro hu acts
    have hmode : m.reset.state.mode = .task := by
      simp [reset, State.initial, State.setMode, Mode.ofTaskFlag, hu]
    exact run_user acts m.reset host h hu hmode
  · intro hu next
    have hnext : next.state.mode = if m.takesInterrupt host h then .scheduler else m.leadsTo :=
      step_mode hu host h
    refine ⟨?_, ?_⟩
    · intro hmode
      refine ⟨?_, step_spc hmode host h⟩
      rw [hnext, leadsTo, hmode]
      cases m.takesInterrupt host h <;> cases m.raised.isRaised <;> simp
    · intro hmode
      refine ⟨?_, ?_, ?_⟩
      · rw [hnext, leadsTo, hmode]
        by_cases hi : m.insn? = some .enterTask
        · have hquiet : m.raised.isRaised = false := by
            rw [raised_eq (attempt_enterTask hi)]
            rfl
          cases m.takesInterrupt host h <;> simp [hi, hquiet]
        · cases m.takesInterrupt host h <;> cases m.raised.isRaised <;> simp [hi]
      · intro hmoved
        refine Classical.byContradiction fun hj => hmoved ?_
        exact step_tpc hu hmode (fun insn hi ht => hj ⟨insn, hi, ht⟩) host h
      · intro hi acts hrun back hback
        have hspc : back.state.spc = m.state.spc.even + 2 :=
          (run_spc acts next _ hrun).trans (step_enterTask hi hmode host h)
        rw [State.pc, hback]
        dsimp only
        exact (congrArg Word.even hspc).trans (Word.even_add _ rfl)

/-- A scheduler at `stm`, its program counter with bit 0 set, and a task of a fence and a
breakpoint. -/
def relay : Machine where
  state := { mode := .scheduler, spc := 1, tpc := 16 }
  platform :=
    { model := .generic
      bus := { devices := [.ram ((Ram.setBytes ⟨0, 64, ∅⟩ 0 [0x08, 0x00]).setBytes 16
        [0x10, 0x00, 0x01, 0x00])] } }
  environment := .operating

/-- The machine once its scheduler has handed over. -/
def relayed : Machine × Option HostCall := relay.act Host.noting none .step

theorem switching_relay :
    relay.insn? = some .enterTask ∧ relay.takesInterrupt Host.noting none = false ∧
      relayed.1.state.mode = .task ∧
      relayed.1.TaskStretch Host.noting relayed.2 [.step, .step] ∧
      (relayed.1.run Host.noting relayed.2 [.step, .step]).1.state.mode = .scheduler ∧
      (relayed.1.run Host.noting relayed.2 [.step, .step]).1.state.pc.even = 2 := by
  have hi : relay.insn? = some .enterTask := by decide +kernel
  have hquiet : relay.takesInterrupt Host.noting none = false := by decide +kernel
  have hstretch : relayed.1.TaskStretch Host.noting relayed.2 [.step, .step] :=
    ⟨by decide +kernel, by decide +kernel, trivial⟩
  have hback : (relayed.1.run Host.noting relayed.2 [.step, .step]).1.state.mode = .scheduler := by
    decide +kernel
  obtain ⟨hmode, -, hresumes⟩ := ((switching relay Host.noting none).2 rfl).2 rfl
  exact ⟨hi, hquiet, hmode.mpr ⟨hi, hquiet⟩, hstretch, hback,
    hresumes hi [.step, .step] hstretch hback⟩

end Machine

end TypedCore
