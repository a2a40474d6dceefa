import TypedCore.Proofs.Execution.Run
import TypedCore.Proofs.Models.Agreement
import TypedCore.Proofs.Modes.FallThrough

/-!
# Tracing

A trace is written in the middle of a step, between the effects of an instruction
and the reaction to its cause, and the text it needs could fail. It never does,
since all that a fetch can deliver has a text (`Machine.fetchedText_ok`), and
nothing behind it looks at the lines written so far. So a step commutes with
dropping the trace (`Machine.step_untraced`), and a run with a trace is a run
without one.

The lines themselves are written where instructions are counted, and a step that
ends before that point has done neither (`Machine.step_lines`).
-/

namespace TypedCore

/-! ## Without the trace -/

/-- A machine that writes no trace. -/
def Machine.untraced (m : Machine) : Machine := { m with trace := none }

/-- What a step leaves behind, up to the trace. -/
def StepOutcome.untraced {σ : Type} (r : StepOutcome σ) : StepOutcome σ :=
  { r with machine := r.machine.untraced }

namespace Machine

variable {σ : Type}

theorem dispatch_untraced (m : Machine) (tpc : Word) (host : Host σ) (h : σ) :
    m.untraced.dispatch tpc host h = (m.dispatch tpc host h).untraced := by
  unfold dispatch
  by_cases hc : m.state.cause.isRaised = true
  · have hc' : m.untraced.state.cause.isRaised = true := hc
    rw [if_pos hc, if_pos hc']
    rfl
  · have hc' : ¬ m.untraced.state.cause.isRaised = true := hc
    rw [if_neg hc, if_neg hc']
    rfl

theorem takenCounted_untraced (m : Machine) (begun : State) :
    m.untraced.takenCounted begun = (m.takenCounted begun).untraced := by
  rw [takenCounted_eq, takenCounted_eq]
  rfl

theorem pollInterrupt_untraced (m : Machine) :
    m.untraced.pollInterrupt = m.pollInterrupt.untraced := by
  unfold pollInterrupt
  cases hp : m.interruptPending with
  | false =>
      have hp' : m.untraced.interruptPending = false := hp
      rw [hp']
      rfl
  | true =>
      have hp' : m.untraced.interruptPending = true := hp
      have hs : m.untraced.state.takeInterrupt m.untraced.environment =
          m.state.takeInterrupt m.environment := rfl
      rw [hp', hs]
      cases m.state.takeInterrupt m.environment <;> rfl

theorem finish_untraced (m : Machine) (begun : State) (halt : Option Halt) :
    m.untraced.finish begun halt =
      ((m.finish begun halt).1, (m.finish begun halt).2.untraced) := by
  unfold finish
  rw [takenCounted_untraced]
  generalize m.takenCounted begun = n
  cases halt with
  | some halt => rfl
  | none =>
      have hexit : n.untraced.platform.bus.takeExit = n.platform.bus.takeExit := rfl
      dsimp only
      rw [hexit]
      obtain ⟨_ | halt, bus⟩ := n.platform.bus.takeExit
      · exact congrArg (Prod.mk none) (pollInterrupt_untraced { n with state := n.state.commit })
      · rfl

/-- How a step ends once its effects are applied, noted and counted. -/
def concluded (m : Machine) (begun : State) (tpc : Word) (host : Host σ) (h : σ) : StepOutcome σ :=
  let r := m.dispatch tpc host h
  match r.result with
  | .error e => ⟨.error e, r.machine, r.host⟩
  | .ok halt => ⟨.ok (r.machine.finish begun halt).1, (r.machine.finish begun halt).2, r.host⟩

theorem concluded_untraced (m : Machine) (begun : State) (tpc : Word) (host : Host σ) (h : σ) :
    m.untraced.concluded begun tpc host h = (m.concluded begun tpc host h).untraced := by
  unfold concluded
  rw [dispatch_untraced]
  generalize m.dispatch tpc host h = r
  obtain ⟨_ | halt, n, h'⟩ := r
  · rfl
  · simp only [StepOutcome.untraced, finish_untraced]

/-- What the trace tells of an instruction with the given text, on the machine after its
effects. -/
def entry (m : Machine) (begun : State) (text : String) : TraceEntry :=
  { mode := begun.mode, pc := begun.pc.even, text, begun, after := m.state, record := m.record }

/-- A machine with a line added to its trace, if it has one. -/
def withLine (m : Machine) (line : String) : Machine :=
  { m with trace := m.trace.map (line :: ·) }

theorem traced_eq (m : Machine) {fetched : Option Decoded} (begun : State) {text : String}
    (ht : fetchedText fetched = .ok text) :
    m.traced fetched begun = .ok (m.withLine (m.entry begun text).line) := by
  obtain ⟨state, platform, environment, record, pending, profile, trace⟩ := m
  cases trace with
  | none => rfl
  | some lines => simp [traced, withLine, entry, ht, bind, Except.bind, pure, Except.pure]

theorem retire_eq (m : Machine) {fetched : Option Decoded} {effects : Effects} {s : State}
    {p : Platform} {text : String} (ht : fetchedText fetched = .ok text)
    (happly : effects.apply m.state m.platform = .ok (s, p)) (tpc : Word) (host : Host σ) (h : σ) :
    let after : Machine := { m with record := effects.record, state := s, platform := p }
    m.retire fetched effects tpc host h =
      ((after.withLine (after.entry m.state text).line).counted fetched).concluded
        m.state tpc host h := by
  intro after
  unfold retire
  dsimp only
  rw [happly]
  dsimp only
  rw [traced_eq _ m.state ht]
  rfl

/-! ## Steps -/

/-- A step does the same with a trace and without one, and ends the same way. -/
theorem step_untraced (m : Machine) (host : Host σ) (h : σ) :
    m.untraced.step host h = (m.step host h).untraced := by
  have ha : m.untraced.attempt = m.attempt := rfl
  obtain ⟨text, ht⟩ := m.fetchedText_ok
  have ht' : fetchedText m.untraced.fetched.1.toOption = .ok text := ht
  rw [step_eq, step_eq, ha]
  cases m.attempt with
  | error e => rfl
  | ok result =>
      obtain ⟨effects, p⟩ := result
      cases happly : effects.apply m.begun p with
      | error e =>
          have happly' : effects.apply m.untraced.begun p = .error e := happly
          simp only [retire, happly, happly']
          rfl
      | ok applied =>
          have happly' : effects.apply m.untraced.begun p = .ok applied := happly
          let after : Machine :=
            { m with record := effects.record, state := applied.1, platform := applied.2 }
          have hboth := concluded_untraced
            ((after.withLine (after.entry m.begun text).line).counted m.fetched.1.toOption)
            m.begun m.state.tpc host h
          dsimp only
          rw [retire_eq _ ht happly, retire_eq _ ht' happly']
          exact hboth

/-! ## Lines -/

theorem dispatch_notes (m : Machine) (tpc : Word) (host : Host σ) (h : σ) :
    (m.dispatch tpc host h).machine.trace = m.trace ∧
      (m.dispatch tpc host h).machine.profile.retired = m.profile.retired := by
  unfold dispatch
  split
  · exact ⟨rfl, rfl⟩
  · exact ⟨rfl, rfl⟩

theorem finish_notes (m : Machine) (begun : State) (halt : Option Halt) :
    (m.finish begun halt).2.trace = m.trace ∧
      (m.finish begun halt).2.profile.retired = m.profile.retired := by
  refine ⟨?_, by rw [finish_profile]; rfl⟩
  unfold finish pollInterrupt
  rw [takenCounted_eq]
  cases halt with
  | some halt => rfl
  | none =>
      dsimp only
      split
      · rfl
      · split
        · split <;> rfl
        · rfl

theorem concluded_notes (m : Machine) (begun : State) (tpc : Word) (host : Host σ) (h : σ) :
    (m.concluded begun tpc host h).machine.trace = m.trace ∧
      (m.concluded begun tpc host h).machine.profile.retired = m.profile.retired := by
  obtain ⟨htrace, hretired⟩ := dispatch_notes m tpc host h
  unfold concluded
  dsimp only
  cases (m.dispatch tpc host h).result with
  | error e => exact ⟨htrace, hretired⟩
  | ok halt =>
      obtain ⟨htrace', hretired'⟩ := finish_notes (m.dispatch tpc host h).machine begun halt
      exact ⟨htrace'.trans htrace, hretired'.trans hretired⟩

/-- What was written to the trace, and counted as retired, since a machine was another. -/
def Wrote (m n : Machine) (lines : List String) : Prop :=
  n.trace = m.trace.map (lines ++ ·) ∧ n.profile.retired = m.profile.retired + lines.length

theorem Wrote.refl {m n : Machine} (htrace : n.trace = m.trace)
    (hretired : n.profile.retired = m.profile.retired) : m.Wrote n [] := by
  refine ⟨?_, hretired⟩
  rw [htrace]
  exact Option.map_id'.symm

theorem Wrote.trans {m n k : Machine} {before after : List String} (h₁ : m.Wrote n before)
    (h₂ : n.Wrote k after) : m.Wrote k (after ++ before) := by
  obtain ⟨htrace₁, hretired₁⟩ := h₁
  obtain ⟨htrace₂, hretired₂⟩ := h₂
  refine ⟨?_, ?_⟩
  · rw [htrace₂, htrace₁, Option.map_map]
    simp [Function.comp_def]
  · rw [hretired₂, hretired₁, List.length_append]
    omega

/-- A step writes a line if it counts its instruction, whatever comes of the reaction. -/
theorem step_lines (m : Machine) (host : Host σ) (h : σ) :
    ∃ lines, m.Wrote (m.step host h).machine lines := by
  obtain ⟨text, ht⟩ := m.fetchedText_ok
  rw [step_eq]
  cases m.attempt with
  | error e => exact ⟨[], .refl rfl rfl⟩
  | ok result =>
      obtain ⟨effects, p⟩ := result
      cases happly : effects.apply m.begun p with
      | error e =>
          simp only [retire, happly]
          exact ⟨[], .refl rfl rfl⟩
      | ok applied =>
          let after : Machine :=
            { m with record := effects.record, state := applied.1, platform := applied.2 }
          obtain ⟨htrace, hretired⟩ := concluded_notes
            ((after.withLine (after.entry m.begun text).line).counted m.fetched.1.toOption)
            m.begun m.state.tpc host h
          dsimp only
          rw [retire_eq _ ht happly]
          exact ⟨[(after.entry m.begun text).line], htrace, hretired⟩

/-! ## Runs -/

theorem load_untraced (m : Machine) (image : Image) (args : List (List Byte)) (sp : Word) :
    m.untraced.load image args sp =
      ((m.load image args sp).1, (m.load image args sp).2.untraced) := by
  have hplace : image.place args m.untraced.platform.bus = image.place args m.platform.bus := rfl
  unfold load
  rw [hplace]
  obtain ⟨_ | _, bus⟩ := image.place args m.platform.bus
  · rfl
  · dsimp only
    split <;> rename_i hw <;> dsimp only [untraced] at hw ⊢ <;> rw [hw]

theorem load_wrote (m : Machine) (image : Image) (args : List (List Byte)) (sp : Word) :
    m.Wrote (m.load image args sp).2 [] := by
  refine .refl ?_ (congrArg Profile.retired (m.load_profile image args sp))
  unfold load
  split
  · rfl
  · dsimp only
    split <;> rfl

/-- Over a run as many lines are written as instructions are counted. -/
theorem run_lines (acts : List Action) (m : Machine) (host : Host σ) (h : σ) :
    ∃ lines, m.Wrote (m.run host h acts).1 lines := by
  induction acts generalizing m h with
  | nil => exact ⟨[], .refl rfl rfl⟩
  | cons a acts ih =>
      have hact : ∃ lines, m.Wrote (m.act host h a).1 lines := by
        cases a with
        | step => exact m.step_lines host h
        | interrupt => exact ⟨[], .refl rfl rfl⟩
        | load image args sp => exact ⟨[], m.load_wrote image args sp⟩
      obtain ⟨before, hbefore⟩ := hact
      obtain ⟨after, hafter⟩ := ih (m.act host h a).1 (m.act host h a).2
      exact ⟨after ++ before, hbefore.trans hafter⟩

/-- Machines that differ in their traces at most stay so over a run. -/
theorem run_untraced (acts : List Action) (m n : Machine) (hmn : m.untraced = n.untraced)
    (host : Host σ) (h : σ) :
    m.results host h acts = n.results host h acts ∧
      (m.run host h acts).2 = (n.run host h acts).2 ∧
      (m.run host h acts).1.untraced = (n.run host h acts).1.untraced := by
  have hok : m.Throughout host (fun _ _ _ => True) h acts := by
    clear hmn
    induction acts generalizing m h with
    | nil => trivial
    | cons a acts ih => exact ⟨trivial, ih _ _⟩
  refine run_related (R := fun m n => m.untraced = n.untraced) ?_ ?_ ?_ acts m n h hmn hok
  · intro m n h hmn _
    have hboth : (m.step host h).untraced = (n.step host h).untraced := by
      rw [← step_untraced, ← step_untraced, hmn]
    obtain ⟨hresult, hmachine, hhost⟩ := StepOutcome.mk.inj hboth
    exact ⟨hresult, hhost, hmachine⟩
  · intro m n hmn
    exact congrArg raiseInterrupt hmn
  · intro m n h image args sp hmn _
    have hm := load_untraced m image args sp
    rw [hmn, load_untraced] at hm
    exact (Prod.mk.inj hm).2.symm

end Machine

/-- A configuration with the trace turned on or off. -/
def Config.withTrace (c : Config) (trace : Bool) : Config := { c with trace }

/-- A run with a trace is the run without one: the program is loaded or refused alike, steps have
the same results and ask the same of the host, and at every point the machines are the same but for
the lines written. There are as many of these as instructions were retired, also where a step
failed. -/
theorem Config.traced_alike {σ : Type} (c : Config) (image : Image) (args : List (List Byte))
    (sp : Word) (host : Host σ) (h : σ) (acts : List Action) :
    let traced := (c.withTrace true).started c.model image args sp
    let silent := (c.withTrace false).started c.model image args sp
    traced.1 = silent.1 ∧
      traced.2.results host h acts = silent.2.results host h acts ∧
      (traced.2.run host h acts).2 = (silent.2.run host h acts).2 ∧
      ∃ lines, (traced.2.run host h acts).1 =
          { (silent.2.run host h acts).1 with trace := some lines } ∧
        lines.length = (traced.2.run host h acts).1.profile.retired := by
  intro traced silent
  have hload : silent = (traced.1, traced.2.untraced) :=
    Machine.load_untraced ((c.withTrace true).machineOf c.model) image args sp
  have hstart : traced.2.trace = some [] ∧ traced.2.profile.retired = 0 :=
    Machine.load_wrote ((c.withTrace true).machineOf c.model) image args sp
  have hsame : traced.2.untraced = silent.2.untraced := by
    rw [hload]
    rfl
  obtain ⟨hresults, hhosts, hmachines⟩ :=
    Machine.run_untraced acts traced.2 silent.2 hsame host h
  obtain ⟨lines, htrace, hretired⟩ := Machine.run_lines acts traced.2 host h
  rw [hstart.1, Option.map_some, List.append_nil] at htrace
  rw [hstart.2, Nat.zero_add] at hretired
  refine ⟨by rw [hload], hresults, hhosts, lines, ?_, hretired.symm⟩
  rw [← htrace]
  exact congrArg (fun n : Machine => { n with trace := (traced.2.run host h acts).1.trace })
    hmachines

end TypedCore
