import TypedCore.Proofs.Execution.Run
import TypedCore.Proofs.Execution.Shadow

/-!
# What a step notes

Two of the notes of a machine are for its users: the memory access of the last
instruction and the profile. What a step does to them is a function of a few
facts about the step (`Machine.step_record`, `Profile.tally`). A step that ends
before its effects are applied is not counted; any other is, even if the reaction
to its cause then fails.

Most counters follow from what was fetched and raised. The counter of taken
instructions compares paths. A `Path` says where both modes go on and which of
them does: an instruction that only falls through leads `onward`, behind its own
end in the mode it began in. `finish` compares the shadow with what
`beginInstruction` made of it, so what is counted is decided before an interrupt
is looked for; an interrupt leaves both program counters and only ends task mode,
so the path that was committed can be told from the machine after the step
(`Core.Ends.nextPath`).
-/

namespace TypedCore

/-! ## Paths -/

/-- Where task and scheduler go on, and which of them does. -/
structure Path where
  tpc : Word
  spc : Word
  mode : Mode
  deriving DecidableEq

/-- A path on which the mode that goes on does so elsewhere. -/
def Path.goto (path : Path) (pc : Word) : Path :=
  match path.mode with
  | .task => { path with tpc := pc }
  | .scheduler => { path with spc := pc }

namespace State

def path (s : State) : Path := ⟨s.tpc, s.spc, s.mode⟩

/-- The path that a shadow stands for. -/
def nextPath (s : State) : Path := ⟨s.nextTpc, s.nextSpc, s.nextMode⟩

variable (s : State) (pc : Word)

theorem path_setPc : (s.setPc pc).path = s.path.goto pc := by
  unfold setPc path Path.goto
  cases s.mode <;> rfl

theorem regs_setPc : (s.setPc pc).regs = s.regs := by
  unfold setPc
  cases s.mode <;> rfl

end State

namespace Core.Ends

variable {c d : Core} {halt x : Option Halt}

/-- An interrupt is only taken out of task mode, so the machine after it still shows what was
committed. -/
theorem nextPath (h : c.Ends halt x d) :
    c.state.nextPath = ⟨d.state.tpc, d.state.spc,
      if c.interruptPending && !d.interruptPending then .task else d.state.mode⟩ := by
  cases h with
  | halted halt => simp [committed, State.commit, State.nextPath]
  | exited halt bus hexit => simp [committed, State.commit, State.nextPath]
  | interrupted s hexit hpending hs =>
      have hmode : c.state.nextMode = .task := by
        unfold State.takeInterrupt at hs
        split at hs
        · cases hs
        · rename_i hno
          cases hm : c.state.nextMode with
          | task => rfl
          | scheduler => exact absurd (by simp [State.commit, hm, Mode.isTask]) hno
      rw [State.takeInterrupt_eq hs, hpending]
      simp [State.nextPath, State.commit, State.setMode, hmode]
  | wentOn hexit hs => simp [committed, State.commit, State.nextPath]

end Core.Ends

/-! ## What is counted -/

namespace Profile

/-- A profile after the reaction to a cause, if there is one. -/
def reacted (p : Profile) (cause : Cause) (environment : Environment) : Profile :=
  { p with
    exceptions := p.exceptions + cause.isRaised.toNat
    syscalls := p.syscalls + (cause == .syscall && environment.isUser).toNat }

/-- A profile after a commit. -/
def ended (p : Profile) (departures : Nat) (interrupted : Bool) : Profile :=
  { p with
    taken := p.taken + departures
    interrupts := p.interrupts + interrupted.toNat }

/-- What an instruction that gets as far as its effects adds to a profile. -/
def tally (p : Profile) (fetched : InsnClass × Nat) (mode : Mode) (cause : Cause)
    (environment : Environment) (departures : Nat) (interrupted : Bool) : Profile :=
  ((p.record fetched.1 fetched.2 mode).reacted cause environment).ended departures interrupted

end Profile

namespace Machine

variable {σ : Type} {m : Machine} {effects : Effects} {p q : Platform} {s : State} {host : Host σ}
  {h : σ}

theorem takenCounted_eq (m : Machine) (begun : State) :
    m.takenCounted begun = { m with
      profile := m.profile.ended (if m.state.nextPath = begun.nextPath then 0 else 1) false } := by
  have hsame : m.state.nextPath = begun.nextPath ↔ ¬ (m.state.nextTpc ≠ begun.nextTpc ∨
      m.state.nextSpc ≠ begun.nextSpc ∨ m.state.nextMode ≠ begun.nextMode) := by
    simp [State.nextPath]
  unfold takenCounted
  dsimp only
  split
  · rename_i hleft
    rw [if_neg fun heq => hsame.mp heq hleft]
    rfl
  · rename_i hsame'
    rw [if_pos (hsame.mpr hsame')]
    rfl

theorem pollInterrupt_profile (m : Machine) :
    m.pollInterrupt.profile =
      m.profile.ended 0 (m.interruptPending && !m.pollInterrupt.interruptPending) := by
  unfold pollInterrupt
  split
  · rename_i hpending
    split
    · simp [Profile.ended, hpending]
    · simp [Profile.ended, hpending]
  · rename_i hpending
    simp [Profile.ended, hpending]

theorem pollInterrupt_record (m : Machine) : m.pollInterrupt.record = m.record := by
  unfold pollInterrupt
  split
  · split <;> rfl
  · rfl

theorem finish_profile (m : Machine) (begun : State) (halt : Option Halt) :
    (m.finish begun halt).2.profile =
      m.profile.ended (if m.state.nextPath = begun.nextPath then 0 else 1)
        (m.interruptPending && !(m.finish begun halt).2.interruptPending) := by
  unfold finish
  rw [takenCounted_eq]
  cases halt with
  | some halt => simp [Profile.ended]
  | none =>
      dsimp only
      split
      · simp [Profile.ended]
      · rw [pollInterrupt_profile]
        simp [Profile.ended]

theorem finish_record (m : Machine) (begun : State) (halt : Option Halt) :
    (m.finish begun halt).2.record = m.record := by
  unfold finish
  rw [takenCounted_eq]
  cases halt with
  | some halt => rfl
  | none =>
      dsimp only
      split
      · rfl
      · exact pollInterrupt_record _

theorem dispatch_profile (m : Machine) (tpc : Word) (host : Host σ) (h : σ) :
    (m.dispatch tpc host h).machine.profile = m.profile.reacted m.state.cause m.environment := by
  unfold dispatch
  split
  · rename_i hc
    simp [exceptionCounted, Profile.reacted, hc]
  · rename_i hc
    have hnone : m.state.cause = .none := Cause.eq_none (Bool.not_eq_true _ |>.mp hc)
    rw [hnone]
    rfl

theorem dispatch_record (m : Machine) (tpc : Word) (host : Host σ) (h : σ) :
    (m.dispatch tpc host h).machine.record = m.record := by
  unfold dispatch
  split <;> rfl

/-- How often an instruction that began with a given shadow leads elsewhere: not at all if its
reaction fails. -/
def departure (begun : State) (reaction : Response σ) : Nat :=
  match reaction.result with
  | .error _ => 0
  | .ok _ => if reaction.state.nextPath = begun.nextPath then 0 else 1

theorem finish_of_dispatch {r : StepOutcome σ} {reaction : Response σ} (begun : State)
    (hresult : r.result = reaction.result) (hstate : r.machine.state = reaction.state) :
    let next : StepOutcome σ := match r.result with
      | .error e => ⟨.error e, r.machine, r.host⟩
      | .ok halt =>
        ⟨.ok (r.machine.finish begun halt).1, (r.machine.finish begun halt).2, r.host⟩
    next.machine.record = r.machine.record ∧
      next.machine.profile = r.machine.profile.ended (departure begun reaction)
        (r.machine.interruptPending && !next.machine.interruptPending) := by
  unfold departure
  rw [hresult]
  cases reaction.result with
  | error e => simp [Profile.ended]
  | ok halt =>
      refine ⟨finish_record _ _ _, ?_⟩
      dsimp only
      rw [finish_profile, hstate]

theorem retire_notes {fetched : Option Decoded} {tpc : Word} (host : Host σ) (h : σ)
    (ht : ∃ t, fetchedText fetched = .ok t)
    (happly : effects.apply m.state m.platform = .ok (s, p)) :
    (m.retire fetched effects tpc host h).machine.record = effects.record ∧
      (m.retire fetched effects tpc host h).machine.profile =
        m.profile.tally (fetchedClass fetched) s.mode s.cause m.environment
          (departure m.state
            (Core.reaction ⟨s, p, m.environment, m.interruptPending⟩ tpc host h))
          (m.interruptPending &&
            !(m.retire fetched effects tpc host h).machine.interruptPending) := by
  obtain ⟨lines, hl⟩ := traced_ok
    { m with record := effects.record, state := s, platform := p } m.state ht
  have hd := dispatch_leaves
    (({ m with record := effects.record, state := s, platform := p, trace := lines } :
      Machine).counted fetched) tpc host h
  obtain ⟨hrecord, hprofile⟩ := finish_of_dispatch m.state hd.result hd.state
  rw [dispatch_record] at hrecord
  rw [dispatch_profile, hd.interruptPending] at hprofile
  unfold retire
  dsimp only at hl ⊢
  rw [happly]
  dsimp only
  rw [hl]
  exact ⟨hrecord, hprofile⟩

/-! ## Steps -/

/-- Where the next instruction leads if it only falls through: behind its end, in the mode it
begins in. What cannot be fetched counts as one halfword. -/
def onward (m : Machine) : Path :=
  let behind := m.state.pc.even + BitVec.ofNat 32 (fetchedClass m.fetched.1.toOption).2
  match m.state.mode with
  | .task => ⟨behind, m.state.spc, .task⟩
  | .scheduler => ⟨m.state.tpc, behind, .scheduler⟩

/-- The path that a step commits, before an interrupt is taken. -/
def committedPath (m : Machine) (host : Host σ) (h : σ) : Path :=
  let s := (m.step host h).machine.state
  ⟨s.tpc, s.spc, if m.takesInterrupt host h then .task else s.mode⟩

theorem begun_nextPath (m : Machine) : m.begun.nextPath = m.onward := by
  unfold begun State.beginInstruction State.nextPath onward State.fallThrough
  cases m.state.mode <;> rfl

theorem committedPath_eq {c : Core} {halt : Option Halt} {h' : σ}
    (hr : (m.step host h).Commits c halt h') (hp : c.interruptPending = m.interruptPending) :
    m.committedPath host h = c.state.nextPath := by
  obtain ⟨x, d, hends, hl⟩ := hr
  unfold committedPath takesInterrupt
  rw [hends.nextPath, hl.state, hl.interruptPending, hp]

/-- How often the next step leads elsewhere: not at all if it does not complete. -/
def departures (m : Machine) (host : Host σ) (h : σ) : Nat :=
  match (m.step host h).result with
  | .error _ => 0
  | .ok _ => if m.committedPath host h = m.onward then 0 else 1

/-- The access that a step leaves on record is the one in the effects. -/
theorem step_record (m : Machine) (host : Host σ) (h : σ) :
    (m.step host h).machine.record =
      match m.attempt with
      | .ok (effects, _) => effects.record
      | .error _ => none := by
  cases ha : m.attempt with
  | error e =>
      rw [step_eq, ha]
  | ok result =>
      obtain ⟨effects, p⟩ := result
      rw [step_eq, ha]
      cases happly : effects.apply m.begun p with
      | error e => simp only [retire, happly]
      | ok applied => exact (retire_notes host h m.fetchedText_ok happly).1

/-- A step that does not get as far as its effects is not counted. -/
theorem step_profile_unbuilt {e : HostFault} (ha : m.attempt = .error e) (host : Host σ) (h : σ) :
    (m.step host h).machine.profile = m.profile := by
  rw [step_eq, ha]

theorem step_profile_refused {e : HostFault} (ha : m.attempt = .ok (effects, p))
    (happly : effects.apply m.begun p = .error e) (host : Host σ) (h : σ) :
    (m.step host h).machine.profile = m.profile := by
  rw [step_eq, ha]
  simp only [retire, happly]

theorem departure_eq (ha : m.attempt = .ok (effects, p))
    (happly : effects.apply m.begun p = .ok (s, q)) (host : Host σ) (h : σ) :
    departure m.begun (Core.reaction ⟨s, q, m.environment, m.interruptPending⟩
      m.state.tpc host h) = m.departures host h := by
  have hf := step_follows ha happly host h
  unfold departure departures
  unfold StepOutcome.Follows at hf
  generalize Core.reaction ⟨s, q, m.environment, m.interruptPending⟩ m.state.tpc host h =
    reaction at hf
  cases hresult : reaction.result with
  | error e =>
      rw [hresult] at hf
      rw [hf.result]
  | ok halt =>
      rw [hresult] at hf
      have hpath : m.committedPath host h = reaction.state.nextPath := committedPath_eq hf rfl
      obtain ⟨x, d, -, hl⟩ := hf
      rw [hl.result, hpath, begun_nextPath]

/-- Effects leave the mode, and in the place of the cause the one they raise. -/
theorem apply_mode_cause (happly : effects.apply m.begun p = .ok (s, q)) :
    s.mode = m.state.mode ∧ s.cause = effects.cause := by
  cases hc : effects.cause.isRaised with
  | true =>
      rw [Effects.apply_raised hc] at happly
      obtain ⟨rfl, -⟩ := Prod.mk.inj (Except.ok.inj happly)
      exact ⟨rfl, rfl⟩
  | false =>
      have hk := Effects.apply_kept hc happly
      exact ⟨hk.mode, hk.cause.trans (Cause.eq_none hc).symm⟩

/-- What any other step adds to the profile. -/
theorem step_profile (ha : m.attempt = .ok (effects, p))
    (happly : effects.apply m.begun p = .ok (s, q)) (host : Host σ) (h : σ) :
    (m.step host h).machine.profile =
      m.profile.tally (fetchedClass m.fetched.1.toOption) m.state.mode m.raised m.environment
        (m.departures host h) (m.takesInterrupt host h) := by
  obtain ⟨hmode, hcause⟩ := apply_mode_cause happly
  rw [raised_eq ha, ← hmode, ← hcause, ← departure_eq ha happly, takesInterrupt, step_eq, ha]
  exact (retire_notes host h m.fetchedText_ok happly).2

end Machine

end TypedCore
