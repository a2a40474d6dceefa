import TypedCore.Proofs.Execution.Run
import TypedCore.Proofs.Execution.Tally

/-!
# Two machines side by side

Many properties compare two runs: what does not depend on some part of a machine
is the same in both. A `Coupling` is what stays between the two, a relation
between states and one between platforms. Three things happen to a machine
whatever its instruction is, and a coupling has to survive them: a commit, an
interrupt, and the collection of an exit request.

The rest of a step is its instruction's. If coupled machines begin it coupled,
get the same effects, apply them alike and react to a cause alike, they end the
step with the same result, coupled again, and with the same notes
(`Coupling.Steps.coupled`). Only the counter of taken instructions is left out: it
compares paths, and a coupling may leave paths open.
-/

namespace TypedCore

/-- A relation between states and one between platforms that outlast an instruction. -/
structure Coupling where
  state : State → State → Prop
  platform : Platform → Platform → Prop
  mode {s t : State} : state s t → s.mode = t.mode
  commit {s t : State} : state s t → state s.commit t.commit
  interrupt {s t : State} : state s t →
    state ({ s with cause := .hardwareInterrupt, faultAddr := none }.setMode .scheduler)
      ({ t with cause := .hardwareInterrupt, faultAddr := none }.setMode .scheduler)
  exit {p q : Platform} : platform p q →
    p.bus.takeExit.1 = q.bus.takeExit.1 ∧
      platform { p with bus := p.bus.takeExit.2 } { q with bus := q.bus.takeExit.2 }

/-- A profile without the counter of taken instructions. -/
def Profile.untaken (p : Profile) : Profile := { p with taken := 0 }

theorem Profile.eq_of_untaken {p q : Profile} (h : p.untaken = q.untaken)
    (ht : p.taken = q.taken) : p = q := by
  have hp : p = { p.untaken with taken := p.taken } := rfl
  rw [hp, h, ht]
  rfl

/-- What an instruction adds to the other counters does not hang on that one. -/
theorem Profile.untaken_tally (p : Profile) (fetched : InsnClass × Nat) (mode : Mode)
    (cause : Cause) (environment : Environment) (departures : Nat) (interrupted : Bool) :
    (p.tally fetched mode cause environment departures interrupted).untaken =
      p.untaken.tally fetched mode cause environment 0 interrupted := rfl

namespace Coupling

variable (C : Coupling)

/-- Two machines without their notes that are coupled. -/
structure Cores (c d : Core) : Prop where
  state : C.state c.state d.state
  platform : C.platform c.platform d.platform
  environment : c.environment = d.environment
  interruptPending : c.interruptPending = d.interruptPending

/-- Two machines that are coupled, with the same notes but for the trace and the counter of
taken instructions. -/
structure Machines (m n : Machine) : Prop where
  core : C.Cores m.core n.core
  record : m.record = n.record
  profile : m.profile.untaken = n.profile.untaken

/-- Two ends of an instruction's execution: the same fault of the simulator, or the same effects
and coupled platforms. -/
inductive Attempts : Except HostFault (Effects × Platform) →
    Except HostFault (Effects × Platform) → Prop
  | fails (e : HostFault) : Attempts (.error e) (.error e)
  | asks (effects : Effects) {p q : Platform} (h : C.platform p q) :
      Attempts (.ok (effects, p)) (.ok (effects, q))

/-- Two ends of the application of effects. -/
inductive Applied : Except HostFault (State × Platform) →
    Except HostFault (State × Platform) → Prop
  | fails (e : HostFault) : Applied (.error e) (.error e)
  | done {s t : State} {p q : Platform} (hs : C.state s t) (hp : C.platform p q) :
      Applied (.ok (s, p)) (.ok (t, q))

/-- Two reactions to a cause. -/
structure Responses {σ : Type} (r r' : Response σ) : Prop where
  result : r.result = r'.result
  state : C.state r.state r'.state
  platform : C.platform r.platform r'.platform
  host : r.host = r'.host

/-- Two steps that end alike, up to the memory record. -/
structure Outcomes {σ : Type} (r r' : StepOutcome σ) : Prop where
  result : r.result = r'.result
  host : r.host = r'.host
  core : C.Cores r.machine.core r'.machine.core
  profile : r.machine.profile.untaken = r'.machine.profile.untaken

variable {C} {c d c' d' : Core} {halt x y : Option Halt}

/-! ## Commits -/

theorem takeInterrupt {s t : State} (h : C.state s t) (environment : Environment) :
    (s.takeInterrupt environment = none ∧ t.takeInterrupt environment = none) ∨
      ∃ s' t', s.takeInterrupt environment = some s' ∧ t.takeInterrupt environment = some t' ∧
        C.state s' t' := by
  unfold State.takeInterrupt
  rw [C.mode h]
  split
  · exact .inl ⟨rfl, rfl⟩
  · exact .inr ⟨_, _, rfl, rfl, C.interrupt h⟩

theorem Cores.ends (h : C.Cores c d) (hc : c.Ends halt x c') (hd : d.Ends halt y d') :
    x = y ∧ C.Cores c' d' := by
  have hcommit : C.Cores c.committed d.committed :=
    ⟨C.commit h.state, h.platform, h.environment, h.interruptPending⟩
  obtain ⟨hexit, hcollected⟩ := C.exit h.platform
  have htake := takeInterrupt (C.commit h.state) c.environment
  -- The second machine ends in the way that the first one does, and in no other.
  cases hc with
  | halted halt =>
      obtain ⟨rfl, rfl⟩ := hd.unique (.halted halt)
      exact ⟨rfl, hcommit⟩
  | exited halt bus hc =>
      rw [hc] at hexit hcollected
      obtain ⟨rfl, rfl⟩ :=
        hd.unique (.exited halt d.platform.bus.takeExit.2 (Prod.ext hexit.symm rfl))
      exact ⟨rfl, hcommit.state, hcollected, h.environment, h.interruptPending⟩
  | interrupted s hc hpending hs =>
      rcases htake with ⟨hnone, -⟩ | ⟨s', t', hs', ht', hst⟩
      · rw [hnone] at hs
        cases hs
      · obtain rfl := Option.some.inj (hs.symm.trans hs')
        obtain ⟨rfl, rfl⟩ := hd.unique (.interrupted t' (hexit.symm.trans hc)
          (h.interruptPending.symm.trans hpending) (h.environment ▸ ht'))
        exact ⟨rfl, hst, h.platform, h.environment, rfl⟩
  | wentOn hc hs =>
      obtain ⟨rfl, rfl⟩ := hd.unique (.wentOn (hexit.symm.trans hc) fun hpending => by
        have hnone := hs (h.interruptPending.trans hpending)
        rcases htake with ⟨-, hnone'⟩ | ⟨s', t', hs', -, -⟩
        · exact h.environment ▸ hnone'
        · rw [hnone] at hs'
          cases hs')
      exact ⟨rfl, hcommit⟩

section Steps

variable {σ : Type} {r r' : StepOutcome σ} {reaction reaction' : Response σ} {h h' : σ}

theorem Cores.commits (hcd : C.Cores c d) (hr : r.Commits c halt h) (hr' : r'.Commits d halt h') :
    r.result = r'.result ∧ C.Cores r.machine.core r'.machine.core ∧ r.host = h ∧ r'.host = h' := by
  obtain ⟨x, c', hends, hl⟩ := hr
  obtain ⟨y, d', hends', hl'⟩ := hr'
  obtain ⟨rfl, hcores⟩ := hcd.ends hends hends'
  rw [hl.core, hl'.core]
  exact ⟨hl.result.trans hl'.result.symm, hcores, hl.host, hl'.host⟩

theorem Responses.follows (hreact : C.Responses reaction reaction')
    (he : c.environment = d.environment) (hp : c.interruptPending = d.interruptPending)
    (hr : r.Follows c reaction) (hr' : r'.Follows d reaction') :
    r.result = r'.result ∧ r.host = r'.host ∧ C.Cores r.machine.core r'.machine.core := by
  have hcores : C.Cores { c with state := reaction.state, platform := reaction.platform }
      { d with state := reaction'.state, platform := reaction'.platform } :=
    ⟨hreact.state, hreact.platform, he, hp⟩
  unfold StepOutcome.Follows at hr hr'
  rw [hreact.result] at hr
  cases hresult : reaction'.result with
  | error e =>
      rw [hresult] at hr hr'
      rw [hr.core, hr'.core]
      exact ⟨hr.result.trans hr'.result.symm,
        hr.host.trans (hreact.host.trans hr'.host.symm), hcores⟩
  | ok halt =>
      rw [hresult] at hr hr'
      obtain ⟨hsame, hafter, hhost, hhost'⟩ := hcores.commits hr hr'
      exact ⟨hsame, hhost.trans (hreact.host.trans hhost'.symm), hafter⟩

end Steps

/-! ## Steps -/

variable {σ : Type} {m n : Machine}

/-- What a step of two machines has to meet for them to stay coupled. -/
structure Steps (C : Coupling) (m n : Machine) (host : Host σ) (h : σ) : Prop where
  machines : C.Machines m n
  mode : m.state.mode = n.state.mode
  fetched : m.fetched.1 = n.fetched.1
  found : C.platform m.fetched.2 n.fetched.2
  begun : C.state m.begun n.begun
  attempt : C.Attempts m.attempt n.attempt
  apply : ∀ effects p q, m.attempt = .ok (effects, p) → n.attempt = .ok (effects, q) →
    C.Applied (effects.apply m.begun p) (effects.apply n.begun q)
  respond : ∀ effects p q, m.attempt = .ok (effects, p) → n.attempt = .ok (effects, q) →
    effects.cause.isRaised = true →
    C.Responses ((m.raisedState effects).respond m.environment p host h)
      ((n.raisedState effects).respond n.environment q host h)

namespace Steps

variable {host : Host σ} {h : σ} {effects : Effects} {p q p' q' : Platform} {s t : State}

theorem environment (hs : C.Steps m n host h) : m.environment = n.environment :=
  hs.machines.core.environment

theorem interruptPending (hs : C.Steps m n host h) : m.interruptPending = n.interruptPending :=
  hs.machines.core.interruptPending

/-- Two steps that get as far as their effects are counted alike. -/
theorem profile (hs : C.Steps m n host h) (ha : m.attempt = .ok (effects, p))
    (hb : n.attempt = .ok (effects, q)) (happly : effects.apply m.begun p = .ok (s, p'))
    (happly' : effects.apply n.begun q = .ok (t, q'))
    (hpending : (m.step host h).machine.interruptPending =
      (n.step host h).machine.interruptPending) :
    (m.step host h).machine.profile.untaken = (n.step host h).machine.profile.untaken := by
  have hraised : m.raised = n.raised := (Machine.raised_eq ha).trans (Machine.raised_eq hb).symm
  have htakes : m.takesInterrupt host h = n.takesInterrupt host h := by
    unfold Machine.takesInterrupt
    rw [hs.interruptPending, hpending]
  rw [Machine.step_profile ha happly, Machine.step_profile hb happly', Profile.untaken_tally,
    Profile.untaken_tally, hs.machines.profile, hs.fetched, hs.mode, hraised, hs.environment,
    htakes]

theorem unbuilt {e : HostFault} (hs : C.Steps m n host h) (ha : m.attempt = .error e)
    (hb : n.attempt = .error e) :
    C.Outcomes (m.step host h) (n.step host h) := by
  have hl := Machine.step_unbuilt ha host h
  have hl' := Machine.step_unbuilt hb host h
  refine ⟨hl.result.trans hl'.result.symm, hl.host.trans hl'.host.symm, ?_, ?_⟩
  · rw [hl.core, hl'.core]
    exact ⟨hs.begun, hs.found, hs.environment, hs.interruptPending⟩
  · rw [Machine.step_profile_unbuilt ha, Machine.step_profile_unbuilt hb]
    exact hs.machines.profile

theorem raised (hs : C.Steps m n host h) (hc : effects.cause.isRaised = true)
    (ha : m.attempt = .ok (effects, p)) (hb : n.attempt = .ok (effects, q)) :
    C.Outcomes (m.step host h) (n.step host h) := by
  obtain ⟨hresult, hhost, hcores⟩ := (hs.respond effects p q ha hb hc).follows
    (c := ⟨m.raisedState effects, p, m.environment, m.interruptPending⟩)
    (d := ⟨n.raisedState effects, q, n.environment, n.interruptPending⟩)
    hs.environment hs.interruptPending (Machine.step_raised ha hc host h)
    (Machine.step_raised hb hc host h)
  exact ⟨hresult, hhost, hcores, hs.profile ha hb (Effects.apply_raised hc _ _)
    (Effects.apply_raised hc _ _) hcores.interruptPending⟩

theorem quiet (hs : C.Steps m n host h) (hc : effects.cause.isRaised = false)
    (hp : C.platform p q) (ha : m.attempt = .ok (effects, p)) (hb : n.attempt = .ok (effects, q)) :
    C.Outcomes (m.step host h) (n.step host h) := by
  have happlied := hs.apply effects p q ha hb
  cases happly : effects.apply m.begun p with
  | error e =>
      cases happly' : effects.apply n.begun q with
      | ok result => rw [happly, happly'] at happlied; cases happlied
      | error e' =>
          rw [happly, happly'] at happlied
          cases happlied
          have hl := Machine.step_refused ha happly host h
          have hl' := Machine.step_refused hb happly' host h
          refine ⟨hl.result.trans hl'.result.symm, hl.host.trans hl'.host.symm, ?_, ?_⟩
          · rw [hl.core, hl'.core]
            exact ⟨hs.begun, hp, hs.environment, hs.interruptPending⟩
          · rw [Machine.step_profile_refused ha happly, Machine.step_profile_refused hb happly']
            exact hs.machines.profile
  | ok result =>
      cases happly' : effects.apply n.begun q with
      | error e => rw [happly, happly'] at happlied; cases happlied
      | ok result' =>
          rw [happly, happly'] at happlied
          obtain ⟨s, p'⟩ := result
          obtain ⟨t, q'⟩ := result'
          cases happlied with
          | done hst hpq =>
              have hcores : C.Cores ⟨s, p', m.environment, m.interruptPending⟩
                  ⟨t, q', n.environment, n.interruptPending⟩ :=
                ⟨hst, hpq, hs.environment, hs.interruptPending⟩
              obtain ⟨hresult, hafter, hhost, hhost'⟩ := hcores.commits
                (Machine.step_retired ha hc happly host h)
                (Machine.step_retired hb hc happly' host h)
              exact ⟨hresult, hhost.trans hhost'.symm, hafter,
                hs.profile ha hb happly happly' hafter.interruptPending⟩

/-- Machines that meet the conditions take their steps alike, and end them coupled. -/
theorem coupled (hs : C.Steps m n host h) :
    (m.step host h).result = (n.step host h).result ∧
      (m.step host h).host = (n.step host h).host ∧
      C.Machines (m.step host h).machine (n.step host h).machine := by
  have hattempt := hs.attempt
  have hrecord : (m.step host h).machine.record = (n.step host h).machine.record := by
    rw [Machine.step_record, Machine.step_record]
    generalize m.attempt = a at hattempt
    generalize n.attempt = b at hattempt
    cases hattempt <;> rfl
  have hrest : C.Outcomes (m.step host h) (n.step host h) := by
    generalize ha : m.attempt = a at hattempt
    generalize hb : n.attempt = b at hattempt
    cases hattempt with
    | fails e => exact hs.unbuilt ha hb
    | asks effects hp =>
        cases hc : effects.cause.isRaised with
        | true => exact hs.raised hc ha hb
        | false => exact hs.quiet hc hp ha hb
  exact ⟨hrest.result, hrest.host, hrest.core, hrecord, hrest.profile⟩

end Steps

end Coupling

end TypedCore
