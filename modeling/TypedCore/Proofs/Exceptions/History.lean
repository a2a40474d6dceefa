import TypedCore.Proofs.Exceptions.Classified

/-!
# What the cause register tells

A cause takes two steps to the scheduler: the instruction that raises it leaves
it in the state, and the next instruction moves it to the latch, where it can be
read. Reads clear the latch and writes replace it, and an interrupt leaves a
cause in between two instructions.

The events of a run are told without either place. An exception is the first call
of the instruction that failed (`Machine.failedCall?`), whose kind and address are
all that there is to tell of it, or else a cause without an address; a status
register is read or written by the instruction that names it.

The invariant looks through the two places at once. `State.latched` is the latch
that the next instruction finds, and in it every event of a run takes effect the
moment it happens (`step_latched`). What a read finds is therefore a function of
the events so far: the latest one that says something about the cause, and the
latest that says something about the address.
-/

namespace TypedCore

/-! ## Events -/

/-- What changes the meaning of the latch. -/
inductive Event where
  /-- A halfword that could not be fetched, or an access that was refused. -/
  | failed (call : MemCall)
  /-- A cause that comes from no call. -/
  | raised (cause : Cause)
  | interrupted
  | causeRead
  | causeWritten (value : Word)
  | addrWritten (value : Word)

namespace Event

/-- What the cause register is to tell after an event, if the event says so. -/
def cause? : Event → Option Word
  | failed call => some (BitVec.ofNat 32 call.failure.cause.code)
  | raised cause => some (BitVec.ofNat 32 cause.code)
  | interrupted => some 0x10
  | causeRead => some 0
  | causeWritten value => some value
  | addrWritten _ => none

/-- What the address register is to tell after an event, if the event says so. -/
def addr? : Event → Option Word
  | failed call => some call.addr
  | addrWritten value => some value
  | _ => none

end Event

/-- The event that an access to a status register is. -/
def CsrAccess.event? : CsrAccess → Option Event
  | read _ addr => if addr.toNat = 2 then some .causeRead else none
  | write addr value =>
    if addr.toNat = 2 then some (.causeWritten value)
    else if addr.toNat = 3 then some (.addrWritten value)
    else none

/-- A latch after some events, the latest first. -/
def ExceptionLatch.after (l : ExceptionLatch) (events : List Event) : ExceptionLatch where
  ecause := (events.findSome? Event.cause?).getD l.ecause
  eaddr := (events.findSome? Event.addr?).getD l.eaddr

@[simp] theorem ExceptionLatch.after_nil (l : ExceptionLatch) : l.after [] = l := rfl

theorem ExceptionLatch.after_append (l : ExceptionLatch) (later earlier : List Event) :
    l.after (later ++ earlier) = (l.after earlier).after later := by
  unfold after
  simp only [List.findSome?_append, Option.getD_or]

namespace Machine

variable {σ : Type} (m : Machine) (host : Host σ) (h : σ)

/-- The event that the next instruction is. -/
def event? : Option Event :=
  match m.failedCall? with
  | some call => some (.failed call)
  | none =>
    if m.raised.isRaised then some (.raised m.raised)
    else m.insn?.bind fun insn => (insn.csrAccess m.state.regs).bind CsrAccess.event?

/-- The events of an action, the latest first. -/
def events : Action → List Event
  | .step => (if m.takesInterrupt host h then [.interrupted] else []) ++ m.event?.toList
  | _ => []

/-- The events of a run, the latest first. -/
def history (host : Host σ) (m : Machine) (h : σ) : List Action → List Event
  | [] => []
  | a :: acts => history host (m.act host h a).1 (m.act host h a).2 acts ++ m.events host h a

end Machine

/-! ## Instructions -/

/-- An access to a status register changes the latch as its event says. -/
theorem Effects.apply_latch {e : Effects} {s t : State} {p q : Platform}
    (hc : e.cause.isRaised = false) (h : e.apply s p = .ok (t, q)) :
    t.latch = s.latch.after (e.csr.bind CsrAccess.event?).toList := by
  obtain ⟨u, hsettle, h⟩ := apply_ok hc h
  have hu := (settle_kept hsettle).latch
  cases hcsr : e.csr with
  | none =>
      rw [hcsr] at h
      rw [h.1, hu]
      rfl
  | some access =>
      rw [hcsr] at h
      rw [Option.bind_some]
      cases access with
      | read rd addr =>
          obtain ⟨-, v, -, hwrite⟩ := CsrAccess.apply_read h
          have ht : t.latch = u.latch.afterRead addr := (State.Kept.writeReg hwrite).latch
          rw [ht, hu]
          unfold ExceptionLatch.afterRead CsrAccess.event?
          dsimp only
          split <;> rfl
      | write addr value =>
          obtain ⟨rfl, -⟩ := CsrAccess.apply_write h
          rw [← hu]
          unfold ExceptionLatch.afterWrite CsrAccess.event?
          dsimp only
          split
          · rfl
          · split <;> rfl

namespace State

/-- A cause without an address is told, and the address of an earlier one stays. -/
theorem latched_raised {s : State} (hc : s.cause.isRaised = true) (hnone : s.faultAddr = none) :
    s.latched = s.latch.after [.raised s.cause] := by
  unfold latched
  rw [if_pos hc, hnone]
  rfl

theorem latched_failed {s : State} {call : MemCall} (hc : s.cause.isRaised = true)
    (hcause : s.cause = call.failure.cause) (haddr : s.faultAddr = some call.addr) :
    s.latched = s.latch.after [.failed call] := by
  unfold latched
  rw [if_pos hc, hcause, haddr]
  rfl

theorem Kept.latched {s t : State} (hk : s.Kept t) : t.latched = s.latched := by
  unfold State.latched
  rw [hk.cause, hk.faultAddr, hk.latch]

theorem latched_takeInterrupt {s t : State} {environment : Environment}
    (hs : s.takeInterrupt environment = some t) : t.latched = s.latch.after [.interrupted] := by
  rw [takeInterrupt_eq hs]
  rfl

end State

/-! ## What an instruction is -/

namespace Machine

variable {m : Machine} {effects : Effects} {p : Platform}

/-- The calls of an instruction that raises nothing are answered. -/
theorem failedCall?_quiet (ha : m.attempt = .ok (effects, p))
    (hc : effects.cause.isRaised = false) : m.failedCall? = none := by
  have heffects := attempt_memFault ha
  rw [memFault?_eq] at heffects
  cases hfailed : m.failedCall? with
  | none => rfl
  | some call =>
      rw [hfailed] at heffects
      obtain rfl : effects = .fault call.failure := heffects
      cases call.failure_isRaised.symm.trans hc

/-- An instruction without a cause is an event if it reads or writes a register of the latch. -/
theorem event?_quiet (ha : m.attempt = .ok (effects, p)) (hc : effects.cause.isRaised = false) :
    m.event? = effects.csr.bind CsrAccess.event? := by
  unfold event?
  rw [failedCall?_quiet ha hc, raised_eq ha, hc]
  rcases attempt_recorded ha with ⟨fault, hi, rfl, -⟩ | ⟨insn, hi, -⟩
  · obtain ⟨fault, hfault⟩ := m.insn?_eq_none_iff.mp hi
    have hmem := m.memFault?_eq
    rw [memFault?, hfault, failedCall?_quiet ha hc] at hmem
    cases hmem
  · rw [hi, Insn.execute_csr ((m.attempt_of_insn? hi).symm.trans ha)]
    rfl

/-- Effects that cannot be applied are no event: what is refused is a register that does not
exist, and those of the latch do. -/
theorem event?_refused {e : HostFault} (ha : m.attempt = .ok (effects, p))
    (hc : effects.cause.isRaised = false) (happly : effects.apply m.begun p = .error e) :
    m.event? = none := by
  rw [event?_quiet ha hc]
  cases hcsr : effects.csr with
  | none => rfl
  | some access =>
      obtain ⟨insn, hi, haccess⟩ := m.insn?_of_csr ha hcsr
      obtain ⟨rfl, -⟩ := Prod.mk.inj (Except.ok.inj (ha.symm.trans (m.attempt_csr hi haccess)))
      have hfail : access.apply m.begun p = .error e := happly
      rw [Option.bind_some]
      cases access with
      | read rd addr =>
          obtain rfl := Insn.csrAccess_read haccess
          have hrd : rd < 15 := (m.insn?_valid hi).registers_lt rd (by simp [Insn.registers])
          refine if_neg fun haddr => ?_
          obtain ⟨t, ht, -⟩ := CsrAccess.apply_read_ok hrd (Platform.readCsr_cause haddr)
          rw [hfail] at ht
          cases ht
      | write addr value =>
          have hother : ¬ (addr.toNat = 2 ∨ addr.toNat = 3) := by
            intro haddr
            rw [CsrAccess.apply, Platform.writeCsr_own haddr] at hfail
            cases hfail
          exact (if_neg fun h => hother (.inl h)).trans (if_neg fun h => hother (.inr h))

/-- An instruction without effects makes no access, and none to a status register. -/
theorem event?_unbuilt {e : HostFault} (ha : m.attempt = .error e) : m.event? = none := by
  cases hf : m.fetched.1 with
  | error fault => cases ha.symm.trans (m.attempt_of_unfetched hf)
  | ok d =>
      have hi : m.insn? = some d.insn := by rw [insn?, hf]; rfl
      have hex : d.insn.execute m.begun m.fetched.2 = .error e :=
        (m.attempt_of_insn? hi).symm.trans ha
      have haccess : m.access? = none := by
        rw [access?, hi, Option.bind_some]
        cases hcall : d.insn.access? m.begun with
        | none => rfl
        | some call =>
            obtain ⟨f, -, hok⟩ := Insn.execute_access hcall
            cases (hok _).symm.trans hex
      have hfailed := m.memFault?_eq
      rw [memFault?, hf, accessFault?, haccess] at hfailed
      unfold event?
      rw [Option.map_eq_none_iff.mp hfailed.symm, raised, ha, hi, Option.bind_some]
      show Option.bind (d.insn.csrAccess m.begun.regs) _ = none
      rw [Insn.csrAccess_of_error hex]
      rfl

end Machine

/-! ## Steps -/

namespace Core.Ends

variable {c d : Core} {halt x : Option Halt}

/-- An instruction without a cause leaves the latch to the interrupt, if one is taken. -/
theorem latched (h : c.Ends halt x d) (hcause : c.state.cause = .none) :
    d.state.latched = c.state.latch.after
      (if c.interruptPending && !d.interruptPending then [.interrupted] else []) := by
  have hquiet : c.state.commit.latched = c.state.latch := State.latched_quiet hcause
  cases h with
  | halted halt => simpa [committed] using hquiet
  | exited halt bus hexit => simpa [committed] using hquiet
  | interrupted s hexit hpending hs =>
      have hs' : s.latched = c.state.commit.latch.after [.interrupted] :=
        State.latched_takeInterrupt hs
      rw [hpending]
      exact hs'
  | wentOn hexit hs => simpa [committed] using hquiet

end Core.Ends

namespace Machine

variable {σ : Type} {m : Machine} {effects : Effects} {p : Platform} {host : Host σ} {h : σ}

theorem latched_begun : m.begun.latched = m.state.latched := State.latched_quiet rfl

/-- A cause is the event of its instruction. -/
theorem latched_raisedState (ha : m.attempt = .ok (effects, p))
    (hc : effects.cause.isRaised = true) :
    (m.raisedState effects).latched = m.state.latched.after m.event?.toList := by
  have heffects := attempt_memFault ha
  unfold event?
  rw [memFault?_eq] at heffects
  cases hfailed : m.failedCall? with
  | none =>
      rw [hfailed] at heffects
      rw [raised_eq ha, if_pos hc]
      exact State.latched_raised hc heffects.2
  | some call =>
      rw [hfailed] at heffects
      obtain rfl : effects = .fault call.failure := heffects
      exact State.latched_failed hc rfl rfl

/-- A step that raises a cause hands it on, and no interrupt comes between. -/
theorem raised_latched (ha : m.attempt = .ok (effects, p)) (hc : effects.cause.isRaised = true)
    (host : Host σ) (h : σ) :
    (m.step host h).machine.state.latched = m.state.latched.after m.event?.toList ∧
      (m.step host h).machine.interruptPending = m.interruptPending := by
  obtain ⟨t, hk, hstate, hpending⟩ := step_raised_state ha hc host h
  refine ⟨?_, hpending⟩
  rw [← latched_raisedState ha hc, ← hk.latched]
  rcases hstate with hstate | hstate <;> rw [hstate]
  rfl

/-- A step that keeps an interrupt waiting has no event but the instruction. -/
theorem events_step_of_pending
    (hp : (m.step host h).machine.interruptPending = m.interruptPending) :
    m.events host h .step = m.event?.toList := by
  unfold events
  rw [untaken_of_pending hp]
  rfl

/-- Every event of a step takes effect with it. -/
theorem step_latched (m : Machine) (host : Host σ) (h : σ) :
    (m.step host h).machine.state.latched = m.state.latched.after (m.events host h .step) := by
  -- Only the last of the four ways a step can go leaves room for an interrupt.
  cases m.step_goes host h with
  | unbuilt e ha hl =>
      rw [events_step_of_pending hl.interruptPending, hl.state, event?_unbuilt ha]
      exact latched_begun
  | refused effects p e ha hc happly hl =>
      rw [events_step_of_pending hl.interruptPending, hl.state, event?_refused ha hc happly]
      exact latched_begun
  | raised effects p ha hc hf =>
      obtain ⟨hlatched, hpending⟩ := raised_latched ha hc host h
      rw [events_step_of_pending hpending, hlatched]
  | retired effects p s q ha hc happly hr =>
      obtain ⟨x, d, hends, hl⟩ := hr
      have hlatch : s.latch = m.state.latched.after m.event?.toList := by
        rw [event?_quiet ha hc]
        exact Effects.apply_latch hc happly
      rw [hl.state, hends.latched (Effects.apply_kept hc happly).cause, hlatch,
        ← ExceptionLatch.after_append]
      unfold events takesInterrupt
      rw [hl.interruptPending]

/-- A load leaves the exceptions of the machine alone. -/
theorem load_latched (m : Machine) (image : Image) (args : List (List Byte)) (sp : Word) :
    (m.load image args sp).2.state.latched = m.state.latched := by
  unfold load
  split
  · rfl
  · dsimp only
    split
    · rename_i s hs
      have hset : (m.state.setPc image.entry).latched = m.state.latched := by
        unfold State.setPc
        split <;> rfl
      exact (State.Kept.writeReg hs).latched.trans hset
    · rfl

theorem act_latched (m : Machine) (host : Host σ) (h : σ) (a : Action) :
    (m.act host h a).1.state.latched = m.state.latched.after (m.events host h a) := by
  cases a with
  | step => exact m.step_latched host h
  | interrupt => rfl
  | load image args sp => exact m.load_latched image args sp

/-! ## Runs -/

/-- After a run, the latch that the next instruction finds is the one that the events of the
run ask for. -/
theorem run_latched (host : Host σ) (acts : List Action) (m : Machine) (h : σ) :
    (m.run host h acts).1.state.latched = m.state.latched.after (m.history host h acts) := by
  induction acts generalizing m h with
  | nil => rfl
  | cons a acts ih =>
      have ha := m.act_latched host h a
      rw [run, history, ih, ha, ExceptionLatch.after_append]

/-! ## Reads -/

/-- Reading a status register puts what is in it into a register. -/
theorem csrRead_step {rd : Nat} {addr v : Word} {l : ExceptionLatch}
    (hi : m.insn? = some (.csrRead rd addr))
    (hread : m.fetched.2.readCsr m.state.latched m.state.mode addr = .ok (v, l)) :
    ((m.step host h).machine.state.regs.read rd).value = v := by
  have ha := m.attempt_csr hi rfl
  have hrd : rd < 15 := (m.insn?_valid hi).registers_lt rd (by simp [Insn.registers])
  obtain ⟨t, ht, hv⟩ := CsrAccess.apply_read_ok (s := m.begun) hrd hread
  obtain ⟨x, d, hends, hl⟩ := step_retired (q := m.fetched.2) ha rfl ht host h
  rw [hl.state, hends.regs]
  exact hv

/-- A step that takes an interrupt raised no cause of its own. -/
theorem raised_of_takesInterrupt (ht : m.takesInterrupt host h = true) : m.raised = .none := by
  cases ha : m.attempt with
  | error e => rw [raised, ha]
  | ok result =>
      obtain ⟨effects, p⟩ := result
      rw [raised_eq ha]
      cases hc : effects.cause.isRaised with
      | true =>
          have hpending := (raised_latched ha hc host h).2
          unfold takesInterrupt at ht
          rw [hpending, Bool.and_not_self] at ht
          cases ht
      | false => exact Cause.eq_none hc

/-- At every point of every run from reset, the cause register reads as the latest event
that concerns it says. The address register reads as the address of the latest call that
failed, a halfword of an instruction or the access it was for, or as what was written to it
since. Where an interrupt is taken, there is no cause that it could replace. -/
theorem csrRead_latest (m : Machine) (host : Host σ) (h : σ) (acts : List Action) :
    let now := m.reset.run host h acts
    let past := m.reset.history host h acts
    let cause := (past.findSome? Event.cause?).getD 0
    let faultAddr := (past.findSome? Event.addr?).getD 0
    let next := now.1.step host now.2
    (∀ rd addr, now.1.insn? = some (.csrRead rd addr) → addr.toNat = 2 →
      (next.machine.state.regs.read rd).value =
        if now.1.state.mode.isTask then cause ||| 0x80000000 else cause) ∧
    (∀ rd addr, now.1.insn? = some (.csrRead rd addr) → addr.toNat = 3 →
      (next.machine.state.regs.read rd).value = faultAddr) ∧
    (now.1.takesInterrupt host now.2 = true → now.1.raised = .none) := by
  intro now past cause faultAddr next
  have hlatched : now.1.state.latched = ⟨cause, faultAddr⟩ :=
    run_latched host acts m.reset h
  refine ⟨?_, ?_, raised_of_takesInterrupt⟩
  · intro rd addr hi haddr
    refine csrRead_step (l := { now.1.state.latched with ecause := 0 }) hi ?_
    rw [Platform.readCsr_cause haddr, hlatched]
    rfl
  · intro rd addr hi haddr
    refine csrRead_step (l := now.1.state.latched) hi ?_
    rw [Platform.readCsr_faultAddr haddr, hlatched]

/-- A scheduler that starts a task three times. The task first loads a word from `0x2000`, where
there is no memory, then goes on at `0x1000`, where there is none either, and is interrupted the
third time. After each the scheduler reads the cause and the address. -/
def overseer : Machine where
  state := {}
  platform :=
    { model := .generic
      bus := { devices := [.ram <|
        (Ram.setBytes ⟨0, 256, ∅⟩ 0x00 [0xe3, 0x0f, 0x40, 0x00, 0x08, 0x00,
          0xf1, 0xf0, 2, 0, 0, 0, 0xf2, 0xf0, 3, 0, 0, 0,
          0xe3, 0x0f, 0x00, 0x10, 0x08, 0x00,
          0xf3, 0xf0, 2, 0, 0, 0, 0xf4, 0xf0, 3, 0, 0, 0,
          0x08, 0x00, 0xf5, 0xf0, 2, 0, 0, 0, 0xf6, 0xf0, 3, 0, 0, 0]).setBytes
            0x40 [0xf5, 0xfa, 0x00, 0x20, 0x00, 0x00]] } }
  environment := .operating

/-- Where a run of `overseer` leads. -/
def overseerAfter (acts : List Action) : Machine × Option HostCall :=
  overseer.reset.run Host.noting none acts

/-- What the next step of a run of `overseer` leaves in a register. -/
def overseerReads (acts : List Action) (rd : Nat) : Word :=
  let now := overseerAfter acts
  ((now.1.step Host.noting now.2).machine.state.regs.read rd).value

theorem csrRead_latest_overseer :
    let refused := List.replicate 2 Action.step
    let unfetched := List.replicate 7 Action.step
    let waiting := List.replicate 10 Action.step ++ [.interrupt]
    (overseerAfter refused).1.failedCall? = some (.read .task 0x2000 .word) ∧
      (overseerAfter (refused ++ [.step])).1.insn? = some (.csrRead 1 2) ∧
      overseerReads (refused ++ [.step]) 1 = 0x41 ∧
      (overseerAfter (refused ++ [.step, .step])).1.insn? = some (.csrRead 2 3) ∧
      overseerReads (refused ++ [.step, .step]) 2 = 0x2000 ∧
      (overseerAfter unfetched).1.failedCall? = some (.fetch .task 0x1000) ∧
      (overseerAfter (unfetched ++ [.step])).1.insn? = some (.csrRead 3 2) ∧
      overseerReads (unfetched ++ [.step]) 3 = 0x40 ∧
      (overseerAfter (unfetched ++ [.step, .step])).1.insn? = some (.csrRead 4 3) ∧
      overseerReads (unfetched ++ [.step, .step]) 4 = 0x1000 ∧
      (overseerAfter waiting).1.takesInterrupt Host.noting (overseerAfter waiting).2 = true ∧
      (overseerAfter waiting).1.raised = .none ∧
      (overseerAfter (waiting ++ [.step])).1.insn? = some (.csrRead 5 2) ∧
      overseerReads (waiting ++ [.step]) 5 = 0x10 ∧
      (overseerAfter (waiting ++ [.step, .step])).1.insn? = some (.csrRead 6 3) ∧
      overseerReads (waiting ++ [.step, .step]) 6 = 0x1000 := by
  intro refused unfetched waiting
  have hcause : ∀ {acts rd v}, (overseerAfter acts).1.insn? = some (.csrRead rd 2) →
      (overseerAfter acts).1.state.mode.isTask = false →
      ((overseer.reset.history Host.noting none acts).findSome? Event.cause?).getD 0 = v →
      overseerReads acts rd = v := by
    intro acts rd v hi hmode hv
    have hread := (csrRead_latest overseer Host.noting none acts).1 rd 2 hi rfl
    exact hread.trans ((if_neg (Bool.eq_false_iff.mp hmode)).trans hv)
  have haddr : ∀ {acts rd v}, (overseerAfter acts).1.insn? = some (.csrRead rd 3) →
      ((overseer.reset.history Host.noting none acts).findSome? Event.addr?).getD 0 = v →
      overseerReads acts rd = v := fun hi hv =>
    ((csrRead_latest overseer Host.noting none _).2.1 _ 3 hi rfl).trans hv
  have htaken : (overseerAfter waiting).1.takesInterrupt Host.noting
      (overseerAfter waiting).2 = true := by
    decide +kernel
  have hraised := (csrRead_latest overseer Host.noting none waiting).2.2 htaken
  have hinsns : (overseerAfter (refused ++ [.step])).1.insn? = some (.csrRead 1 2) ∧
      (overseerAfter (refused ++ [.step, .step])).1.insn? = some (.csrRead 2 3) ∧
      (overseerAfter (unfetched ++ [.step])).1.insn? = some (.csrRead 3 2) ∧
      (overseerAfter (unfetched ++ [.step, .step])).1.insn? = some (.csrRead 4 3) ∧
      (overseerAfter (waiting ++ [.step])).1.insn? = some (.csrRead 5 2) ∧
      (overseerAfter (waiting ++ [.step, .step])).1.insn? = some (.csrRead 6 3) := by
    decide +kernel
  obtain ⟨h1, h2, h3, h4, h5, h6⟩ := hinsns
  refine ⟨by decide +kernel, h1, hcause h1 ?_ ?_, h2, haddr h2 ?_, by decide +kernel, h3,
    hcause h3 ?_ ?_, h4, haddr h4 ?_, htaken, hraised, h5, hcause h5 ?_ ?_, h6, haddr h6 ?_⟩ <;>
    decide +kernel

end Machine

end TypedCore
