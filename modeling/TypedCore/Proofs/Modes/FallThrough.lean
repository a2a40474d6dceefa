import TypedCore.Proofs.Execution.Tally
import TypedCore.Proofs.HostFaults.Missing
import TypedCore.Proofs.Modes.Switching

/-!
# Falling through

An instruction that is neither a jump nor a branch nor `stm`, and raises no
cause, leads onward (`Machine.committedPath_eq_onward`). The profile counts the
instructions that lead elsewhere.

A raised cause always leads elsewhere if it is a task's: to scheduler mode, back
to where the task was, or behind the number of a system call. That number is a
halfword of its own, and so is `syscall`.
-/

namespace TypedCore

/-! ## Lengths -/

namespace Word

variable {a : Word} {n : Nat}

/-- No instruction ends where it starts, not even one at an odd address. -/
theorem even_add_ne (a : Word) (hn : n = 2 ∨ n = 4 ∨ n = 6) : a.even + BitVec.ofNat 32 n ≠ a := by
  intro h
  have hnat := congrArg BitVec.toNat h
  rw [BitVec.toNat_add, toNat_even, BitVec.toNat_ofNat] at hnat
  omega

end Word

theorem Listing.Line.interrupt_len {x : Word} {interpolates : Nat → Prop} {c b a d len : Nat}
    {cause : Cause} (h : Line x interpolates c b a d len (.interrupt cause)) : len = 2 := by
  cases h with
  | alu h => cases h; rfl
  | tiny h => cases h
  | memory h => cases h
  | branch h => cases h
  | extended h => cases h

/-! ## Effects that fall through -/

theorem Insn.Asks.nextPc {insn : Insn} {s : State} {e : Effects} (h : insn.Asks s e) :
    e.nextPc = none ∨ insn.jumpTarget? = some .active := by
  cases h with
  | jumps target addr record ht =>
      cases target with
      | active => exact .inr ht
      | task => exact .inl rfl
  | _ => exact .inl rfl

theorem Effects.shadowed_nextPath {e : Effects} {s : State} (hpc : e.nextPc = none)
    (htpc : e.nextTpc = none) (hmode : e.nextMode = none) :
    (e.shadowed s).nextPath = s.nextPath := by
  unfold shadowed
  rw [hpc, htpc, hmode]
  rfl

theorem Effects.shadowed_nextPath_congr {e : Effects} {s t : State} (hmode : s.mode = t.mode)
    (hpath : s.nextPath = t.nextPath) : (e.shadowed s).nextPath = (e.shadowed t).nextPath := by
  have htpc : s.nextTpc = t.nextTpc := congrArg Path.tpc hpath
  have hspc : s.nextSpc = t.nextSpc := congrArg Path.spc hpath
  have hnext : s.nextMode = t.nextMode := congrArg Path.mode hpath
  unfold shadowed State.setNextPc State.nextPath
  rw [hmode]
  cases e.nextPc <;> cases t.mode <;> simp [htpc, hspc, hnext]

/-! ## Reactions -/

/-- Where the task goes on after a system call: behind its number, or where it was if that cannot
be read. -/
theorem State.syscall_nextTpc (s : State) (p : Platform) (host : Host σ) (h : σ) :
    (s.syscall p host h).state.nextTpc =
      match (p.fetchHalf .task (s.tpc.even + 2)).1 with
      | .ok _ => s.tpc.even + 4
      | .error _ => s.nextTpc := by
  unfold syscall
  dsimp only
  split
  · rename_i fault q hq
    rw [hq]
  · rename_i number q hq
    rw [hq]
    split
    · rfl
    · split
      · rename_i hd
        rcases deliver_writes hd with rfl | ⟨r, hw⟩
        · rfl
        · obtain ⟨regs, dirty, rfl⟩ := writeReg_eq hw
          rfl
      · rfl

namespace Machine

variable {σ : Type} {m : Machine} {effects : Effects} {p q : Platform} {s : State} {host : Host σ}
  {h : σ}

/-! ## Steps -/

/-- The counter grows by one with a step that completes and leads elsewhere. -/
theorem step_taken (m : Machine) (host : Host σ) (h : σ) :
    (m.step host h).machine.profile.taken = m.profile.taken + m.departures host h := by
  cases ha : m.attempt with
  | error e =>
      rw [step_profile_unbuilt ha, departures, (step_unbuilt ha host h).result]
      rfl
  | ok result =>
      obtain ⟨effects, p⟩ := result
      cases happly : effects.apply m.begun p with
      | error e =>
          rw [step_profile_refused ha happly, departures, (step_refused ha happly host h).result]
          rfl
      | ok applied =>
          rw [step_profile ha happly]
          rfl

/-- A step that completes has committed what the effects or the reaction made of the shadow. -/
theorem committedPath_cases {x : Option Halt} (hresult : (m.step host h).result = .ok x) :
    (∃ effects p s q, m.attempt = .ok (effects, p) ∧ effects.cause.isRaised = false ∧
        effects.apply m.begun p = .ok (s, q) ∧ m.committedPath host h = s.nextPath) ∨
      ∃ effects p, m.attempt = .ok (effects, p) ∧ effects.cause.isRaised = true ∧
        m.committedPath host h =
          ((m.raisedState effects).respond m.environment p host h).state.nextPath := by
  cases m.step_goes host h with
  | unbuilt e ha hl =>
      rw [hl.result] at hresult
      cases hresult
  | refused effects p e ha hc happly hl =>
      rw [hl.result] at hresult
      cases hresult
  | raised effects p ha hc hf =>
      right
      refine ⟨effects, p, ha, hc, ?_⟩
      unfold StepOutcome.Follows at hf
      split at hf
      · rw [hf.result] at hresult
        cases hresult
      · exact committedPath_eq hf rfl
  | retired effects p s q ha hc happly hr =>
      exact .inl ⟨effects, p, s, q, ha, hc, happly, committedPath_eq hr rfl⟩

/-- Without a cause, only a jump, a branch or `stm` leads elsewhere. -/
theorem committedPath_eq_onward {x : Option Halt} (hresult : (m.step host h).result = .ok x)
    (hquiet : m.raised.isRaised = false)
    (hplain : ∀ insn, m.insn? = some insn → insn.jumpTarget? = none ∧ insn ≠ .enterTask) :
    m.committedPath host h = m.onward := by
  rcases committedPath_cases hresult with
    ⟨effects, p, s, q, ha, hc, happly, hpath⟩ | ⟨effects, p, ha, hc, -⟩
  · obtain ⟨regs, dirty, latch, rfl⟩ := Effects.apply_eq hc happly
    have hsame : (effects.shadowed m.begun).nextPath = m.begun.nextPath := by
      rcases attempt_asks ha with ⟨fault, -, rfl⟩ | ⟨insn, hinsn, -, hasks⟩
      · exact Effects.shadowed_nextPath rfl rfl rfl
      · obtain ⟨hjump, hstm⟩ := hplain insn hinsn
        exact Effects.shadowed_nextPath
          (hasks.nextPc.resolve_right fun ht => by rw [hjump] at ht; cases ht)
          (hasks.nextTpc.resolve_right fun ht => by rw [hjump] at ht; cases ht)
          (hasks.nextMode.resolve_right hstm)
    rw [hpath, ← begun_nextPath]
    exact hsame
  · rw [raised_eq ha, hc] at hquiet
    cases hquiet

/-! ## Causes -/

/-- What raises `syscall` is one halfword. -/
theorem syscall_len (ha : m.attempt = .ok (effects, p)) (hc : effects.cause = .syscall) :
    (fetchedClass m.fetched.1.toOption).2 = 2 :=
  fetched_len (insn?_of_raised_syscall ha hc) (decode_len (by decide) Listing.Line.interrupt_len)

theorem fetched_len_cases (m : Machine) :
    let len := (fetchedClass m.fetched.1.toOption).2
    len = 2 ∨ len = 4 ∨ len = 6 := by
  intro len
  cases hf : m.fetched.1 with
  | error fault => exact .inl (by simp only [len, hf]; rfl)
  | ok d =>
      obtain ⟨word, ext, rfl⟩ := m.fetched_decode hf
      simp only [len, hf]
      exact word.insnLength_cases

/-- Where the task goes on after a system call in the user environment. -/
theorem respond_nextTpc_syscall (hu : m.environment.isUser = true)
    (ha : m.attempt = .ok (effects, p)) (hc : effects.cause = .syscall) (host : Host σ) (h : σ) :
    ((m.raisedState effects).respond m.environment p host h).state.nextTpc =
      match m.callNumber with
      | .ok _ => m.state.tpc.even + 4
      | .error _ => m.state.tpc := by
  rw [State.respond_syscall hu hc, State.syscall_nextTpc, attempt_syscall ha hc]
  rfl

theorem onward_tpc (hmode : m.state.mode = .task) :
    m.onward.tpc = m.state.tpc.even + BitVec.ofNat 32 (fetchedClass m.fetched.1.toOption).2 := by
  unfold onward State.pc
  rw [hmode]

/-- A system call that the host services always leads elsewhere, in either mode. -/
theorem serviced_ne_onward (hs : m.CallReachesHost) (ha : m.attempt = .ok (effects, p)) :
    ((m.raisedState effects).respond m.environment p host h).state.nextPath ≠ m.onward := by
  obtain ⟨hu, hraised, number, hnumber⟩ := hs
  rw [raised_eq ha] at hraised
  have hnext := respond_nextTpc_syscall hu ha hraised host h
  rw [hnumber] at hnext
  intro heq
  have htpc := hnext.symm.trans (congrArg Path.tpc heq)
  cases hmode : m.state.mode with
  | task =>
      rw [onward_tpc hmode, syscall_len ha hraised] at htpc
      exact absurd ((BitVec.add_right_inj _).mp htpc) (by decide)
  | scheduler =>
      unfold onward at htpc
      rw [hmode] at htpc
      exact Word.even_add_ne m.state.tpc (.inr (.inl rfl)) htpc

/-- A task that raises a cause does not go on behind the instruction that raised it. -/
theorem raised_ne_onward (hmode : m.state.mode = .task) (ha : m.attempt = .ok (effects, p)) :
    ((m.raisedState effects).respond m.environment p host h).state.nextPath ≠ m.onward := by
  -- A task that is put back to where it was is not behind its instruction.
  have hback : ((m.raisedState effects).respond m.environment p host h).state.nextTpc =
      m.state.tpc →
      ((m.raisedState effects).respond m.environment p host h).state.nextPath ≠ m.onward := by
    intro hnext heq
    have htpc := hnext.symm.trans (congrArg Path.tpc heq)
    rw [onward_tpc hmode] at htpc
    exact Word.even_add_ne m.state.tpc m.fetched_len_cases htpc.symm
  cases hu : m.environment.isUser with
  | false =>
      rw [(State.respond_scheduled hu rfl).1]
      intro heq
      have hleads := congrArg Path.mode heq
      unfold onward at hleads
      rw [hmode] at hleads
      cases hleads
  | true =>
      by_cases hsys : effects.cause = .syscall
      · cases hnumber : m.callNumber with
        | ok number => exact serviced_ne_onward ⟨hu, (raised_eq ha).trans hsys, number, hnumber⟩ ha
        | error fault =>
            refine hback ?_
            rw [respond_nextTpc_syscall hu ha hsys, hnumber]
      · refine hback ?_
        rw [State.respond_fatal hu hsys]
        rfl

/-- In scheduler mode a cause leads onward, unless it is a call that the host services. -/
theorem raised_eq_onward (hmode : m.state.mode = .scheduler) (ha : m.attempt = .ok (effects, p))
    (hs : ¬ m.CallReachesHost) :
    ((m.raisedState effects).respond m.environment p host h).state.nextPath = m.onward := by
  have hstate : (m.raisedState effects).nextPath = m.onward := by
    rw [← begun_nextPath]
    simp [raisedState, State.nextPath, begun, State.beginInstruction, hmode]
  have hraised := raised_eq ha
  cases hu : m.environment.isUser with
  | false =>
      rw [State.respond_scheduler (s := m.raisedState effects) hu hmode]
      exact hstate
  | true =>
      by_cases hsys : effects.cause = .syscall
      · cases hnumber : m.callNumber with
        | ok number => exact absurd ⟨hu, hraised.trans hsys, number, hnumber⟩ hs
        | error fault =>
            have hf : p.fetchHalf .task ((m.raisedState effects).tpc.even + 2) =
                (.error fault, (p.fetchHalf .task (m.state.tpc.even + 2)).2) := by
              rw [callNumber, ← attempt_syscall ha hsys] at hnumber
              exact Prod.ext hnumber rfl
            rw [State.respond_syscall hu hsys, State.syscall_unfetched hf]
            exact hstate
      · rw [State.respond_fatal hu hsys]
        exact hstate

theorem raised_onward_iff (ha : m.attempt = .ok (effects, p)) :
    ((m.raisedState effects).respond m.environment p host h).state.nextPath = m.onward ↔
      m.state.mode = .scheduler ∧ ¬ m.CallReachesHost := by
  constructor
  · intro heq
    refine ⟨?_, fun hs => serviced_ne_onward hs ha heq⟩
    cases hmode : m.state.mode with
    | task => exact absurd heq (raised_ne_onward hmode ha)
    | scheduler => rfl
  · rintro ⟨hmode, hs⟩
    exact raised_eq_onward hmode ha hs

/-- Steps that ask for the same and would fall through to the same path lead elsewhere together. -/
theorem departures_congr {n : Machine} (hattempt : m.attempt = n.attempt)
    (hmode : m.state.mode = n.state.mode) (honward : m.onward = n.onward)
    (hreaches : m.CallReachesHost ↔ n.CallReachesHost)
    (hresult : (m.step host h).result = (n.step host h).result) :
    m.departures host h = n.departures host h := by
  unfold departures
  rw [← hresult]
  cases hr : (m.step host h).result with
  | error e => rfl
  | ok x =>
      have hiff : m.committedPath host h = m.onward ↔ n.committedPath host h = n.onward := by
        rcases committedPath_cases hr with
          ⟨effects, p, s, q, ha, hc, happly, hpath⟩ | ⟨effects, p, ha, hc, hpath⟩ <;>
        rcases committedPath_cases (hresult ▸ hr) with
          ⟨effects', p', s', q', ha', hc', happly', hpath'⟩ | ⟨effects', p', ha', hc', hpath'⟩ <;>
        obtain ⟨rfl, rfl⟩ := Prod.mk.inj (Except.ok.inj (ha.symm.trans (hattempt.trans ha')))
        · have hbegun : m.begun.nextPath = n.begun.nextPath := by
            rw [begun_nextPath, begun_nextPath, honward]
          have hsame : s.nextPath = s'.nextPath := by
            obtain ⟨regs, dirty, latch, rfl⟩ := Effects.apply_eq hc happly
            obtain ⟨regs', dirty', latch', rfl⟩ := Effects.apply_eq hc' happly'
            exact Effects.shadowed_nextPath_congr (s := m.begun) (t := n.begun) hmode hbegun
          rw [hpath, hpath', hsame, honward]
        · rw [hc] at hc'
          cases hc'
        · rw [hc] at hc'
          cases hc'
        · rw [hpath, hpath', raised_onward_iff ha, raised_onward_iff ha', hmode, hreaches]
      simp only [hiff]

/-- A step that completes and raises no cause leads onward, unless its instruction is a jump, a
branch or `stm`. The counter of taken instructions grows by one with the completed steps that lead
elsewhere, and with no other; every cause that a task raises is among them, and every system call
that the host services. -/
theorem taken_exact (m : Machine) (host : Host σ) (h : σ) (x : Option Halt)
    (hresult : (m.step host h).result = .ok x) :
    (m.raised.isRaised = false →
      (∀ insn, m.insn? = some insn → insn.jumpTarget? = none ∧ insn ≠ .enterTask) →
      m.committedPath host h = m.onward) ∧
    (m.step host h).machine.profile.taken =
      m.profile.taken + (if m.committedPath host h = m.onward then 0 else 1) ∧
    (m.state.mode = .task → m.raised.isRaised = true →
      (m.step host h).machine.profile.taken = m.profile.taken + 1) ∧
    (m.CallReachesHost →
      (m.step host h).machine.profile.taken = m.profile.taken + 1) := by
  have hcount := m.step_taken host h
  unfold departures at hcount
  rw [hresult] at hcount
  -- The last two are about steps that raise a cause, so what they commit is the reaction's.
  have hraised : m.raised.isRaised = true → ∃ effects p, m.attempt = .ok (effects, p) ∧
      m.committedPath host h =
        ((m.raisedState effects).respond m.environment p host h).state.nextPath := by
    intro hr
    rcases committedPath_cases hresult with
      ⟨effects, p, s, q, ha, hc, -, -⟩ | ⟨effects, p, ha, -, hpath⟩
    · rw [raised_eq ha, hc] at hr
      cases hr
    · exact ⟨effects, p, ha, hpath⟩
  refine ⟨committedPath_eq_onward hresult, hcount, fun hmode hr => ?_, fun hs => ?_⟩
  · obtain ⟨effects, p, ha, hpath⟩ := hraised hr
    rw [hcount, if_neg]
    rw [hpath]
    exact raised_ne_onward hmode ha
  · obtain ⟨effects, p, ha, hpath⟩ := hraised (by rw [hs.2.1]; rfl)
    rw [hcount, if_neg]
    rw [hpath]
    exact serviced_ne_onward hs ha

/-- A task at the last halfword of memory, its program counter with bit 0 set; there stands a
fence. -/
def brink : Machine where
  state := { mode := .task, tpc := 0xffffffff }
  platform :=
    { model := .generic
      bus := { devices := [.ram (Ram.setBytes ⟨0xfffffff0, 16, ∅⟩ 14 [0x10, 0x00])] } }
  environment := .operating

/-- Behind the end of memory is its beginning. -/
theorem taken_exact_brink :
    (brink.step Host.noting none).result = .ok none ∧
      brink.committedPath Host.noting none = ⟨0, 0, .task⟩ ∧
      (brink.step Host.noting none).machine.profile.taken = 0 := by
  have hresult : (brink.step Host.noting none).result = .ok none := by rfl
  have hi : brink.insn? = some (.fence 0) := by decide +kernel
  obtain ⟨hpath, htaken, -⟩ := taken_exact brink Host.noting none none hresult
  have honward : brink.committedPath Host.noting none = brink.onward := by
    refine hpath (by decide +kernel) fun insn hinsn => ?_
    obtain rfl := Option.some.inj (hi.symm.trans hinsn)
    exact ⟨rfl, by decide⟩
  refine ⟨hresult, honward.trans (by decide +kernel), ?_⟩
  rw [htaken, if_pos honward]
  rfl

end Machine

end TypedCore
