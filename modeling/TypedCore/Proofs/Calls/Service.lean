import TypedCore.Proofs.HostFaults.Missing
import TypedCore.Proofs.Modes.Switching

/-!
# Steps that are system calls

In the user environment a step whose instruction is `syscall` goes one of three
ways: the number behind the instruction cannot be fetched, and the run ends like
that fetch; the service fails, and with it the step; or the service comes to a
reply, which is delivered and committed. `Machine.step_unnumbered`,
`Machine.step_unserviced` and `Machine.step_replied` are these ways.

The first two leave the program's registers alone. The third writes the result
register at most, and the error word if the call failed (`State.deliver_failed`).
-/

namespace TypedCore

/-! ## Delivery -/

namespace State

/-- A state with a number in the result register. -/
def replied (s : State) (v : Word) : State :=
  { s with
    regs := s.regs.set resultReg (.int v)
    dirty :=
      if s.regs.read resultReg != .int v then s.dirty ||| 1#16 <<< resultReg else s.dirty }

/-- The address that a failed call stores its error number at. -/
def errorAddr (s : State) : Word := (s.regs.read errorReg).value

variable (s : State) (p : Platform) (v ret : Word) (errno : Int)

theorem writeReg_result : s.writeReg resultReg (.int v) = .ok (s.replied v) := by
  simp [writeReg, RegFile.write, replied, resultReg, bind, Except.bind, pure, Except.pure]

theorem replied_read (i : Nat) :
    (s.replied v).regs.read i = if i = resultReg then .int v else s.regs.read i := by
  have hread := RegFile.read_set s.regs resultReg i (.int v)
  by_cases hi : i = resultReg
  · rw [if_pos ⟨hi.symm, hi ▸ by decide⟩] at hread
    rw [if_pos hi]
    exact hread
  · rw [if_neg fun h => hi h.1.symm] at hread
    rw [if_neg hi]
    exact hread

@[simp] theorem errorAddr_replied : (s.replied v).errorAddr = s.errorAddr := by
  rw [errorAddr, replied_read, if_neg (by decide)]
  rfl

theorem deliver_value : s.deliver p (.value v) = .ok (none, s.replied v, p) := by
  unfold deliver
  dsimp only
  rw [writeReg_result]
  rfl

/-- The result of a failed call is written first; an error word that is not aligned then ends
the run. -/
theorem deliver_failed :
    s.deliver p (.failed ret errno) = .ok (
      if s.errorAddr.toNat % 4 ≠ 0 then (some (.bySignal .bus), s.replied ret, p)
      else if s.errorAddr = 0 then (none, s.replied ret, p)
      else (none, s.replied ret, (p.write .task s.errorAddr .word (BitVec.ofInt 32 errno)).2)) := by
  have haddr : ((s.replied ret).regs.read errorReg).value = s.errorAddr := s.errorAddr_replied ret
  unfold deliver
  dsimp only
  rw [writeReg_result]
  simp only [bind, Except.bind, pure, Except.pure, haddr]
  split
  · rfl
  · split <;> rfl

end State

/-! ## Steps -/

namespace Machine

variable {σ : Type} {m : Machine} {host : Host σ} {h h' : σ} {number : Half} {q q' : Platform}

/-- The platform once the number of the call has been fetched. -/
def numbered (m : Machine) : Platform :=
  (m.fetched.2.fetchHalf .task (m.state.tpc.even + 2)).2

theorem numbered_usedLast (m : Machine) : ∃ i, m.numbered = m.platform.usedLast i := by
  obtain ⟨i, hi⟩ := m.fetched_usedLast
  obtain ⟨j, hj⟩ := Platform.fetchHalf_snd m.fetched.2 .task (m.state.tpc.even + 2)
  refine ⟨j, ?_⟩
  rw [numbered, hj, hi, Platform.usedLast_usedLast]

/-- The state that a reply is delivered to: the task is to go on behind the number. -/
def behindCall (m : Machine) : State :=
  { m.raisedState (.raise .syscall) with nextTpc := m.state.tpc.even + 4 }

/-- A call has been replied to: the result register has a number, the other registers have what
they had, and the task is behind the call. -/
structure Replied (m : Machine) (r : StepOutcome σ) (v : Word) : Prop where
  value : r.machine.state.regs.read resultReg = .int v
  others : ∀ i, i ≠ resultReg → r.machine.state.regs.read i = m.state.regs.read i
  tpc : r.machine.state.tpc = m.state.tpc.even + 4

theorem replied_of_state {r : StepOutcome σ} {v : Word}
    (hstate : r.machine.state = (m.behindCall.replied v).commit) : m.Replied r v := by
  have hread : ∀ i, r.machine.state.regs.read i = (m.behindCall.replied v).regs.read i := by
    intro i
    rw [hstate]
    rfl
  refine ⟨?_, fun i hi => ?_, by rw [hstate]; rfl⟩
  · rw [hread, State.replied_read, if_pos rfl]
  · rw [hread, State.replied_read, if_neg hi]
    rfl

/-- What the service of the next call comes to, if it has the given number. -/
def serviced (m : Machine) (host : Host σ) (h : σ) (number : Half) :
    Except HostFault SyscallReply × Platform × σ :=
  m.numbered.service host (Syscall.ofNumber? number.toNat) m.state.callArgs h

section Calls

variable (hu : m.environment.isUser = true) (hi : m.insn? = some (.interrupt .syscall))

include hu hi

theorem step_calls (host : Host σ) (h : σ) :
    (m.step host h).Follows
      ⟨m.raisedState (.raise .syscall), m.fetched.2, m.environment, m.interruptPending⟩
      ((m.raisedState (.raise .syscall)).syscall m.fetched.2 host h) := by
  have hf := step_raised (m.attempt_of_insn? hi) rfl host h
  rwa [State.respond_syscall hu rfl] at hf

theorem step_unnumbered {fault : MemFault} (hn : m.callNumber = .error fault) (host : Host σ)
    (h : σ) :
    (m.step host h).Leaves (.ok (some (.bySignal fault.cause.signal)))
      ⟨(m.raisedState (.raise .syscall)).commit, m.numbered, m.environment, m.interruptPending⟩
      h := by
  have hf := step_calls hu hi host h
  have hfetch : m.fetched.2.fetchHalf .task ((m.raisedState (.raise .syscall)).tpc.even + 2) =
      (.error fault, m.numbered) := Prod.ext hn rfl
  rw [State.syscall_unfetched hfetch] at hf
  obtain ⟨x, d, hends, hl⟩ := hf
  cases hends with
  | halted halt => exact hl

variable (hn : m.callNumber = .ok number)

include hn

theorem step_services (host : Host σ) (h : σ) :
    (m.step host h).Follows
      ⟨m.raisedState (.raise .syscall), m.fetched.2, m.environment, m.interruptPending⟩
      (match m.serviced host h number with
        | (.error e, p, h) => ⟨.error e, m.behindCall, p, h⟩
        | (.ok reply, p, h) => m.behindCall.delivered p reply h) := by
  have hf := step_calls hu hi host h
  have hfetch : m.fetched.2.fetchHalf .task ((m.raisedState (.raise .syscall)).tpc.even + 2) =
      (.ok number, m.numbered) := Prod.ext hn rfl
  rwa [State.syscall_fetched hfetch] at hf

theorem step_unserviced {e : HostFault} (hs : m.serviced host h number = (.error e, q, h')) :
    (m.step host h).Leaves (.error e) ⟨m.behindCall, q, m.environment, m.interruptPending⟩ h' := by
  have hf := step_services hu hi hn host h
  rw [hs] at hf
  exact hf

/-- A reply is delivered and committed, and no interrupt comes in between. -/
theorem step_replied {reply : SyscallReply} {halt : Option Halt} {t : State}
    (hs : m.serviced host h number = (.ok reply, q, h'))
    (hd : m.behindCall.deliver q reply = .ok (halt, t, q')) :
    (m.step host h).result = .ok (halt.or q'.bus.takeExit.1) ∧
      (m.step host h).machine.state = t.commit ∧
      q'.SameContents (m.step host h).machine.platform ∧ (m.step host h).host = h' := by
  have hf := step_services hu hi hn host h
  rw [hs] at hf
  dsimp only at hf
  unfold State.delivered at hf
  rw [hd] at hf
  have hc : (m.step host h).Commits ⟨t, q', m.environment, m.interruptPending⟩ halt h' := hf
  obtain ⟨x, d, hends, hl⟩ := hc
  have hno : t.commit.takeInterrupt m.environment = none := by
    unfold State.takeInterrupt
    rw [hu]
    rfl
  obtain ⟨rfl, hstate, -⟩ := hends.uninterrupted fun _ => hno
  exact ⟨hl.result, hl.state.trans hstate, hl.platform ▸ hends.sameContents, hl.host⟩

end Calls

end Machine

end TypedCore
