import TypedCore.Proofs.Exceptions.Precise
import TypedCore.Proofs.Execution.Outcome

/-!
# What a machine lacks

A fault of the simulator never comes from a program's data: a step ends in one
exactly if the next instruction asks for something that the machine does not
have (`step_error_iff`). That is lane interpolation, a status register outside of
the model's own, or one of four calls to the host. `Machine.Lacks` lists them,
each with its fault.

Nothing else can go wrong, because every decoded instruction is `Insn.Valid`: it
has an address to compute, a text to be traced with, and no register to write
that does not exist.
-/

namespace TypedCore

/-! ## Status registers -/

/-- The status registers that a model has. -/
def MachineModel.csrs : MachineModel → List Nat
  | generic | peripheral => [0, 1, 2, 3]
  | windowed => [0, 1, 2, 3, 0x80, 0x81, 0x82, 0x83]

/-- The fault of an access to a status register that a model does not have. -/
inductive MachineModel.LacksCsr (model : MachineModel) (addr : Word) : HostFault → Prop where
  | floatStatus (haddr : addr.toNat = 4) :
      LacksCsr model addr (.unimplemented .floatStatusRegister)
  | unknown (hother : addr.toNat ≠ 4) (haddr : addr.toNat ∉ model.csrs) :
      LacksCsr model addr (.unknownCsr addr)

/-- The status register that an instruction reads or writes. -/
def Insn.csr? : Insn → Option Word
  | csrRead _ addr | csrWrite _ addr => some addr
  | _ => none

/-- The status register that an access is to. -/
def CsrAccess.addr : CsrAccess → Word
  | read _ addr | write addr _ => addr

/-- A register belongs to a model or the model lacks it, in one way. -/
theorem MachineModel.csr_cases (model : MachineModel) (addr : Word) :
    addr.toNat ∈ model.csrs ∨ ∃ e, model.LacksCsr addr e := by
  by_cases hmem : addr.toNat ∈ model.csrs
  · exact .inl hmem
  · by_cases haddr : addr.toNat = 4
    · exact .inr ⟨_, .floatStatus haddr⟩
    · exact .inr ⟨_, .unknown haddr hmem⟩

namespace Platform

variable {p : Platform} {l : ExceptionLatch} {mode : Mode} {addr value : Word} {e : HostFault}

theorem readCsr_ok (h : addr.toNat ∈ p.model.csrs) : ∃ r, p.readCsr l mode addr = .ok r := by
  unfold readCsr ExceptionLatch.read
  -- The windows come before the latch; in the latch one register is not built, and one
  -- pattern is for all that do not exist.
  split
  case h_5 hw₀ hw₁ hw₂ hw₃ =>
      split
      case h_5 haddr => cases hm : p.model <;> simp [hm, MachineModel.csrs, haddr] at h
      case h_6 => cases hm : p.model <;> simp_all [MachineModel.csrs]
      all_goals exact ⟨_, rfl⟩
  all_goals exact ⟨_, rfl⟩

theorem writeCsr_ok (h : addr.toNat ∈ p.model.csrs) : ∃ r, p.writeCsr l addr value = .ok r := by
  unfold writeCsr ExceptionLatch.write
  split
  case h_5 hw₀ hw₁ hw₂ hw₃ =>
      split
      case h_5 haddr => cases hm : p.model <;> simp [hm, MachineModel.csrs, haddr] at h
      case h_6 => cases hm : p.model <;> simp_all [MachineModel.csrs]
      all_goals exact ⟨_, rfl⟩
  all_goals exact ⟨_, rfl⟩

theorem readCsr_lacks (h : p.model.LacksCsr addr e) : p.readCsr l mode addr = .error e := by
  unfold readCsr ExceptionLatch.read
  cases h with
  | floatStatus haddr =>
      rw [haddr]
      cases p.model <;> rfl
  | unknown hother haddr =>
      cases hm : p.model <;> simp_all [MachineModel.csrs] <;> rfl

theorem writeCsr_lacks (h : p.model.LacksCsr addr e) : p.writeCsr l addr value = .error e := by
  unfold writeCsr ExceptionLatch.write
  cases h with
  | floatStatus haddr =>
      rw [haddr]
      cases p.model <;> rfl
  | unknown hother haddr =>
      cases hm : p.model <;> simp_all [MachineModel.csrs] <;> rfl

end Platform

theorem Insn.csrAccess_of_csr? {insn : Insn} {addr : Word} (h : insn.csr? = some addr)
    (regs : RegFile) :
    ∃ access, insn.csrAccess regs = some access ∧ access.addr = addr := by
  cases insn <;> cases h
  · exact ⟨_, rfl, rfl⟩
  · exact ⟨_, rfl, rfl⟩

theorem Insn.csr?_of_csrAccess {insn : Insn} {regs : RegFile} {access : CsrAccess}
    (h : insn.csrAccess regs = some access) : insn.csr? = some access.addr := by
  cases insn <;> cases h
  · rfl
  · rfl

/-! ## Accesses to status registers -/

namespace CsrAccess

variable {access : CsrAccess} {s : State} {p : Platform} {e : HostFault}

theorem apply_lacks (h : p.model.LacksCsr access.addr e) : access.apply s p = .error e := by
  unfold apply
  cases access with
  | read rd addr =>
      have hread : p.readCsr s.latch s.mode addr = .error e := Platform.readCsr_lacks h
      dsimp only
      rw [hread]
      rfl
  | write addr value =>
      have hwrite : p.writeCsr s.latch addr value = .error e := Platform.writeCsr_lacks h
      dsimp only
      rw [hwrite]
      rfl

theorem apply_has (hrd : ∀ rd addr, access = .read rd addr → rd < 15)
    (h : access.addr.toNat ∈ p.model.csrs) : ∃ r, access.apply s p = .ok r := by
  cases access with
  | read rd addr =>
      obtain ⟨⟨v, l⟩, hread⟩ := Platform.readCsr_ok h
      obtain ⟨t, ht, -⟩ := apply_read_ok (hrd rd addr rfl) hread
      exact ⟨_, ht⟩
  | write addr value =>
      obtain ⟨⟨q, l⟩, hwrite⟩ := Platform.writeCsr_ok h
      exact ⟨_, apply_write_ok hwrite⟩

theorem lacks_of_apply (hrd : ∀ rd addr, access = .read rd addr → rd < 15)
    (h : access.apply s p = .error e) : p.model.LacksCsr access.addr e := by
  rcases p.model.csr_cases access.addr with hmem | ⟨e', he'⟩
  · obtain ⟨r, hr⟩ := apply_has (s := s) hrd hmem
    rw [hr] at h
    cases h
  · rw [apply_lacks he'] at h
    obtain rfl := Except.error.inj h
    exact he'

end CsrAccess

/-- Effects without a cause can only fail at a status register. -/
theorem Effects.apply_error {e : Effects} {s : State} {p : Platform} {fault : HostFault}
    (hc : e.cause.isRaised = false) (hws : ∀ w ∈ e.writes, w.1 < 15)
    (h : e.apply s p = .error fault) :
    ∃ access t, e.csr = some access ∧ access.apply t p = .error fault := by
  obtain ⟨t, ht⟩ := settle_ok hws s
  rw [apply_quiet hc, ht] at h
  cases hcsr : e.csr with
  | none => rw [hcsr] at h; cases h
  | some access =>
      rw [hcsr] at h
      exact ⟨access, t, rfl, h⟩

/-! ## Calls to the host -/

/-- The numbers of the calls that are not built, each with the part that is missing. -/
def missingCalls : List (Nat × MissingFeature) :=
  [(15, .statCall), (17, .utimeCall), (19, .gettimeofdayCall), (20, .timesCall)]

/-- The number of a call. -/
def Syscall.number : Syscall → Nat
  | exit => 1
  | openFile => 2
  | close => 3
  | read => 4
  | write => 5
  | seek => 6
  | unlink => 7
  | processId => 8
  | kill => 9
  | fileStatus => 10
  | changeDir => 14
  | pathStatus => 15
  | changeMode => 16
  | setTimes => 17
  | time => 18
  | timeOfDay => 19
  | processTimes => 20
  | link => 21
  | isTerminal => 256

theorem Syscall.eq_number {n : Nat} {call : Syscall} (h : ofNumber? n = some call) :
    n = call.number := by
  unfold ofNumber? at h
  split at h <;> cases h <;> rfl

variable {σ : Type}

theorem State.deliver_ok (s : State) (p : Platform) (reply : SyscallReply) :
    ∃ r, s.deliver p reply = .ok r := by
  have hreg : resultReg < 15 := by decide
  unfold deliver
  cases reply with
  | halt x => exact ⟨_, rfl⟩
  | value v =>
      obtain ⟨t, ht⟩ := writeReg_ok hreg s (.int v)
      dsimp only
      rw [ht]
      exact ⟨_, rfl⟩
  | failed ret errno =>
      obtain ⟨t, ht⟩ := writeReg_ok hreg s (.int ret)
      dsimp only
      rw [ht]
      simp only [bind, Except.bind, pure, Except.pure]
      split
      · exact ⟨_, rfl⟩
      · split <;> exact ⟨_, rfl⟩

namespace Platform

variable {p : Platform} {host : Host σ} {n : Nat} {args : SyscallArgs} {h : σ}
  {what : MissingFeature} {e : HostFault}

/-- A call that is not built is refused before anything else happens. -/
theorem service_missing (hw : (n, what) ∈ missingCalls) :
    p.service host (Syscall.ofNumber? n) args h = (.error (.unimplemented what), p, h) := by
  simp only [missingCalls, List.mem_cons, Prod.mk.injEq, List.not_mem_nil, or_false] at hw
  rcases hw with ⟨rfl, rfl⟩ | ⟨rfl, rfl⟩ | ⟨rfl, rfl⟩ | ⟨rfl, rfl⟩ <;> rfl

theorem service_error {call : Option Syscall} (he : (p.service host call args h).1 = .error e) :
    (call = some .pathStatus ∧ e = .unimplemented .statCall) ∨
      (call = some .setTimes ∧ e = .unimplemented .utimeCall) ∨
      (call = some .timeOfDay ∧ e = .unimplemented .gettimeofdayCall) ∨
      (call = some .processTimes ∧ e = .unimplemented .timesCall) := by
  unfold service at he
  cases call with
  | none => cases he
  | some call =>
      cases call with
      | pathStatus => exact .inl ⟨rfl, (Except.error.inj he).symm⟩
      | setTimes => exact .inr (.inl ⟨rfl, (Except.error.inj he).symm⟩)
      | timeOfDay => exact .inr (.inr (.inl ⟨rfl, (Except.error.inj he).symm⟩))
      | processTimes => exact .inr (.inr (.inr ⟨rfl, (Except.error.inj he).symm⟩))
      | close => dsimp only at he; split at he <;> cases he
      | isTerminal => dsimp only at he; split at he <;> cases he
      | _ => cases he

theorem missing_of_service (he : (p.service host (Syscall.ofNumber? n) args h).1 = .error e) :
    ∃ what, (n, what) ∈ missingCalls ∧ e = .unimplemented what := by
  rcases service_error he with ⟨hn, rfl⟩ | ⟨hn, rfl⟩ | ⟨hn, rfl⟩ | ⟨hn, rfl⟩ <;>
    obtain rfl := Syscall.eq_number hn <;> exact ⟨_, by decide, rfl⟩

end Platform

namespace State

variable {s : State} {p q : Platform} {host : Host σ} {h : σ} {number : Half}
  {what : MissingFeature} {e : HostFault}

/-- Before it is refused, a call that is not built has moved no more than the shadow. -/
theorem syscall_missing (hf : p.fetchHalf .task (s.tpc.even + 2) = (.ok number, q))
    (hw : (number.toNat, what) ∈ missingCalls) :
    s.syscall p host h =
      ⟨.error (.unimplemented what), { s with nextTpc := s.tpc.even + 4 }, q, h⟩ := by
  unfold syscall
  dsimp only
  rw [hf]
  dsimp only
  rw [Platform.service_missing hw]

theorem missing_of_syscall (he : (s.syscall p host h).result = .error e) :
    ∃ number what, (p.fetchHalf .task (s.tpc.even + 2)).1 = .ok number ∧
      (number.toNat, what) ∈ missingCalls ∧ e = .unimplemented what := by
  unfold syscall at he
  dsimp only at he
  split at he
  · cases he
  · rename_i number q hf
    split at he
    · rename_i fault q' h' hs
      obtain ⟨what, hw, hfault⟩ := Platform.missing_of_service (congrArg Prod.fst hs)
      exact ⟨number, what, congrArg Prod.fst hf, hw, (Except.error.inj he).symm.trans hfault⟩
    · split at he
      · cases he
      · rename_i s' _ _ _ hd
        obtain ⟨r, hr⟩ := State.deliver_ok _ _ _
        rw [hr] at hd
        cases hd

end State

/-! ## Steps -/

/-- What the next instruction of a machine asks for in vain, as the fault that this is. -/
inductive Machine.Lacks (m : Machine) : HostFault → Prop where
  | interpolation {rd ra rb : Nat} (hi : m.insn? = some (.interpolate rd ra rb)) :
      Lacks m (.unimplemented .interpolation)
  | csr {insn : Insn} {addr : Word} {e : HostFault} (hi : m.insn? = some insn)
      (haddr : insn.csr? = some addr) (he : m.platform.model.LacksCsr addr e) : Lacks m e
  | call {number : Half} {what : MissingFeature} (hu : m.environment.isUser = true)
      (hi : m.insn? = some (.interrupt .syscall)) (hn : m.callNumber = .ok number)
      (hw : (number.toNat, what) ∈ missingCalls) : Lacks m (.unimplemented what)

/-- Two states between which a program cannot tell a difference: they differ at most in the
shadow, in what is marked as changed and in what is known of the last cause. -/
structure State.SameProgram (s t : State) : Prop where
  regs : t.regs = s.regs
  spc : t.spc = s.spc
  tpc : t.tpc = s.tpc
  mode : t.mode = s.mode

namespace Insn

variable {insn : Insn} {s : State} {p q : Platform} {effects : Effects} {e : HostFault}

/-- An instruction with valid operands has effects, unless it is not built. -/
theorem execute_error (hv : insn.Valid) (h : insn.execute s p = .error e) :
    (∃ rd ra rb, insn = .interpolate rd ra rb) ∧ e = .unimplemented .interpolation := by
  cases insn with
  | interpolate rd ra rb => exact ⟨⟨rd, ra, rb, rfl⟩, (Except.error.inj h).symm⟩
  | memory op reg mem =>
      obtain ⟨addr, haddr⟩ := MemRef.resolve_ok (hv.isNamed mem rfl) s.regs
      simp only [execute, executeMemory, haddr, bind, Except.bind, pure, Except.pure] at h
      cases op <;> cases h
  | jumpMem target mem | loadTypesMem half mem | storeTypesMem half mem =>
      obtain ⟨addr, haddr⟩ := MemRef.resolve_ok (hv.isNamed mem rfl) s.regs
      simp only [execute, haddr, bind, Except.bind, pure, Except.pure] at h
      cases h
  | _ => cases h

/-- Only the instruction of a system call raises its cause. -/
theorem Asks.eq_syscall (h : insn.Asks s effects) (hc : effects.cause = .syscall) :
    insn = .interrupt .syscall := by
  cases h with
  | raises c hcause =>
      obtain rfl : c = .syscall := hc
      rcases hcause with h | ⟨-, h⟩ | h
      · cases h
      · cases h
      · exact h
  | faults f hf =>
      have hcause : f.cause = .syscall := hc
      rw [hcause] at hf
      rcases hf with h | h <;> cases h
  | jumps target addr record ht => cases target <;> cases hc
  | _ => cases hc

end Insn

namespace Machine

variable {σ : Type} {m : Machine} {effects : Effects} {p : Platform} {e : HostFault}

theorem insn?_of_attempt_error (ha : m.attempt = .error e) :
    ∃ insn, m.insn? = some insn ∧ insn.execute m.begun m.fetched.2 = .error e := by
  unfold attempt at ha
  split at ha
  · cases ha
  · rename_i d q hf
    exact ⟨d.insn, by rw [insn?, hf]; rfl, by rw [hf]; exact ha⟩

theorem fetched_model (m : Machine) : m.fetched.2.model = m.platform.model := by
  obtain ⟨i, hi⟩ := Platform.fetch_snd m.platform m.state.mode m.state.pc.even
  have hf : m.fetched.2 = m.platform.usedLast i := hi
  rw [hf]
  rfl

theorem begun_sameProgram (m : Machine) : m.state.SameProgram m.begun := ⟨rfl, rfl, rfl, rfl⟩

/-- A step that asks for something in vain ends there. Memory was only looked at, to fetch the
instruction and, of a call, its number. -/
theorem step_lacks (hl : m.Lacks e) (host : Host σ) (h : σ) :
    ∃ t q, m.state.SameProgram t ∧
      (q = m.fetched.2 ∨ ∃ number : Half,
        m.fetched.2.fetchHalf .task (m.state.tpc.even + 2) = (.ok number, q)) ∧
      (m.step host h).Leaves (.error e) ⟨t, q, m.environment, m.interruptPending⟩ h := by
  cases hl with
  | interpolation hi =>
      have ha := m.attempt_of_insn? hi
      exact ⟨m.begun, m.fetched.2, m.begun_sameProgram, .inl rfl, step_unbuilt ha host h⟩
  | csr hi haddr he =>
      obtain ⟨access, haccess, rfl⟩ := Insn.csrAccess_of_csr? haddr m.state.regs
      have ha := m.attempt_csr hi haccess
      have happly : ({ csr := some access } : Effects).apply m.begun m.fetched.2 = .error e :=
        CsrAccess.apply_lacks (m.fetched_model.symm ▸ he)
      exact ⟨m.begun, m.fetched.2, m.begun_sameProgram, .inl rfl, step_refused ha happly host h⟩
  | @call number what hu hi hn hw =>
      have ha := m.attempt_of_insn? hi
      have hf := step_raised ha rfl host h
      have hfetch : m.fetched.2.fetchHalf .task (m.state.tpc.even + 2) =
          (.ok number, (m.fetched.2.fetchHalf .task (m.state.tpc.even + 2)).2) := Prod.ext hn rfl
      rw [State.respond_syscall hu rfl,
        State.syscall_missing (s := m.raisedState (.raise .syscall)) hfetch hw] at hf
      exact ⟨{ m.raisedState (.raise .syscall) with nextTpc := m.state.tpc.even + 4 }, _,
        ⟨rfl, rfl, rfl, rfl⟩, .inr ⟨number, hfetch⟩, hf⟩

theorem insn?_of_raised_syscall (ha : m.attempt = .ok (effects, p))
    (hc : effects.cause = .syscall) : m.insn? = some (.interrupt .syscall) := by
  rcases attempt_asks ha with ⟨fault, hf, rfl⟩ | ⟨insn, hi, -, hasks⟩
  · have hcause : fault.cause = .syscall := hc
    rcases Platform.fetch_fault (Prod.ext hf rfl) with h | h <;> rw [hcause] at h <;> cases h
  · rw [hi, hasks.eq_syscall hc]

/-- Effects that cannot be applied are an access to a status register that does not exist. -/
theorem lacks_of_refused (ha : m.attempt = .ok (effects, p)) (hc : effects.cause.isRaised = false)
    (happly : effects.apply m.begun p = .error e) : m.Lacks e := by
  have hws : ∀ w ∈ effects.writes, w.1 < 15 := by
    rcases attempt_asks ha with ⟨fault, -, rfl⟩ | ⟨insn, -, -, hasks⟩
    · simp [Effects.fault]
    · exact hasks.writes_lt
  obtain ⟨access, t, hcsr, hfail⟩ := Effects.apply_error hc hws happly
  obtain ⟨insn, hi, haccess⟩ := m.insn?_of_csr ha hcsr
  obtain ⟨-, rfl⟩ := Prod.mk.inj (Except.ok.inj (ha.symm.trans (m.attempt_csr hi haccess)))
  have hrd : ∀ rd addr, access = .read rd addr → rd < 15 := by
    rintro rd addr rfl
    obtain rfl := Insn.csrAccess_read haccess
    exact (m.insn?_valid hi).registers_lt rd (.head _)
  have hl := CsrAccess.lacks_of_apply hrd hfail
  rw [m.fetched_model] at hl
  exact .csr hi (Insn.csr?_of_csrAccess haccess) hl

/-- A reaction fails only where a call is not built. -/
theorem lacks_of_raised {host : Host σ} {h : σ} (ha : m.attempt = .ok (effects, p))
    (he : ((m.raisedState effects).respond m.environment p host h).result = .error e) :
    m.Lacks e := by
  cases hu : m.environment.isUser with
  | false =>
      cases hmode : m.state.mode with
      | task => rw [State.respond_task (s := m.raisedState effects) hu hmode] at he; cases he
      | scheduler =>
          rw [State.respond_scheduler (s := m.raisedState effects) hu hmode] at he
          cases he
  | true =>
      by_cases hc : effects.cause = .syscall
      · rw [State.respond_syscall hu hc] at he
        obtain ⟨number, what, hn, hw, rfl⟩ := State.missing_of_syscall he
        refine .call hu (insn?_of_raised_syscall ha hc) ?_ hw
        rw [callNumber, ← attempt_syscall ha hc]
        exact hn
      · rw [State.respond_fatal hu hc] at he
        cases he

theorem lacks_of_step {host : Host σ} {h : σ} (he : (m.step host h).result = .error e) :
    m.Lacks e := by
  cases m.step_goes host h with
  | unbuilt e' ha hl =>
      obtain rfl := Except.error.inj (hl.result.symm.trans he)
      obtain ⟨insn, hi, hex⟩ := insn?_of_attempt_error ha
      obtain ⟨⟨rd, ra, rb, rfl⟩, rfl⟩ := Insn.execute_error (m.insn?_valid hi) hex
      exact .interpolation hi
  | refused effects p e' ha hc happly hl =>
      obtain rfl := Except.error.inj (hl.result.symm.trans he)
      exact lacks_of_refused ha hc happly
  | raised effects p ha hc hf =>
      unfold StepOutcome.Follows at hf
      split at hf
      · rename_i e' hresult
        obtain rfl := Except.error.inj (hf.result.symm.trans he)
        exact lacks_of_raised ha hresult
      · obtain ⟨x, d, -, hl⟩ := hf
        cases hl.result.symm.trans he
  | retired effects p s q ha hc happly hr =>
      obtain ⟨x, d, -, hl⟩ := hr
      cases hl.result.symm.trans he

/-- A step ends in a fault of the simulator exactly if its instruction asks for something that
the machine does not have. -/
theorem step_error_iff (m : Machine) (host : Host σ) (h : σ) (e : HostFault) :
    (m.step host h).result = .error e ↔ m.Lacks e := by
  constructor
  · exact lacks_of_step
  · intro hl
    obtain ⟨t, q, -, -, hleaves⟩ := step_lacks hl host h
    exact hleaves.result

/-- Whatever lies in memory and in the registers, no reference is without an address and no
register is written that does not exist. -/
theorem Lacks.ne_malformed (hl : m.Lacks e) :
    e ≠ .noMemoryOperand ∧ ∀ i, e ≠ .reservedRegister i := by
  cases hl with
  | interpolation hi => exact ⟨nofun, nofun⟩
  | csr hi haddr he => cases he <;> exact ⟨nofun, nofun⟩
  | call hu hi hn hw => exact ⟨nofun, nofun⟩

/-- The faults of the simulator are those of what a machine lacks, each exactly where the next
instruction asks for it. No other encoding, and nothing that registers or memory can hold, makes
executing an instruction or writing down its text fail. -/
theorem faults_exact (m : Machine) (host : Host σ) (h : σ) :
    (∀ e, (m.step host h).result = .error e ↔ m.Lacks e) ∧
      (m.step host h).result ≠ .error .noMemoryOperand ∧
      (∀ i, (m.step host h).result ≠ .error (.reservedRegister i)) ∧
      ∀ word ext, (∃ text, (decode word ext).text = .ok text) ∧
        ∀ s p e, (decode word ext).insn.execute s p = .error e →
          (∃ rd ra rb, (decode word ext).insn = .interpolate rd ra rb) ∧
            e = .unimplemented .interpolation := by
  refine ⟨m.step_error_iff host h, ?_, ?_, ?_⟩
  · intro he
    exact (lacks_of_step he).ne_malformed.1 rfl
  · intro i he
    exact (lacks_of_step he).ne_malformed.2 i rfl
  · intro word ext
    refine ⟨decode_text_ok word ext, ?_⟩
    intro s p e he
    exact Insn.execute_error (decode_valid word ext) he

end Machine

end TypedCore
