import TypedCore.Proofs.Memory.Frame

/-!
# What executing an instruction can do

An instruction never looks at memory but through one load or one store, and
which of the two it makes, where and of what is settled by the state alone.
`Insn.Behaviour` says so once, with one case for each kind of instruction;
whatever holds of loads, of stores and of an untouched platform holds of every
instruction by going through its four cases.

Two consequences are stated here. The status register that the effects ask for
is the one that the instruction names, and an instruction that raises a cause
has left memory and devices as they were.
-/

namespace TypedCore

/-! ## Parts of effects -/

namespace Effects

variable (rd : Nat) (result : Except Cause TypedWord) (target : PcRef) (addr : Word)

@[simp] theorem csr_ofResult : (ofResult rd result).csr = none := by cases result <;> rfl

@[simp] theorem faultAddr_ofResult : (ofResult rd result).faultAddr = none := by
  cases result <;> rfl

@[simp] theorem csr_jump : (jump target addr).csr = none := by cases target <;> rfl

@[simp] theorem faultAddr_jump : (jump target addr).faultAddr = none := by cases target <;> rfl

@[simp] theorem cause_jump : (jump target addr).cause = .none := by cases target <;> rfl

end Effects

/-- The access to a status register that an instruction makes. -/
def Insn.csrAccess (regs : RegFile) : Insn → Option CsrAccess
  | csrRead rd addr => some (.read rd addr)
  | csrWrite rd addr => some (.write addr (regs.read rd).value)
  | _ => none

namespace Insn

variable {insn : Insn} {regs : RegFile} {rd : Nat} {addr value : Word}

theorem csrAccess_read (h : insn.csrAccess regs = some (.read rd addr)) :
    insn = csrRead rd addr := by
  cases insn <;> cases h
  rfl

theorem csrAccess_write (h : insn.csrAccess regs = some (.write addr value)) :
    ∃ rd, insn = csrWrite rd addr ∧ value = (regs.read rd).value := by
  cases insn <;> cases h
  exact ⟨_, rfl, rfl⟩

end Insn

/-! ## The four kinds of instruction -/

/-- How an instruction treats the platform in a given state: not built, without
access to memory, one load, or one store. -/
inductive Insn.Behaviour (insn : Insn) (s : State) : Prop where
  | unbuilt (e : HostFault) (hcsr : insn.csrAccess s.regs = none)
      (h : ∀ p, insn.execute s p = .error e)
  | silent (effects : Effects) (hcsr : insn.csrAccess s.regs = effects.csr)
      (haddr : effects.faultAddr = none) (h : ∀ p, insn.execute s p = .ok (effects, p))
  | load (addr : Word) (width : Width) (use : Word → Effects)
      (hcsr : insn.csrAccess s.regs = none)
      (huse : ∀ v, (use v).cause = .none ∧ (use v).csr = none ∧ (use v).faultAddr = none)
      (h : ∀ p, insn.execute s p = .ok (p.loadThen s.mode addr width use))
  | store (addr : Word) (width : Width) (value : Word) (hcsr : insn.csrAccess s.regs = none)
      (h : ∀ p, insn.execute s p = .ok (p.storeLow s.mode addr width value))

namespace Insn

variable (s : State)

/-- A load or store takes its one access from the reference and the operation. -/
theorem memory_behaviour (op : MemOp) (reg : Nat) (mem : MemRef) :
    (memory op reg mem).Behaviour s := by
  cases hres : mem.resolve s.regs with
  | error e =>
      exact .unbuilt e rfl fun p => by simp [execute, executeMemory, hres, bind, Except.bind]
  | ok addr =>
      cases op with
      | load width signed =>
          exact .load addr width
            (fun v => .write reg ⟨width.extend signed v, (s.regs.read reg).type⟩)
            rfl (fun _ => ⟨rfl, rfl, rfl⟩) fun p => by
              simp [execute, executeMemory, hres, bind, Except.bind, pure, Except.pure]
      | loadLinked =>
          exact .load addr .word (fun v => .write reg ⟨v, (s.regs.read reg).type⟩)
            rfl (fun _ => ⟨rfl, rfl, rfl⟩) fun p => by
              simp [execute, executeMemory, hres, bind, Except.bind, pure, Except.pure]
      | store width =>
          exact .store addr width (s.regs.read reg).value rfl fun p => by
            simp [execute, executeMemory, hres, bind, Except.bind, pure, Except.pure]
      | storeConditional =>
          exact .store addr .word (s.regs.read reg).value rfl fun p => by
            simp [execute, executeMemory, hres, bind, Except.bind, pure, Except.pure]

theorem jumpMem_behaviour (target : PcRef) (mem : MemRef) : (jumpMem target mem).Behaviour s := by
  cases hres : mem.resolve s.regs with
  | error e => exact .unbuilt e rfl fun p => by simp [execute, hres, bind, Except.bind]
  | ok addr =>
      exact .load addr .word (fun v => .jump target v) rfl (fun _ => by simp) fun p => by
        simp [execute, hres, bind, Except.bind, pure, Except.pure]

theorem loadTypesMem_behaviour (half : RegHalf) (mem : MemRef) :
    (loadTypesMem half mem).Behaviour s := by
  cases hres : mem.resolve s.regs with
  | error e => exact .unbuilt e rfl fun p => by simp [execute, hres, bind, Except.bind]
  | ok addr =>
      exact .load addr .word (fun v => TypedCore.loadTypes s.regs half v) rfl
        (fun _ => ⟨rfl, rfl, rfl⟩) fun p => by
          simp [execute, hres, bind, Except.bind, pure, Except.pure]

theorem storeTypesMem_behaviour (half : RegHalf) (mem : MemRef) :
    (storeTypesMem half mem).Behaviour s := by
  cases hres : mem.resolve s.regs with
  | error e => exact .unbuilt e rfl fun p => by simp [execute, hres, bind, Except.bind]
  | ok addr =>
      exact .store addr .word (packTypes s.regs half) rfl fun p => by
        simp [execute, hres, bind, Except.bind, pure, Except.pure]

theorem binary_behaviour (op : BinaryOp) (rd : Nat) (lhs : Operand) (rhs : Nat) :
    (binary op rd lhs rhs).Behaviour s := by
  refine .silent (executeBinary op rd lhs rhs s.regs) ?_ ?_ fun _ => rfl
  all_goals
    unfold executeBinary
    cases lhs with
    | reg r => simp [csrAccess]
    | imm value short => simp only; split <;> simp [csrAccess, Effects.raise]

theorem branch_behaviour (cmp : Comparison) (allLanes : Bool) (offset : Int) :
    (branch cmp allLanes offset).Behaviour s := by
  cases hcmp : cmp.holds allLanes s.regs with
  | error cause => exact .silent (.raise cause) rfl rfl fun p => by simp [execute, hcmp]
  | ok taken =>
      cases taken with
      | true =>
          exact .silent (.jump .active (s.pc.even.displace offset)) rfl rfl fun p => by
            simp [execute, hcmp]
      | false => exact .silent {} rfl rfl fun p => by simp [execute, hcmp]

/-- Every instruction is of one of the four kinds. -/
theorem behaviour (insn : Insn) : insn.Behaviour s := by
  cases insn with
  | memory op reg mem => exact memory_behaviour s op reg mem
  | jumpMem target mem => exact jumpMem_behaviour s target mem
  | loadTypesMem half mem => exact loadTypesMem_behaviour s half mem
  | storeTypesMem half mem => exact storeTypesMem_behaviour s half mem
  | binary op rd lhs rhs => exact binary_behaviour s op rd lhs rhs
  | branch cmp allLanes offset => exact branch_behaviour s cmp allLanes offset
  | interpolate rd ra rb => exact .unbuilt (.unimplemented .interpolation) rfl fun _ => rfl
  | enterTask =>
      cases hmode : s.mode with
      | task => exact .silent {} rfl rfl fun p => by simp [execute, hmode]
      | scheduler =>
          exact .silent { nextMode := some .task } rfl rfl fun p => by simp [execute, hmode]
  | bitBranch reg bit set offset =>
      by_cases hbit : (s.regs.read reg).value.getLsbD bit = set
      · exact .silent (.jump .active (s.pc.even.displace offset)) rfl rfl fun p => by
          simp [execute, hbit]
      · exact .silent {} rfl rfl fun p => by simp [execute, hbit]
  | jumpReg target rd => exact .silent _ (by simp [csrAccess]) (by simp) fun _ => rfl
  | jumpImm target addr short => exact .silent _ (by simp [csrAccess]) (by simp) fun _ => rfl
  | unary op rd ra => exact .silent _ (by simp [csrAccess]) (by simp) fun _ => rfl
  | tinyAdd rd rb value => exact .silent _ (by simp [csrAccess]) (by simp) fun _ => rfl
  | fullMul rd ra rb shift signed => exact .silent _ (by simp [csrAccess]) (by simp) fun _ => rfl
  | laneCompare rd cmp => exact .silent _ (by simp [csrAccess]) (by simp) fun _ => rfl
  | _ => exact .silent _ rfl rfl fun _ => rfl

end Insn

/-! ## Consequences -/

namespace Platform

variable {p q : Platform} {mode : Mode} {addr value : Word} {width : Width}
  {use : Word → Effects} {effects : Effects}

theorem loadThen_cases (h : p.loadThen mode addr width use = (effects, q)) :
    (∃ v, p.read mode addr width = (.ok v, q) ∧
        effects = { use v with record := some ⟨addr, width, false, v⟩ }) ∨
      ∃ fault, p.read mode addr width = (.error fault, q) ∧ effects = .fault fault := by
  unfold loadThen at h
  split at h <;> rename_i hread <;> obtain ⟨rfl, rfl⟩ := Prod.mk.inj h
  · exact .inl ⟨_, hread, rfl⟩
  · exact .inr ⟨_, hread, rfl⟩

theorem storeLow_cases (h : p.storeLow mode addr width value = (effects, q)) :
    (p.write mode addr width (width.truncate value) = (.ok (), q) ∧
        effects = { record := some ⟨addr, width, true, width.truncate value⟩ }) ∨
      ∃ fault, p.write mode addr width (width.truncate value) = (.error fault, q) ∧
        effects = .fault fault := by
  simp only [storeLow] at h
  split at h <;> rename_i hwrite <;> obtain ⟨rfl, rfl⟩ := Prod.mk.inj h
  · exact .inl ⟨hwrite, rfl⟩
  · exact .inr ⟨_, hwrite, rfl⟩

end Platform

namespace Insn

variable {insn : Insn} {s : State} {p q : Platform} {effects : Effects}

/-- The effects ask for the status register that the instruction names. -/
theorem execute_csr (h : insn.execute s p = .ok (effects, q)) :
    effects.csr = insn.csrAccess s.regs := by
  cases insn.behaviour s with
  | unbuilt e hcsr hex => rw [hex] at h; cases h
  | silent effects' hcsr haddr hex =>
      rw [hex] at h
      cases h
      exact hcsr.symm
  | load addr width use hcsr huse hex =>
      rw [hex] at h
      rcases Platform.loadThen_cases (Except.ok.inj h) with ⟨v, -, rfl⟩ | ⟨fault, -, rfl⟩
      · exact (huse v).2.1.trans hcsr.symm
      · exact hcsr.symm
  | store addr width value hcsr hex =>
      rw [hex] at h
      rcases Platform.storeLow_cases (Except.ok.inj h) with ⟨-, rfl⟩ | ⟨fault, -, rfl⟩
      · exact hcsr.symm
      · exact hcsr.symm

/-- An instruction that has no effects names no status register. -/
theorem csrAccess_of_error {e : HostFault} (h : insn.execute s p = .error e) :
    insn.csrAccess s.regs = none := by
  cases insn.behaviour s with
  | unbuilt e' hcsr hex => exact hcsr
  | silent effects' hcsr haddr hex => rw [hex] at h; cases h
  | load addr width use hcsr huse hex => exact hcsr
  | store addr width value hcsr hex => exact hcsr

/-- An instruction that raises a cause has changed neither memory nor a device. -/
theorem execute_raised (h : insn.execute s p = .ok (effects, q))
    (hc : effects.cause.isRaised = true) : ∃ i, q = p.usedLast i := by
  cases insn.behaviour s with
  | unbuilt e hcsr hex => rw [hex] at h; cases h
  | silent effects' hcsr haddr hex =>
      rw [hex] at h
      cases h
      exact ⟨p.bus.last, rfl⟩
  | load addr width use hcsr huse hex =>
      rw [hex] at h
      rcases Platform.loadThen_cases (Except.ok.inj h) with ⟨v, -, rfl⟩ | ⟨fault, hread, -⟩
      · rw [(huse v).1] at hc
        cases hc
      · exact Platform.load_refused hread
  | store addr width value hcsr hex =>
      rw [hex] at h
      rcases Platform.storeLow_cases (Except.ok.inj h) with ⟨-, rfl⟩ | ⟨fault, hwrite, -⟩
      · cases hc
      · exact Platform.write_refused hwrite

/-- No access ends in a system call. -/
theorem execute_syscall (h : insn.execute s p = .ok (effects, q))
    (hc : effects.cause = .syscall) : q = p := by
  cases insn.behaviour s with
  | unbuilt e hcsr hex => rw [hex] at h; cases h
  | silent effects' hcsr haddr hex =>
      rw [hex] at h
      cases h
      rfl
  | load addr width use hcsr huse hex =>
      rw [hex] at h
      rcases Platform.loadThen_cases (Except.ok.inj h) with ⟨v, -, rfl⟩ | ⟨fault, hread, rfl⟩
      · rw [(huse v).1] at hc
        cases hc
      · rcases Platform.load_fault hread with rfl | rfl <;> cases hc
  | store addr width value hcsr hex =>
      rw [hex] at h
      rcases Platform.storeLow_cases (Except.ok.inj h) with ⟨-, rfl⟩ | ⟨fault, hwrite, rfl⟩
      · cases hc
      · rcases Platform.write_fault hwrite with rfl | rfl <;> cases hc

/-- An address comes with the fault of a load or a store, and with nothing else. -/
theorem execute_faultAddr (h : insn.execute s p = .ok (effects, q)) :
    effects.faultAddr = none ∨ ∃ fault : MemFault, effects = .fault fault ∧
      (fault.cause = .unaligned ∨ fault.cause = .memoryViolation) := by
  cases insn.behaviour s with
  | unbuilt e hcsr hex => rw [hex] at h; cases h
  | silent effects' hcsr haddr hex =>
      rw [hex] at h
      cases h
      exact .inl haddr
  | load addr width use hcsr huse hex =>
      rw [hex] at h
      rcases Platform.loadThen_cases (Except.ok.inj h) with ⟨v, -, rfl⟩ | ⟨fault, hread, rfl⟩
      · exact .inl (huse v).2.2
      · right
        rcases Platform.load_fault hread with rfl | rfl
        · exact ⟨_, rfl, .inl rfl⟩
        · exact ⟨_, rfl, .inr rfl⟩
  | store addr width value hcsr hex =>
      rw [hex] at h
      rcases Platform.storeLow_cases (Except.ok.inj h) with ⟨-, rfl⟩ | ⟨fault, hwrite, rfl⟩
      · exact .inl rfl
      · right
        rcases Platform.write_fault hwrite with rfl | rfl
        · exact ⟨_, rfl, .inl rfl⟩
        · exact ⟨_, rfl, .inr rfl⟩

end Insn

end TypedCore
