import TypedCore.Proofs.Execution.Step

/-!
# What an instruction can ask for

Effects are records with room for everything, and an instruction fills few of
their fields. This module says which: the causes that an instruction can raise,
the registers that it can write, and the two instructions by which it can move
the task's program counter and the mode.

What is fetched always has valid operands, so it is also what the next
instruction of a machine can ask for (`Machine.attempt_asks`), unless the fetch
itself fails.
-/

namespace TypedCore

/-! ## Causes of arithmetic -/

/-- A computation that raises no cause but `type`. -/
def OnlyType {α : Type} (x : Except Cause α) : Prop := ∀ c, x = .error c → c = .type

namespace OnlyType

variable {α β : Type}

theorem ok (a : α) : OnlyType (.ok a) := by
  intro c h
  cases h

theorem type : OnlyType (.error .type : Except Cause α) := by
  intro c h
  exact (Except.error.inj h).symm

theorem bind {x : Except Cause α} {f : α → Except Cause β} (hx : OnlyType x)
    (hf : ∀ a, OnlyType (f a)) : OnlyType (x >>= f) := by
  cases x with
  | error c =>
      intro c' h
      exact hx c' (congrArg Except.error (Except.error.inj h))
  | ok a => exact hf a

theorem layout (t : RegType) : OnlyType t.layout := by
  unfold RegType.layout
  split
  · exact ok _
  · exact type

end OnlyType

namespace Lane

theorem arithmetic_onlyType (op : BinaryOp) (a b : TypedWord) : OnlyType (arithmetic op a b) :=
  (OnlyType.layout a.type).bind fun l => by
    split <;> exact .ok _

theorem shift_onlyType (op : BinaryOp) (a b : TypedWord) : OnlyType (shift op a b) :=
  (OnlyType.layout a.type).bind fun _ => .ok _

theorem fullMul_onlyType (a b : TypedWord) (amount : Nat) (signed : Bool) :
    OnlyType (fullMul a b amount signed) :=
  (OnlyType.layout a.type).bind fun l => by
    split <;> exact .ok _

theorem neg_onlyType (a : TypedWord) : OnlyType (neg a) :=
  (OnlyType.layout a.type).bind fun l => by
    split <;> exact .ok _

theorem sum_onlyType (a : TypedWord) : OnlyType (sum a) :=
  (OnlyType.layout a.type).bind fun l => by
    split
    · exact .ok _
    · split <;> exact .ok _

theorem toFloat_onlyType (a : TypedWord) : OnlyType (toFloat a) := by
  unfold toFloat
  dsimp only
  split
  · exact .ok _
  · exact (OnlyType.layout a.type).bind fun _ => .ok _
  · exact (OnlyType.layout a.type).bind fun _ => .ok _
  · exact (OnlyType.layout a.type).bind fun _ => .ok _
  · exact .type

theorem toInt_onlyType (a : TypedWord) : OnlyType (toInt a) := by
  unfold toInt
  split
  · exact .ok _
  · exact .ok _
  · exact .type

theorem mapSingles_onlyType (op : Word → Word) (a : TypedWord) : OnlyType (mapSingles op a) :=
  (OnlyType.layout a.type).bind fun l => by
    split
    · exact .ok _
    · exact .type

theorem holds_onlyType (type : RegType) (cond : Cond) (signed allLanes : Bool)
    (left right : Word) : OnlyType (holds type cond signed allLanes left right) :=
  (OnlyType.layout type).bind fun _ => .ok _

theorem mask_onlyType (type : RegType) (cond : Cond) (signed : Bool) (left right : Word) :
    OnlyType (mask type cond signed left right) :=
  (OnlyType.layout type).bind fun _ => .ok _

end Lane

namespace Alu

theorem unary_onlyType (op : UnaryOp) (a : TypedWord) : OnlyType (unary op a) := by
  cases op with
  | neg => exact Lane.neg_onlyType a
  | not => exact .ok _
  | signByte => exact .ok _
  | signHalf => exact .ok _
  | toFloat => exact Lane.toFloat_onlyType a
  | toInt => exact Lane.toInt_onlyType a
  | recip => exact Lane.mapSingles_onlyType _ a
  | rsqrt => exact Lane.mapSingles_onlyType _ a
  | sum => exact Lane.sum_onlyType a

theorem binary_onlyType (op : BinaryOp) (a b : TypedWord) : OnlyType (binary op a b) := by
  unfold binary
  split
  case h_1 | h_2 | h_3 => exact .ok _
  case h_4 | h_5 | h_6 => exact Lane.arithmetic_onlyType _ a b
  case h_7 | h_8 | h_9 => exact Lane.shift_onlyType _ a b

theorem binaryChecked_onlyType (op : BinaryOp) (a b : TypedWord) :
    OnlyType (binaryChecked op a b) := by
  refine OnlyType.bind ?_ fun _ => binary_onlyType op a b
  unfold OperandKinds.check
  split
  · exact .ok _
  · exact .type

end Alu

/-! ## The forms of effects -/

theorem MemRef.resolve_ok {mem : MemRef} (h : mem.isNamed) (regs : RegFile) :
    ∃ addr, mem.resolve regs = .ok addr := by
  obtain ⟨base, offset, tiny⟩ := mem
  cases base <;> cases offset <;> simp_all [MemRef.resolve, MemRef.isNamed]

/-- The program counter that an instruction can move. -/
def Insn.jumpTarget? : Insn → Option PcRef
  | jumpReg target _ | jumpImm target .. | jumpMem target _ => some target
  | branch .. | bitBranch .. => some .active
  | _ => none

/-- The effects that an instruction can have in a given state: a cause, or one of the
other fields alone, next to the record of a memory access. -/
inductive Insn.Asks (insn : Insn) (s : State) : Effects → Prop where
  | raises (c : Cause)
      (hc : c = .type ∨ (insn = .unknown ∧ c = .unknownInstruction) ∨ insn = .interrupt c) :
      Asks insn s (.raise c)
  | faults (f : MemFault) (hf : f.cause = .unaligned ∨ f.cause = .memoryViolation) :
      Asks insn s (.fault f)
  | writes (ws : List (Nat × TypedWord)) (record : Option MemRecord) (hw : ∀ w ∈ ws, w.1 < 15)
      (honce : (ws.map Prod.fst).Nodup) : Asks insn s { writes := ws, record }
  | jumps (target : PcRef) (addr : Word) (record : Option MemRecord)
      (ht : insn.jumpTarget? = some target) :
      Asks insn s { Effects.jump target addr with record }
  | entersTask (hi : insn = .enterTask) (hmode : s.mode = .scheduler) :
      Asks insn s { nextMode := some .task }
  | accesses (access : CsrAccess) (ha : insn.csrAccess s.regs = some access) :
      Asks insn s { csr := some access }

namespace Insn.Asks

variable {insn : Insn} {s : State} {p q : Platform} {effects : Effects} {rd : Nat}

theorem nothing : insn.Asks s {} := .writes [] none (by simp) .nil

theorem recorded (hrd : rd < 15) (r : TypedWord) (record : Option MemRecord) :
    insn.Asks s { Effects.write rd r with record } :=
  .writes [(rd, r)] record (by simpa using hrd) (List.pairwise_singleton _ rd)

theorem write (hrd : rd < 15) (r : TypedWord) : insn.Asks s (.write rd r) := recorded hrd r none

theorem jump {target : PcRef} (ht : insn.jumpTarget? = some target) (addr : Word) :
    insn.Asks s (.jump target addr) := by
  have h : ({ Effects.jump target addr with record := none } : Effects) = .jump target addr := by
    cases target <;> rfl
  exact h ▸ .jumps target addr none ht

theorem ofResult (hrd : rd < 15) {x : Except Cause TypedWord} (hx : OnlyType x) :
    insn.Asks s (.ofResult rd x) := by
  cases x with
  | ok r => exact .write hrd r
  | error c => exact .raises c (.inl (hx c rfl))

theorem loadTypes (regs : RegFile) (half : RegHalf) (types : Word) (record : Option MemRecord) :
    insn.Asks s { TypedCore.loadTypes regs half types with record } := by
  refine .writes _ record (fun w hw => ?_) ?_
  · obtain ⟨i, hi, rfl⟩ := List.mem_map.mp hw
    rw [List.mem_range] at hi
    cases half <;> simp only [RegHalf.first, RegHalf.size] at hi ⊢ <;> omega
  · refine List.pairwise_map.mpr (List.pairwise_map.mpr (List.nodup_range.imp ?_))
    intro i j hne heq
    exact hne (Nat.add_left_cancel heq)

/-- A load either goes on with what it read or ends in a fault. -/
theorem loadThen {mode : Mode} {addr : Word} {width : Width} {use : Word → Effects}
    (huse : ∀ v record, insn.Asks s { use v with record })
    (h : p.loadThen mode addr width use = (effects, q)) : insn.Asks s effects := by
  rcases Platform.loadThen_cases h with ⟨v, -, rfl⟩ | ⟨fault, hread, rfl⟩
  · exact huse v _
  · rcases Platform.load_fault hread with rfl | rfl
    · exact .faults _ (.inl rfl)
    · exact .faults _ (.inr rfl)

theorem storeLow {mode : Mode} {addr value : Word} {width : Width}
    (h : p.storeLow mode addr width value = (effects, q)) : insn.Asks s effects := by
  rcases Platform.storeLow_cases h with ⟨-, rfl⟩ | ⟨fault, hwrite, rfl⟩
  · exact .writes [] _ (by simp) .nil
  · rcases Platform.write_fault hwrite with rfl | rfl
    · exact .faults _ (.inl rfl)
    · exact .faults _ (.inr rfl)

end Insn.Asks

namespace Insn

variable {insn : Insn} {s : State} {p q : Platform} {effects : Effects}

theorem executeMemory_asks {op : MemOp} {reg : Nat} {mem : MemRef}
    (hv : (memory op reg mem).Valid)
    (h : executeMemory op reg mem s p = .ok (effects, q)) : (memory op reg mem).Asks s effects := by
  have hreg : reg < 15 := hv.registers_lt reg (.head _)
  obtain ⟨addr, haddr⟩ := MemRef.resolve_ok (hv.isNamed mem rfl) s.regs
  simp only [executeMemory, haddr, bind, Except.bind, pure, Except.pure] at h
  cases op with
  | load width signed =>
      exact .loadThen (fun _ record => .recorded hreg _ record) (Except.ok.inj h)
  | loadLinked =>
      exact .loadThen (fun _ record => .recorded hreg _ record) (Except.ok.inj h)
  | store width => exact .storeLow (Except.ok.inj h)
  | storeConditional => exact .storeLow (Except.ok.inj h)

theorem executeBinary_asks {op : BinaryOp} {rd rhs : Nat} {lhs : Operand} (hrd : rd < 15) :
    insn.Asks s (executeBinary op rd lhs rhs s.regs) := by
  unfold executeBinary
  cases lhs with
  | reg ra => exact .ofResult hrd (Alu.binaryChecked_onlyType op _ _)
  | imm value short =>
      dsimp only
      split
      · exact .raises .type (.inl rfl)
      · exact .ofResult hrd (Alu.binaryChecked_onlyType op _ _)

/-- The effects of an instruction with valid operands are of one of the forms. -/
theorem execute_asks (hv : insn.Valid) (h : insn.execute s p = .ok (effects, q)) :
    insn.Asks s effects := by
  cases insn with
  | memory op reg mem => exact executeMemory_asks hv h
  | jumpMem target mem =>
      obtain ⟨addr, haddr⟩ := MemRef.resolve_ok (hv.isNamed mem rfl) s.regs
      simp only [execute, haddr, bind, Except.bind, pure, Except.pure] at h
      exact .loadThen (fun v record => .jumps target v record rfl) (Except.ok.inj h)
  | loadTypesMem half mem =>
      obtain ⟨addr, haddr⟩ := MemRef.resolve_ok (hv.isNamed mem rfl) s.regs
      simp only [execute, haddr, bind, Except.bind, pure, Except.pure] at h
      exact .loadThen (fun v record => .loadTypes s.regs half v record) (Except.ok.inj h)
  | storeTypesMem half mem =>
      obtain ⟨addr, haddr⟩ := MemRef.resolve_ok (hv.isNamed mem rfl) s.regs
      simp only [execute, haddr, bind, Except.bind, pure, Except.pure] at h
      exact .storeLow (Except.ok.inj h)
  | interpolate rd ra rb => cases h
  | unknown => cases h; exact .raises _ (.inr (.inl ⟨rfl, rfl⟩))
  | interrupt cause => cases h; exact .raises _ (.inr (.inr rfl))
  | enterTask =>
      simp only [execute] at h
      split at h <;> cases h
      · exact .entersTask rfl ‹_›
      · exact .nothing
  | waitForInterrupt => cases h; exact .nothing
  | fence flags => cases h; exact .nothing
  | invalidate mem => cases h; exact .nothing
  | jumpReg target rd => cases h; exact .jump rfl _
  | jumpImm target addr short => cases h; exact .jump rfl _
  | readPc rd source => cases h; exact .write (hv.registers_lt rd (.head _)) _
  | loadImm rd value short => cases h; exact .write (hv.registers_lt rd (.head _)) _
  | tinyImm rd value => cases h; exact .write (hv.registers_lt rd (.head _)) _
  | link rd offset => cases h; exact .write (hv.registers_lt rd (.head _)) _
  | unary op rd ra =>
      cases h
      exact .ofResult (hv.registers_lt rd (.head _)) (Alu.unary_onlyType op _)
  | setTypeReg rd ra => cases h; exact .write (hv.registers_lt rd (.head _)) _
  | getType rd ra => cases h; exact .write (hv.registers_lt rd (.head _)) _
  | setTypeImm rd type => cases h; exact .write (hv.registers_lt rd (.head _)) _
  | binary op rd lhs rhs =>
      cases h
      exact executeBinary_asks (hv.registers_lt rd (.head _))
  | andNot rd ra rb => cases h; exact .write (hv.registers_lt rd (.head _)) _
  | tinyAdd rd rb value =>
      cases h
      exact .ofResult (hv.registers_lt rd (.head _)) (Alu.binary_onlyType .add _ _)
  | loadTypes half types => cases h; exact .loadTypes s.regs half types none
  | swizzle rd ra pattern => cases h; exact .write (hv.registers_lt rd (.head _)) _
  | branch cmp allLanes offset =>
      simp only [execute] at h
      split at h <;> cases h
      · exact .jump rfl _
      · exact .nothing
      · exact .raises _ (.inl (Lane.holds_onlyType _ _ _ _ _ _ _ ‹_›))
  | bitBranch reg bit set offset =>
      simp only [execute] at h
      split at h <;> cases h
      · exact .jump rfl _
      · exact .nothing
  | fullMul rd ra rb shift signed =>
      cases h
      exact .ofResult (hv.registers_lt rd (.head _)) (Lane.fullMul_onlyType _ _ _ _)
  | laneCompare rd cmp =>
      cases h
      exact .ofResult (hv.registers_lt rd (.head _)) (Lane.mask_onlyType _ _ _ _ _)
  | csrRead rd addr => cases h; exact .accesses _ rfl
  | csrWrite rd addr => cases h; exact .accesses _ rfl

end Insn

namespace Insn.Asks

variable {insn : Insn} {s : State} {e : Effects}

theorem writes_lt (h : insn.Asks s e) : ∀ w ∈ e.writes, w.1 < 15 := by
  cases h with
  | writes ws record hw honce => exact hw
  | jumps target addr record ht => cases target <;> simp [Effects.jump]
  | _ => simp [Effects.raise, Effects.fault]

/-- No register is written twice. -/
theorem writes_nodup (h : insn.Asks s e) : (e.writes.map Prod.fst).Nodup := by
  cases h with
  | writes ws record hw honce => exact honce
  | jumps target addr record ht => cases target <;> simp [Effects.jump]
  | _ => simp [Effects.raise, Effects.fault]

/-- What accesses a status register does nothing else. -/
theorem csr_alone {access : CsrAccess} (h : insn.Asks s e) (hcsr : e.csr = some access) :
    e = { csr := some access } := by
  cases h with
  | jumps target addr record ht => cases target <;> cases hcsr
  | accesses access ha => exact congrArg (fun csr => ({ csr } : Effects)) hcsr
  | _ => cases hcsr

end Insn.Asks

/-! ## Registers that exist -/

theorem RegFile.write_ok {f : RegFile} {i : Nat} (hi : i < 15) (r : TypedWord) :
    ∃ x, f.write i r = .ok x := by
  unfold write
  rw [if_pos hi]
  exact ⟨_, rfl⟩

namespace State

theorem writeReg_ok {i : Nat} (hi : i < 15) (s : State) (r : TypedWord) :
    ∃ t, s.writeReg i r = .ok t := by
  obtain ⟨x, hx⟩ := s.regs.write_ok hi r
  unfold writeReg
  rw [hx]
  exact ⟨_, rfl⟩

theorem writeRegs_ok {ws : List (Nat × TypedWord)} (hws : ∀ w ∈ ws, w.1 < 15) (s : State) :
    ∃ t, ws.foldlM (fun s (w : Nat × TypedWord) => s.writeReg w.1 w.2) s = .ok t := by
  induction ws generalizing s with
  | nil => exact ⟨s, rfl⟩
  | cons w ws ih =>
      obtain ⟨hw, hrest⟩ := List.forall_mem_cons.mp hws
      obtain ⟨u, hu⟩ := writeReg_ok hw s w.2
      rw [List.foldlM_cons, hu]
      exact ih hrest u

end State

theorem Effects.settle_ok {e : Effects} (hws : ∀ w ∈ e.writes, w.1 < 15) (s : State) :
    ∃ t, e.settle s = .ok t := by
  obtain ⟨u, hu⟩ := State.writeRegs_ok hws s
  unfold settle
  rw [hu]
  exact ⟨_, rfl⟩

/-! ## The next instruction of a machine -/

/-- Effects are those of a fetch that failed, or what an instruction asks for. -/
theorem Machine.attempt_asks {m : Machine} {effects : Effects} {p : Platform}
    (ha : m.attempt = .ok (effects, p)) :
    (∃ fault : MemFault, m.fetched.1 = .error fault ∧ effects = .fault fault) ∨
      ∃ insn, m.insn? = some insn ∧ insn.Valid ∧ insn.Asks m.begun effects := by
  unfold attempt at ha
  split at ha
  · rename_i fault q hf
    obtain ⟨rfl, -⟩ := Prod.mk.inj (Except.ok.inj ha)
    exact .inl ⟨fault, congrArg Prod.fst hf, rfl⟩
  · rename_i d q hf
    have hi : m.insn? = some d.insn := by rw [insn?, hf]; rfl
    have hv := m.insn?_valid hi
    exact .inr ⟨d.insn, hi, hv, Insn.execute_asks hv ha⟩

end TypedCore
