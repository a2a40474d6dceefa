import TypedCore.Proofs.Execution.Calls
import TypedCore.Proofs.HostFaults.Missing
import TypedCore.Proofs.Memory.Alone

/-!
# The record of an access

A step leaves on record the one access to memory that its instruction made, if it
was answered. The record is exact in both directions. Whoever reads it knows where
memory was looked at or changed, since the number in the record is what memory
spells there after the step; and where there is no record, only the host can have
touched memory, in the service of a system call.

`Insn.Recorded` relates the effects of an instruction to its access, one case for
each way an access can end. What a step adds to that is found in the reaction
alone: everything else it does leaves the devices as they are.
-/

namespace TypedCore

/-! ## Effects and their record -/

namespace Effects

@[simp] theorem record_ofResult (rd : Nat) (result : Except Cause TypedWord) :
    (ofResult rd result).record = none := by cases result <;> rfl

@[simp] theorem record_jump (target : PcRef) (addr : Word) : (jump target addr).record = none := by
  cases target <;> rfl

end Effects

/-- A status register has nothing to do with the bus. -/
theorem Effects.apply_bus {effects : Effects} {s t : State} {p q : Platform}
    (hc : effects.cause.isRaised = false) (happly : effects.apply s p = .ok (t, q)) :
    q.bus = p.bus := by
  obtain ⟨u, -, h⟩ := Effects.apply_ok hc happly
  cases hcsr : effects.csr with
  | none =>
      rw [hcsr] at h
      rw [h.2]
  | some access =>
      rw [hcsr] at h
      cases access with
      | read rd addr => rw [(CsrAccess.apply_read h).1]
      | write addr value =>
          obtain ⟨-, hwrite⟩ := CsrAccess.apply_write h
          rcases Platform.writeCsr_cases hwrite with ⟨-, -, -, rfl⟩ | ⟨rfl, -⟩
          · rfl
          · rfl

/-- Loads and stores, jumps through memory, and loads and stores of register types in memory. -/
def Insn.usesMemory : Insn → Bool
  | memory .. | jumpMem .. | loadTypesMem .. | storeTypesMem .. => true
  | _ => false

/-- How the one access of an instruction ends, and what is recorded of it. -/
inductive Insn.Recorded (insn : Insn) (s : State) (p : Platform) (effects : Effects)
    (q : Platform) : Prop where
  | untouched (hcall : insn.access? s = none) (hrecord : effects.record = none) (hq : q = p)
  | read (addr : Word) (width : Width) (v : Word)
      (hcall : insn.access? s = some (.read s.mode addr width))
      (hread : p.read s.mode addr width = (.ok v, q)) (hcause : effects.cause = .none)
      (hrecord : effects.record = some ⟨addr, width, false, v⟩)
  | wrote (addr : Word) (width : Width) (v : Word)
      (hcall : insn.access? s = some (.write s.mode addr width (width.truncate v)))
      (hwrite : p.write s.mode addr width (width.truncate v) = (.ok (), q))
      (hcause : effects.cause = .none)
      (hrecord : effects.record = some ⟨addr, width, true, width.truncate v⟩)
  | refused (call : MemCall) (fault : MemFault) (hcall : insn.access? s = some call)
      (hperform : call.perform p = (.error fault, q)) (heffects : effects = .fault fault)

namespace Insn

variable {insn : Insn} {s : State} {p q : Platform} {effects : Effects}

namespace Recorded

theorem loadThen {addr : Word} {width : Width} {use : Word → Effects}
    (hcall : insn.access? s = some (.read s.mode addr width)) (huse : ∀ v, (use v).cause = .none)
    (h : p.loadThen s.mode addr width use = (effects, q)) : insn.Recorded s p effects q := by
  rcases Platform.loadThen_cases h with ⟨v, hread, rfl⟩ | ⟨fault, hread, rfl⟩
  · exact .read addr width v hcall hread (huse v) rfl
  · refine .refused _ fault hcall ?_ rfl
    simp only [MemCall.perform, hread]
    rfl

theorem storeLow {addr value : Word} {width : Width}
    (hcall : insn.access? s = some (.write s.mode addr width (width.truncate value)))
    (h : p.storeLow s.mode addr width value = (effects, q)) : insn.Recorded s p effects q := by
  rcases Platform.storeLow_cases h with ⟨hwrite, rfl⟩ | ⟨fault, hwrite, rfl⟩
  · exact .wrote addr width value hcall hwrite rfl rfl
  · refine .refused _ fault hcall ?_ rfl
    simp only [MemCall.perform, hwrite]
    rfl

end Recorded

theorem record_executeBinary (op : BinaryOp) (rd : Nat) (lhs : Operand) (rhs : Nat)
    (regs : RegFile) : (executeBinary op rd lhs rhs regs).record = none := by
  unfold executeBinary
  cases lhs with
  | reg ra => simp
  | imm value short => dsimp only; split <;> simp [Effects.raise]

/-- An instruction that makes no access has nothing to record. -/
theorem execute_unrecorded (hu : insn.usesMemory = false)
    (h : insn.execute s p = .ok (effects, q)) : effects.record = none ∧ q = p := by
  cases insn with
  | memory op reg mem => cases hu
  | jumpMem target mem => cases hu
  | loadTypesMem half mem => cases hu
  | storeTypesMem half mem => cases hu
  | interpolate rd ra rb => cases h
  | binary op rd lhs rhs => cases h; exact ⟨record_executeBinary op rd lhs rhs s.regs, rfl⟩
  | enterTask => cases h; exact ⟨by split <;> rfl, rfl⟩
  | branch cmp allLanes offset =>
      cases h
      refine ⟨?_, rfl⟩
      split
      · rfl
      · rfl
      · rfl
  | bitBranch reg bit set offset => cases h; exact ⟨by split <;> rfl, rfl⟩
  | _ => cases h; exact ⟨by simp [Effects.raise, Effects.write, TypedCore.loadTypes], rfl⟩

/-- An instruction that uses memory makes its access. -/
theorem access?_of_usesMemory (hv : insn.Valid) (hu : insn.usesMemory = true) (s : State) :
    ∃ call, insn.access? s = some call := by
  cases insn with
  | memory op reg mem =>
      obtain ⟨addr, haddr⟩ := MemRef.resolve_ok (hv.isNamed mem rfl) s.regs
      cases op <;> exact ⟨_, by simp [access?, haddr, Except.toOption]; rfl⟩
  | jumpMem target mem | loadTypesMem half mem | storeTypesMem half mem =>
      obtain ⟨addr, haddr⟩ := MemRef.resolve_ok (hv.isNamed mem rfl) s.regs
      exact ⟨_, by simp [access?, haddr, Except.toOption]; rfl⟩
  | _ => cases hu

theorem usesMemory_of_access? {call : MemCall} (h : insn.access? s = some call) :
    insn.usesMemory = true := by
  cases insn <;> first | rfl | cases h

theorem execute_recorded (h : insn.execute s p = .ok (effects, q)) :
    insn.Recorded s p effects q := by
  -- A reference that cannot be resolved leaves the instruction without effects.
  have hresolve : ∀ {mem : MemRef} {use : Word → Effects × Platform},
      (do return use (← mem.resolve s.regs) : Except HostFault (Effects × Platform)) =
        .ok (effects, q) → ∃ addr, mem.resolve s.regs = .ok addr ∧ use addr = (effects, q) := by
    intro mem use h
    cases hres : mem.resolve s.regs with
    | error e => rw [hres] at h; cases h
    | ok addr => rw [hres] at h; exact ⟨addr, rfl, Except.ok.inj h⟩
  cases insn with
  | memory op reg mem =>
      cases op with
      | load width signed =>
          obtain ⟨addr, hres, hload⟩ := hresolve h
          exact .loadThen (by simp [access?, hres, Except.toOption]) (fun _ => rfl) hload
      | loadLinked =>
          obtain ⟨addr, hres, hload⟩ := hresolve h
          exact .loadThen (by simp [access?, hres, Except.toOption]) (fun _ => rfl) hload
      | store width =>
          obtain ⟨addr, hres, hstore⟩ := hresolve h
          exact .storeLow (by simp [access?, hres, Except.toOption]) hstore
      | storeConditional =>
          obtain ⟨addr, hres, hstore⟩ := hresolve h
          exact .storeLow (by simp [access?, hres, Except.toOption]) hstore
  | jumpMem target mem =>
      obtain ⟨addr, hres, hload⟩ := hresolve h
      exact .loadThen (by simp [access?, hres, Except.toOption]) (fun _ => by simp) hload
  | loadTypesMem half mem =>
      obtain ⟨addr, hres, hload⟩ := hresolve h
      exact .loadThen (by simp [access?, hres, Except.toOption]) (fun _ => rfl) hload
  | storeTypesMem half mem =>
      obtain ⟨addr, hres, hstore⟩ := hresolve h
      exact .storeLow (by simp [access?, hres, Except.toOption]) hstore
  | _ =>
      obtain ⟨hrecord, hq⟩ := execute_unrecorded rfl h
      exact .untouched rfl hrecord hq

end Insn

/-! ## Memory and its record -/

theorem MemCall.perform_refused {call : MemCall} {fault : MemFault} {p q : Platform}
    (h : call.perform p = (.error fault, q)) : ∃ i, q = p.usedLast i := by
  cases call with
  | fetch mode addr =>
      obtain ⟨i, hi⟩ := Platform.fetchHalf_snd p mode addr
      exact ⟨i, (congrArg Prod.snd h).symm.trans hi⟩
  | read mode addr width =>
      cases hread : p.read mode addr width with
      | mk answer q' =>
          simp only [perform, hread] at h
          cases answer with
          | ok v => cases h
          | error fault' => cases h; exact Platform.load_refused hread
  | write mode addr width value =>
      cases hwrite : p.write mode addr width value with
      | mk answer q' =>
          simp only [perform, hwrite] at h
          cases answer with
          | ok v => cases h
          | error fault' => cases h; exact Platform.write_refused hwrite

namespace MemRecord

def access (record : MemRecord) : Access := if record.isWrite then .write else .read

/-- The call of the memory interface that a record tells of. -/
def call (record : MemRecord) (mode : Mode) : MemCall :=
  if record.isWrite then .write mode record.addr record.width record.value
  else .read mode record.addr record.width

/-- A record tells what a step did to memory `r` to make it `r'`: at the bus address memory spells
the value now, after a write that changed only the bytes it spells it with or after a read that
changed nothing. -/
def Explains (record : MemRecord) (p : Platform) (mode : Mode) (r r' : Ram) : Prop :=
  ∃ a, p.physical mode record.addr record.access = .ok a ∧
    r'.Spells a record.width record.value ∧
    if record.isWrite then r.ChangedIn (a.span record.width.bytes) r' else r' = r

end MemRecord

/-- With a record memory is as the record says, and without one it is as it was. -/
theorem Insn.Recorded.memory {insn : Insn} {s : State} {p q : Platform} {effects : Effects}
    {r : Ram} (h : insn.Recorded s p effects q) (hr : p.bus.devices = [.ram r]) :
    ∃ r', q.bus.devices = [.ram r'] ∧
      (∀ record, effects.record = some record → record.Explains p s.mode r r') ∧
      (effects.record = none → r' = r) := by
  cases h with
  | untouched hcall hrecord hq =>
      refine ⟨r, hq ▸ hr, ?_, fun _ => rfl⟩
      intro record hsome
      rw [hrecord] at hsome
      cases hsome
  | read addr width v hcall hread hcause hrecord =>
      have hq := Platform.load_memory hr s.mode addr width .read
      have hload : p.load s.mode addr width .read = (.ok v, q) := hread
      rw [hload] at hq
      refine ⟨r, hq, ?_, fun _ => rfl⟩
      intro record hsome
      obtain rfl := Option.some.inj (hrecord.symm.trans hsome)
      obtain ⟨a, ha, hspells⟩ := Platform.load_spells hr hload
      exact ⟨a, ha, hspells, rfl⟩
  | wrote addr width v hcall hwrite hcause hrecord =>
      obtain ⟨a, ha, hc, hq⟩ := Platform.write_memory hr hwrite
      refine ⟨_, hq, ?_, fun hnone => by rw [hrecord] at hnone; cases hnone⟩
      intro record hsome
      obtain rfl := Option.some.inj (hrecord.symm.trans hsome)
      exact ⟨a, ha, Ram.spells_setBytes hc (width.truncate_lt v),
        Ram.changedIn_setBytes hc (length_bytesOfNat _ _)⟩
  | refused call fault hcall hperform heffects =>
      obtain ⟨i, rfl⟩ := MemCall.perform_refused hperform
      refine ⟨r, hr, ?_, fun _ => rfl⟩
      intro record hsome
      rw [heffects] at hsome
      cases hsome

/-! ## Steps -/

namespace Machine

variable {σ : Type} {m : Machine} {effects : Effects} {p q : Platform} {s : State} {r : Ram}
  {host : Host σ} {h : σ}

/-- The access that the next instruction makes. -/
def access? (m : Machine) : Option MemCall := m.insn?.bind fun insn => insn.access? m.begun

/-- The fault that the access of the next instruction ends in, if it makes one and is refused. -/
def accessFault? (m : Machine) : Option MemFault :=
  m.access?.bind fun call =>
    match (call.perform m.fetched.2).1 with
    | .error fault => some fault
    | .ok _ => none

/-- Effects are those of a fetch that failed, or what is recorded of an instruction. -/
theorem attempt_recorded (ha : m.attempt = .ok (effects, p)) :
    (∃ fault, m.insn? = none ∧ effects = .fault fault ∧ p = m.fetched.2) ∨
      ∃ insn, m.insn? = some insn ∧ insn.Recorded m.begun m.fetched.2 effects p := by
  cases hi : m.insn? with
  | none =>
      left
      unfold attempt at ha
      split at ha
      · rename_i fault q hf
        obtain ⟨rfl, rfl⟩ := Prod.mk.inj (Except.ok.inj ha)
        exact ⟨fault, rfl, rfl, by rw [hf]⟩
      · rename_i d q hf
        rw [insn?, hf] at hi
        cases hi
  | some insn =>
      right
      rw [m.attempt_of_insn? hi] at ha
      exact ⟨insn, rfl, Insn.execute_recorded ha⟩

theorem fetched_memory (hr : m.platform.bus.devices = [.ram r]) :
    m.fetched.2.bus.devices = [.ram r] := by
  obtain ⟨i, hi⟩ := m.fetched_usedLast
  rw [hi]
  exact hr

theorem fetched_physical (m : Machine) : m.fetched.2.physical = m.platform.physical := by
  obtain ⟨i, hi⟩ := m.fetched_usedLast
  rw [hi]
  rfl

theorem attempt_memory (ha : m.attempt = .ok (effects, p))
    (hr : m.platform.bus.devices = [.ram r]) :
    ∃ r', p.bus.devices = [.ram r'] ∧
      (∀ record, effects.record = some record → record.Explains m.platform m.state.mode r r') ∧
      (effects.record = none → r' = r) := by
  rcases attempt_recorded ha with ⟨fault, -, rfl, rfl⟩ | ⟨insn, -, hrecorded⟩
  · exact ⟨r, fetched_memory hr, nofun, fun _ => rfl⟩
  · have hmemory := hrecorded.memory (fetched_memory hr)
    unfold MemRecord.Explains at hmemory ⊢
    rw [fetched_physical] at hmemory
    exact hmemory

theorem record_of_raised (ha : m.attempt = .ok (effects, p)) (hc : effects.cause.isRaised = true) :
    effects.record = none := by
  rcases attempt_recorded ha with ⟨fault, -, rfl, -⟩ | ⟨insn, -, hrecorded⟩
  · rfl
  · cases hrecorded with
    | untouched hcall hrecord hq => exact hrecord
    | read addr width v hcall hread hcause hrecord => rw [hcause] at hc; cases hc
    | wrote addr width v hcall hwrite hcause hrecord => rw [hcause] at hc; cases hc
    | refused call fault hcall hperform heffects => rw [heffects]; rfl

/-- What a step does to memory it does in the access of its instruction, unless it is a system
call that the host serviced. -/
theorem step_memory (ha : m.attempt = .ok (effects, p)) (hr : p.bus.devices = [.ram r])
    (hs : ¬ m.CallReachesHost) : (m.step host h).machine.platform.bus.devices = [.ram r] := by
  cases m.step_goes host h with
  | unbuilt e ha' hl => rw [ha] at ha'; cases ha'
  | refused effects' p' e ha' hc happly hl =>
      obtain ⟨-, rfl⟩ := Prod.mk.inj (Except.ok.inj (ha.symm.trans ha'))
      rw [hl.platform]
      exact hr
  | raised effects' p' ha' hc hf =>
      obtain ⟨rfl, rfl⟩ := Prod.mk.inj (Except.ok.inj (ha.symm.trans ha'))
      obtain ⟨mode, i, hrespond, -⟩ := respond_of_not_reachesHost ha hs host h
      rw [hrespond] at hf
      exact hf.sameContents.memory hr
  | retired effects' p' s q ha' hc happly hc' =>
      obtain ⟨rfl, rfl⟩ := Prod.mk.inj (Except.ok.inj (ha.symm.trans ha'))
      have hq : q.bus.devices = [.ram r] := by
        rw [Effects.apply_bus hc happly]
        exact hr
      exact hc'.sameContents.memory hq

/-- A step that ends in a fault of the simulator leaves memory and every device as they were. -/
theorem step_usedLast_of_error {e : HostFault} (he : (m.step host h).result = .error e) :
    ∃ i, (m.step host h).machine.platform = m.platform.usedLast i := by
  obtain ⟨t, q, -, hq, hl⟩ := step_lacks (lacks_of_step he) host h
  obtain ⟨i, hi⟩ := m.fetched_usedLast
  rw [hl.platform]
  rcases hq with rfl | ⟨number, hnumber⟩
  · exact ⟨i, hi⟩
  · obtain ⟨j, hj⟩ := Platform.fetchHalf_snd m.fetched.2 .task (m.state.tpc.even + 2)
    rw [hnumber] at hj
    exact ⟨j, hj.trans (by rw [hi]; rfl)⟩

theorem step_memory_of_error {e : HostFault} (he : (m.step host h).result = .error e)
    (hr : m.platform.bus.devices = [.ram r]) :
    (m.step host h).machine.platform.bus.devices = [.ram r] := by
  obtain ⟨i, hi⟩ := step_usedLast_of_error he
  rw [hi]
  exact hr

/-- What a step leaves on record is the answered access of its instruction. -/
theorem step_recorded {record : MemRecord}
    (hrecord : (m.step host h).machine.record = some record) :
    (∃ insn, m.insn? = some insn ∧ insn.usesMemory = true) ∧ m.accessFault? = none ∧
      m.access? = some (record.call m.state.mode) := by
  rw [step_record] at hrecord
  cases ha : m.attempt with
  | error e => rw [ha] at hrecord; cases hrecord
  | ok result =>
      obtain ⟨effects, p⟩ := result
      rw [ha] at hrecord
      dsimp only at hrecord
      rcases attempt_recorded ha with ⟨fault, -, rfl, -⟩ | ⟨insn, hi, hrecorded⟩
      · cases hrecord
      · have haccess : m.access? = insn.access? m.begun := by rw [access?, hi]; rfl
        cases hrecorded with
        | untouched hcall hnone hq => rw [hnone] at hrecord; cases hrecord
        | read addr width v hcall hread hcause hsome =>
            obtain rfl := Option.some.inj (hsome.symm.trans hrecord)
            refine ⟨⟨insn, hi, Insn.usesMemory_of_access? hcall⟩, ?_, haccess.trans hcall⟩
            rw [accessFault?, haccess, hcall]
            simp [MemCall.perform, hread, Except.map]
        | wrote addr width v hcall hwrite hcause hsome =>
            obtain rfl := Option.some.inj (hsome.symm.trans hrecord)
            refine ⟨⟨insn, hi, Insn.usesMemory_of_access? hcall⟩, ?_, haccess.trans hcall⟩
            rw [accessFault?, haccess, hcall]
            simp [MemCall.perform, hwrite, Except.map]
        | refused call fault hcall hperform heffects => rw [heffects] at hrecord; cases hrecord

/-- An access that is answered is on record. -/
theorem recorded_of_answered {insn : Insn} (hi : m.insn? = some insn)
    (hu : insn.usesMemory = true) (hanswered : m.accessFault? = none) (host : Host σ) (h : σ) :
    (m.step host h).machine.record.isSome = true := by
  obtain ⟨call, hcall⟩ := Insn.access?_of_usesMemory (m.insn?_valid hi) hu m.begun
  obtain ⟨f, -, hf⟩ := Insn.execute_access hcall
  have ha : m.attempt = .ok (f m.fetched.2) := (m.attempt_of_insn? hi).trans (hf _)
  rw [step_record, ha]
  dsimp only
  cases Insn.execute_recorded (hf m.fetched.2) with
  | untouched hnone hrecord hq => rw [hcall] at hnone; cases hnone
  | read addr width v hcall' hread hcause hrecord => rw [hrecord]; rfl
  | wrote addr width v hcall' hwrite hcause hrecord => rw [hrecord]; rfl
  | refused call' fault hcall' hperform heffects =>
      obtain rfl := Option.some.inj (hcall.symm.trans hcall')
      rw [accessFault?, access?, hi] at hanswered
      simp [hcall, hperform] at hanswered

/-- A step that raises a cause, or fails, leaves no record. -/
theorem unrecorded (hno : m.raised.isRaised = true ∨ ∃ e, (m.step host h).result = .error e) :
    (m.step host h).machine.record = none := by
  cases hrecord : (m.step host h).machine.record with
  | none => rfl
  | some record =>
      obtain ⟨⟨insn, hi, hu⟩, -, -⟩ := step_recorded hrecord
      rcases hno with hraised | ⟨e, he⟩
      · rw [step_record] at hrecord
        cases ha : m.attempt with
        | error e => rw [ha] at hrecord; cases hrecord
        | ok result =>
            obtain ⟨effects, p⟩ := result
            rw [raised_eq ha] at hraised
            rw [ha] at hrecord
            dsimp only at hrecord
            rw [record_of_raised ha hraised] at hrecord
            cases hrecord
      · cases lacks_of_step he with
        | interpolation hi' => rw [hi] at hi'; cases hi'; cases hu
        | csr hi' haddr he =>
            obtain rfl := Option.some.inj (hi.symm.trans hi')
            cases insn <;> simp [Insn.usesMemory, Insn.csr?] at hu haddr
        | call _ hi' _ _ => rw [hi] at hi'; cases hi'; cases hu

/-- A step that the host has no part in leaves memory as its record says, and as it was if there
is no record. -/
theorem step_explained (hr : m.platform.bus.devices = [.ram r]) (hs : ¬ m.CallReachesHost)
    (host : Host σ) (h : σ) :
    ∃ r', (m.step host h).machine.platform.bus.devices = [.ram r'] ∧
      (∀ record, (m.step host h).machine.record = some record →
        record.Explains m.platform m.state.mode r r') ∧
      ((m.step host h).machine.record = none → r' = r) := by
  rw [step_record]
  cases ha : m.attempt with
  | error e =>
      exact ⟨r, step_memory_of_error (step_unbuilt ha host h).result hr, nofun, fun _ => rfl⟩
  | ok result =>
      obtain ⟨effects, p⟩ := result
      obtain ⟨r', hp, hexplains⟩ := attempt_memory ha hr
      exact ⟨r', step_memory ha hp hs, hexplains⟩

/-- On a model with nothing but memory, a step leaves a record exactly if its instruction makes an
access that does not fault. A record is of that access, and tells all that the step did to memory.
Without one memory is unchanged, unless the host serviced a system call to its end. A step that
faults or fails leaves none, and no record of an earlier step has any part in it. -/
theorem record_exact {c : Config} {base : Word} (hm : c.Describes base m)
    (hc : c.model ≠ .peripheral) (host : Host σ) (h : σ) :
    let next := (m.step host h).machine
    (next.record.isSome = true ↔
        ∃ insn, m.insn? = some insn ∧ insn.usesMemory = true ∧ m.accessFault? = none) ∧
      (∃ r r', m.platform.bus.devices = [.ram r] ∧ next.platform.bus.devices = [.ram r'] ∧
        (∀ record, next.record = some record →
          m.access? = some (record.call m.state.mode) ∧
            record.Explains m.platform m.state.mode r r') ∧
        (next.record = none →
          ¬ (m.CallReachesHost ∧ ∃ halt, (m.step host h).result = .ok halt) → r' = r)) ∧
      ((m.raised.isRaised = true ∨ ∃ e, (m.step host h).result = .error e) →
        next.record = none) ∧
      ∀ old, ({ m with record := old }).step host h = m.step host h := by
  intro next
  obtain ⟨r, hr⟩ := hm.memory hc
  refine ⟨⟨?_, ?_⟩, ?_, unrecorded, fun old => rfl⟩
  · intro hsome
    obtain ⟨record, hrecord⟩ := Option.isSome_iff_exists.mp hsome
    obtain ⟨⟨insn, hi, hu⟩, hanswered, -⟩ := step_recorded hrecord
    exact ⟨insn, hi, hu, hanswered⟩
  · rintro ⟨insn, hi, hu, hanswered⟩
    exact recorded_of_answered hi hu hanswered host h
  · by_cases hs : m.CallReachesHost
    · -- A system call is a raised cause, so there is no record to explain.
      have hnone : next.record = none := unrecorded (.inl (by rw [hs.2.1]; rfl))
      obtain ⟨r', hr'⟩ := (hm.step host h).memory hc
      refine ⟨r, r', hr, hr', fun record hsome => ?_, fun _ hend => ?_⟩
      · rw [hnone] at hsome
        cases hsome
      · cases hresult : (m.step host h).result with
        | ok halt => exact absurd ⟨hs, halt, hresult⟩ hend
        | error e =>
            have hkept := step_memory_of_error hresult hr
            rw [hr'] at hkept
            cases hkept
            rfl
    · obtain ⟨r', hr', hexplains, hkept⟩ := step_explained hr hs host h
      refine ⟨r, r', hr, hr', fun record hsome => ?_, fun hnone _ => hkept hnone⟩
      exact ⟨(step_recorded hsome).2.2, hexplains record hsome⟩

/-- A task about to store `$r0` at address 4, which its data window moves up by 1024. -/
def movedStore : Machine where
  state := { regs := (RegFile.set {} 5 (.int 4)).set 0 (.int 0x11223344) }
  platform :=
    { model := .windowed
      data := ⟨1024, 0⟩
      bus := { devices := [.ram (Ram.setBytes ⟨0, 4096, ∅⟩ 0 [0x50, 0xe7])] } }
  environment := .operating

theorem record_exact_movedStore :
    let c : Config := { environment := .operating, model := .windowed, ramSize := 4096 }
    c.Describes 0 movedStore ∧ c.model ≠ .peripheral ∧
      ∃ r', (movedStore.step Host.noting none).machine.platform.bus.devices = [.ram r'] ∧
        r'.Spells 1028 .word 0x11223344 := by
  intro c
  have hm : c.Describes 0 movedStore := ⟨rfl, rfl, rfl⟩
  have hc : c.model ≠ .peripheral := by decide
  have hrecord : (movedStore.step Host.noting none).machine.record =
      some ⟨4, .word, true, 0x11223344⟩ := by decide +kernel
  obtain ⟨-, ⟨r, r', -, hr', hsome, -⟩, -, -⟩ := record_exact hm hc Host.noting none
  obtain ⟨-, a, ha, hspells, -⟩ := hsome _ hrecord
  obtain rfl : a = 1028 := (Except.ok.inj ha).symm
  exact ⟨hm, hc, r', hr', hspells⟩

end Machine

end TypedCore
