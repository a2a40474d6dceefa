import TypedCore.Proofs.Memory.Record
import TypedCore.Proofs.Modes.Switching

/-!
# Which fault, and of which address

A step makes two kinds of calls that can fault: one for each halfword of its
instruction, and the access of the instruction. The first that fails is
`Machine.failedCall?`, and what it tells is its own failure, the cause of its kind
with its address, on every platform (`Machine.memFault?_eq`). What a step leaves as
cause and address is that fault or has nothing to do with memory: no encoding raises
a memory fault by itself.

Where there is nothing but memory, whether a call fails is settled before it is made
(`MemCall.fault?`). Alignment is looked at first, so a call that is not aligned ends
alike wherever it points. An aligned call ends in a violation exactly if translation
denies it or no device has its bytes. A fetch then ends at the first halfword for
which that is so (`Machine.fetched_fault?`).
-/

namespace TypedCore

/-! ## Calls -/

/-- The fault in an answer, if it is one. -/
def MemFault.of? {α : Type} : Except MemFault α → Option MemFault
  | .ok _ => none
  | .error fault => some fault

@[simp] theorem MemFault.of?_map {α β : Type} (f : α → β) (answer : Except MemFault α) :
    of? (answer.map f) = of? answer := by
  cases answer <;> rfl

namespace MemCall

/-- The answer to some calls together, and the platform after it: a value if all of them are
answered, and else the fault of the first that fails. -/
def Leaves {α : Type} (attempted : Except MemCall Platform)
    (result : Except MemFault α × Platform) : Prop :=
  match attempted with
  | .ok q => ∃ a, result = (.ok a, q)
  | .error call => ∃ q, result = (.error call.failure, q)

theorem Leaves.fault? {α : Type} {p : Platform} {calls : List MemCall}
    {result : Except MemFault α × Platform} (h : Leaves (attemptAll p calls) result) :
    MemFault.of? result.1 = (firstFailed? p calls).map failure := by
  unfold firstFailed?
  cases hattempt : attemptAll p calls with
  | ok q =>
      rw [hattempt] at h
      obtain ⟨a, rfl⟩ := h
      rfl
  | error call =>
      rw [hattempt] at h
      obtain ⟨q, rfl⟩ := h
      rfl

/-- Whether translation allows a call and some device has its bytes. -/
def isMapped (p : Platform) (call : MemCall) : Bool :=
  match call.physical p with
  | .ok a => p.bus.devices.any (·.covers a call.width.bytes)
  | .error _ => false

/-- The fault that a call ends in where there is nothing but memory. -/
def fault? (p : Platform) (call : MemCall) : Option MemFault :=
  if call.isAligned then
    if call.isMapped p then none else some ⟨call.access.violation, call.addr⟩
  else some ⟨.unaligned, call.addr⟩

variable {p : Platform} {r : Ram} {call : MemCall} {a : Word}

theorem isMapped_denied {fault : MemFault} (h : call.physical p = .error fault) :
    call.isMapped p = false := by
  unfold isMapped
  rw [h]

theorem isMapped_memory (hr : p.bus.devices = [.ram r]) (h : call.physical p = .ok a) :
    call.isMapped p = decide (r.Covers a call.width.bytes) := by
  unfold isMapped
  rw [h]
  dsimp only
  rw [hr, List.any_cons, List.any_nil, Bool.or_false]
  rfl

theorem fault?_unaligned (hal : call.isAligned = false) :
    call.fault? p = some ⟨.unaligned, call.addr⟩ := by
  simp [fault?, hal]

theorem fault?_aligned (hal : call.isAligned = true) :
    call.fault? p =
      if call.isMapped p then none else some ⟨call.access.violation, call.addr⟩ := by
  simp [fault?, hal]

theorem load_fault? (hr : p.bus.devices = [.ram r]) (call : MemCall) :
    MemFault.of? (p.load call.mode call.addr call.width call.access).1 = call.fault? p := by
  cases hal : call.isAligned with
  | false =>
      rw [Platform.load_unaligned hal, fault?_unaligned hal]
      rfl
  | true =>
      rw [fault?_aligned hal]
      cases hp : call.physical p with
      | error fault =>
          rw [Platform.load_denied hal hp, isMapped_denied hp]
          rfl
      | ok a =>
          rw [Platform.load_allowed hal hp, isMapped_memory hr hp, Bus.readBytes_ram hr]
          by_cases hc : r.Covers a call.width.bytes
          · rw [if_pos hc, if_pos (decide_eq_true hc)]
            rfl
          · rw [if_neg hc, if_neg (by simpa using hc)]
            rfl

theorem write_fault? (hr : p.bus.devices = [.ram r]) (mode : Mode) (addr : Word) (width : Width)
    (value : Word) :
    MemFault.of? (p.write mode addr width value).1 = (write mode addr width value).fault? p := by
  cases hal : (write mode addr width value).isAligned with
  | false =>
      have hal' : width.isAligned addr = false := hal
      rw [Platform.write_unaligned hal', fault?_unaligned hal]
      rfl
  | true =>
      have hal' : width.isAligned addr = true := hal
      rw [fault?_aligned hal]
      cases hp : (write mode addr width value).physical p with
      | error fault =>
          have hp' : p.physical mode addr .write = .error fault := hp
          rw [Platform.write_denied hal' hp', isMapped_denied hp]
          rfl
      | ok a =>
          have hp' : p.physical mode addr .write = .ok a := hp
          rw [Platform.write_allowed hal' hp', isMapped_memory hr hp, Bus.writeBytes_ram hr,
            length_bytesOfNat]
          by_cases hc : r.Covers a (write mode addr width value).width.bytes
          · rw [if_pos (show r.Covers a width.bytes from hc), if_pos rfl,
              if_pos (decide_eq_true hc)]
            rfl
          · rw [if_neg (show ¬ r.Covers a width.bytes from hc), if_neg Bool.false_ne_true,
              if_neg (by simpa using hc)]
            rfl

/-- How a call ends is settled by its alignment, by translation and by what is attached. -/
theorem perform_fault? (hr : p.bus.devices = [.ram r]) (call : MemCall) :
    MemFault.of? (call.perform p).1 = call.fault? p := by
  cases call with
  | fetch mode addr =>
      rw [perform, Platform.fetchHalf_eq]
      simp only [MemFault.of?_map]
      exact load_fault? hr (.fetch mode addr)
  | read mode addr width =>
      rw [perform, MemFault.of?_map]
      exact load_fault? hr (.read mode addr width)
  | write mode addr width value =>
      rw [perform, MemFault.of?_map]
      exact write_fault? hr mode addr width value

end MemCall

/-! ## Fetching -/

namespace Machine

/-- The call that fetches halfword `i` of the next instruction. -/
def halfCall (m : Machine) (i : Nat) : MemCall :=
  .fetch m.state.mode (m.state.pc.even + BitVec.ofNat 32 (2 * i))

/-- How many halfwords the next instruction has. The length rule needs the first of them; if that
cannot be fetched, no other is asked for. -/
def halfwords (m : Machine) : Nat :=
  match (m.platform.fetchHalf m.state.mode m.state.pc.even).1 with
  | .ok word => word.insnLength / 2
  | .error _ => 1

/-- The calls that fetch the next instruction. -/
def halfCalls (m : Machine) : List MemCall := (List.range m.halfwords).map m.halfCall

/-- The calls that the next instruction makes: one for each of its halfwords, then its access. -/
def insnCalls (m : Machine) : List MemCall := m.halfCalls ++ m.access?.toList

/-- The first call of the next instruction that fails. -/
def failedCall? (m : Machine) : Option MemCall := MemCall.firstFailed? m.platform m.insnCalls

/-- The first halfword of the next instruction that cannot be fetched. -/
def firstUnmapped? (m : Machine) : Option Nat :=
  (List.range m.halfwords).find? fun i => !(m.halfCall i).isMapped m.platform

variable {m : Machine} {r : Ram}

/-- An instruction starts at an even address, and so does each of its halfwords. -/
theorem halfCall_isAligned (m : Machine) (i : Nat) : (m.halfCall i).isAligned = true := by
  have heven : (m.state.pc.even + BitVec.ofNat 32 (2 * i)).toNat % 2 = 0 := by
    rw [BitVec.toNat_add, Word.toNat_even, BitVec.toNat_ofNat]
    omega
  exact beq_iff_eq.mpr heven

theorem halfCall_failure (m : Machine) (i : Nat) :
    (m.halfCall i).failure = ⟨.fetchViolation, (m.halfCall i).addr⟩ := by
  rw [MemCall.failure, if_pos (m.halfCall_isAligned i)]
  rfl

/-- Where there is nothing but memory, a halfword is fetched if it is allowed and there, whatever
the bus used last. -/
theorem attempt_halfCall (hr : m.platform.bus.devices = [.ram r]) (i j : Nat) :
    (m.halfCall i).isMapped m.platform = true ∧
        (∃ k, (m.halfCall i).attempt (m.platform.usedLast j) = .ok (m.platform.usedLast k)) ∨
      (m.halfCall i).isMapped m.platform = false ∧
        (m.halfCall i).attempt (m.platform.usedLast j) = .error (m.halfCall i) := by
  have hfault := MemCall.perform_fault? (p := m.platform.usedLast j) hr (m.halfCall i)
  obtain ⟨k, hk⟩ := (m.platform.usedLast j).fetchHalf_snd m.state.mode (m.halfCall i).addr
  have hafter : ((m.halfCall i).perform (m.platform.usedLast j)).2 = m.platform.usedLast k := hk
  have hsame : (m.halfCall i).isMapped (m.platform.usedLast j) =
      (m.halfCall i).isMapped m.platform := rfl
  rw [MemCall.fault?_aligned (m.halfCall_isAligned i), hsame] at hfault
  cases hmapped : (m.halfCall i).isMapped m.platform with
  | true =>
      rw [if_pos hmapped] at hfault
      cases hanswer : ((m.halfCall i).perform (m.platform.usedLast j)).1 with
      | ok v => exact .inl ⟨rfl, k, MemCall.attempt_ok (Prod.ext hanswer hafter)⟩
      | error fault => rw [hanswer] at hfault; cases hfault
  | false =>
      rw [if_neg (by simpa using hmapped)] at hfault
      cases hanswer : ((m.halfCall i).perform (m.platform.usedLast j)).1 with
      | ok v => rw [hanswer] at hfault; cases hfault
      | error fault => exact .inr ⟨rfl, MemCall.attempt_error (Prod.ext hanswer hafter)⟩

theorem fetchExtension_leaves (m : Machine) (p : Platform) {len : Nat}
    (hlen : len = 2 ∨ len = 4 ∨ len = 6) :
    MemCall.Leaves (MemCall.attemptAll p ((List.range (len / 2)).tail.map m.halfCall))
      (p.fetchExtension m.state.mode m.state.pc.even len) := by
  have hfirst := MemCall.fetchHalf_attempt p m.state.mode (m.state.pc.even + 2)
  unfold Platform.fetchExtension
  rcases hlen with rfl | rfl | rfl
  · exact ⟨0, rfl⟩
  · show MemCall.Leaves (MemCall.attemptAll p [.fetch m.state.mode (m.state.pc.even + 2)]) _
    rcases hfirst with ⟨low, q, hf, hattempt⟩ | ⟨q, hf, hattempt⟩
    · rw [MemCall.attemptAll_ok hattempt, hf]
      exact ⟨_, rfl⟩
    · rw [MemCall.attemptAll_error hattempt, hf]
      exact ⟨_, rfl⟩
  · show MemCall.Leaves (MemCall.attemptAll p [.fetch m.state.mode (m.state.pc.even + 2),
      .fetch m.state.mode (m.state.pc.even + 4)]) _
    rcases hfirst with ⟨low, q, hf, hattempt⟩ | ⟨q, hf, hattempt⟩
    · rw [MemCall.attemptAll_ok hattempt, hf]
      dsimp only
      rcases MemCall.fetchHalf_attempt q m.state.mode (m.state.pc.even + 4) with
        ⟨high, r, hg, hattempt⟩ | ⟨r, hg, hattempt⟩
      · rw [MemCall.attemptAll_ok hattempt, hg]
        exact ⟨_, rfl⟩
      · rw [MemCall.attemptAll_error hattempt, hg]
        exact ⟨_, rfl⟩
    · rw [MemCall.attemptAll_error hattempt, hf]
      exact ⟨_, rfl⟩

/-- A fetch makes the calls for its halfwords, as far as they are answered. -/
theorem fetched_leaves (m : Machine) :
    MemCall.Leaves (MemCall.attemptAll m.platform m.halfCalls) m.fetched := by
  have hzero : m.halfCall 0 = .fetch m.state.mode m.state.pc.even := by
    rw [halfCall, Nat.mul_zero, BitVec.add_zero]
  unfold fetched Platform.fetch halfCalls halfwords
  rcases MemCall.fetchHalf_attempt m.platform m.state.mode m.state.pc.even with
    ⟨word, q, hf, hattempt⟩ | ⟨q, hf, hattempt⟩
  · have hrange : List.range (word.insnLength / 2) =
        0 :: (List.range (word.insnLength / 2)).tail := by
      rcases word.insnLength_cases with hlen | hlen | hlen <;> rw [hlen] <;> rfl
    have hrest := m.fetchExtension_leaves q word.insnLength_cases
    rw [hf]
    dsimp only
    rw [hrange, List.map_cons, hzero, MemCall.attemptAll_ok hattempt]
    unfold MemCall.Leaves at hrest ⊢
    split at hrest
    · obtain ⟨ext, hext⟩ := hrest
      exact ⟨decode word ext, by rw [hext]⟩
    · obtain ⟨r, hext⟩ := hrest
      exact ⟨r, by rw [hext]⟩
  · rw [hf]
    dsimp only
    rw [List.range_one, List.map_singleton, hzero, MemCall.attemptAll_error hattempt]
    exact ⟨q, rfl⟩

theorem firstFailed?_halfCalls (hr : m.platform.bus.devices = [.ram r]) (is : List Nat) (j : Nat) :
    MemCall.firstFailed? (m.platform.usedLast j) (is.map m.halfCall) =
      (is.find? fun i => !(m.halfCall i).isMapped m.platform).map m.halfCall := by
  induction is generalizing j with
  | nil => rfl
  | cons i is ih =>
      rw [List.map_cons]
      rcases attempt_halfCall hr i j with ⟨hmapped, k, hattempt⟩ | ⟨hunmapped, hattempt⟩
      · rw [MemCall.firstFailed?_ok hattempt, List.find?_cons_of_neg (by simp [hmapped])]
        exact ih k
      · rw [MemCall.firstFailed?_error hattempt, List.find?_cons_of_pos (by simp [hunmapped])]
        rfl

/-- A fetch goes as far as the first halfword that cannot be had, and fails there. -/
theorem fetched_fault? (hr : m.platform.bus.devices = [.ram r]) :
    MemFault.of? m.fetched.1 =
      m.firstUnmapped?.map fun i => ⟨.fetchViolation, (m.halfCall i).addr⟩ := by
  have hfirst := firstFailed?_halfCalls hr (List.range m.halfwords) m.platform.bus.last
  have hsame : m.platform.usedLast m.platform.bus.last = m.platform := rfl
  rw [hsame] at hfirst
  rw [m.fetched_leaves.fault?, halfCalls, hfirst, Option.map_map]
  exact congrArg (Option.map · _) (funext m.halfCall_failure)

end Machine

/-! ## Instructions without an access -/

/-- The causes that tell of a memory fault. -/
def Cause.isMemory : Cause → Bool
  | unaligned | fetchViolation | memoryViolation => true
  | _ => false

theorem Listing.Line.interrupt_isMemory {x : Word} {interpolates : Nat → Prop} {c b a d len : Nat}
    {cause : Cause} (h : Line x interpolates c b a d len (.interrupt cause)) :
    cause.isMemory = false := by
  have hall : ∀ entry ∈ interrupts, entry.2.isMemory = false := by decide
  cases h with
  | alu h => cases h with | interrupt hmem => exact hall _ hmem
  | tiny h => cases h
  | memory h => cases h
  | branch h => cases h
  | extended h => cases h

namespace Insn

variable {insn : Insn} {s : State} {p q : Platform} {effects : Effects}

theorem faultAddr_executeBinary (op : BinaryOp) (rd : Nat) (lhs : Operand) (rhs : Nat)
    (regs : RegFile) : (executeBinary op rd lhs rhs regs).faultAddr = none := by
  unfold executeBinary
  cases lhs with
  | reg ra => simp
  | imm value short => dsimp only; split <;> simp [Effects.raise]

/-- An instruction that makes no access has no address to tell. -/
theorem execute_unaddressed (hu : insn.usesMemory = false)
    (h : insn.execute s p = .ok (effects, q)) : effects.faultAddr = none := by
  cases insn with
  | memory op reg mem => cases hu
  | jumpMem target mem => cases hu
  | loadTypesMem half mem => cases hu
  | storeTypesMem half mem => cases hu
  | interpolate rd ra rb => cases h
  | binary op rd lhs rhs => cases h; exact faultAddr_executeBinary op rd lhs rhs s.regs
  | enterTask => cases h; split <;> rfl
  | branch cmp allLanes offset =>
      cases h
      split
      · rfl
      · rfl
      · rfl
  | bitBranch reg bit set offset => cases h; split <;> rfl
  | _ => cases h; simp [Effects.raise, Effects.write, TypedCore.loadTypes]

/-- The access of an instruction is one to data. -/
theorem violation_of_access? {call : MemCall} (h : insn.access? s = some call) :
    call.access.violation = .memoryViolation := by
  have hresolve : ∀ {mem : MemRef} {call' : Word → MemCall},
      (∀ a, (call' a).access.violation = .memoryViolation) →
      (mem.resolve s.regs).toOption.map call' = some call →
      call.access.violation = .memoryViolation := by
    intro mem call' hviolation h
    obtain ⟨a, -, rfl⟩ := Option.map_eq_some_iff.mp h
    exact hviolation a
  cases insn with
  | memory op reg mem => cases op <;> exact hresolve (fun _ => rfl) h
  | jumpMem target mem => exact hresolve (fun _ => rfl) h
  | loadTypesMem half mem => exact hresolve (fun _ => rfl) h
  | storeTypesMem half mem => exact hresolve (fun _ => rfl) h
  | _ => cases h

/-- The reference that the access of an instruction resolves. -/
theorem addr_of_access? {call : MemCall} (h : insn.access? s = some call) :
    ∃ mem, insn.memRef? = some mem ∧ mem.resolve s.regs = .ok call.addr := by
  have hresolve : ∀ {mem : MemRef} {call' : Word → MemCall}, (∀ a, (call' a).addr = a) →
      (mem.resolve s.regs).toOption.map call' = some call → mem.resolve s.regs = .ok call.addr := by
    intro mem call' haddr h
    cases hres : mem.resolve s.regs with
    | error e => rw [hres] at h; cases h
    | ok a =>
        rw [hres] at h
        obtain rfl := Option.some.inj h
        rw [haddr]
  cases insn with
  | memory op reg mem => cases op <;> exact ⟨mem, rfl, hresolve (fun _ => rfl) h⟩
  | jumpMem target mem => exact ⟨mem, rfl, hresolve (fun _ => rfl) h⟩
  | loadTypesMem half mem => exact ⟨mem, rfl, hresolve (fun _ => rfl) h⟩
  | storeTypesMem half mem => exact ⟨mem, rfl, hresolve (fun _ => rfl) h⟩
  | _ => cases h

end Insn

namespace Machine

variable {m : Machine} {effects : Effects} {p : Platform} {r : Ram}

theorem insn?_decode {insn : Insn} (hi : m.insn? = some insn) :
    ∃ word ext, (decode word ext).insn = insn := by
  obtain ⟨d, hd, hinsn⟩ := Option.map_eq_some_iff.mp hi
  cases hf : m.fetched.1 with
  | error fault => rw [hf] at hd; cases hd
  | ok d' =>
      rw [hf] at hd
      obtain rfl := Option.some.inj hd
      obtain ⟨word, ext, rfl⟩ := m.fetched_decode hf
      exact ⟨word, ext, hinsn⟩

/-- No encoding raises a memory fault by itself. -/
theorem insn?_interrupt {cause : Cause} (hi : m.insn? = some (.interrupt cause)) :
    cause.isMemory = false := by
  obtain ⟨word, ext, hinsn⟩ := insn?_decode hi
  rcases listed_of_decode word ext with hu | ⟨len, hl⟩
  · cases hinsn.symm.trans hu
  · rw [hinsn] at hl
    exact hl.interrupt_isMemory

/-! ## The fault of a step -/

/-- The first fault of the calls that the next instruction makes: in its fetch, or in its
access. -/
def memFault? (m : Machine) : Option MemFault := (MemFault.of? m.fetched.1).or m.accessFault?

/-- On every platform, the fault is the failure of the first call that fails. -/
theorem memFault?_eq (m : Machine) : m.memFault? = m.failedCall?.map MemCall.failure := by
  have hleaves := m.fetched_leaves
  unfold memFault? failedCall? insnCalls accessFault?
  rw [MemCall.firstFailed?_append]
  cases hattempt : MemCall.attemptAll m.platform m.halfCalls with
  | ok q =>
      rw [hattempt] at hleaves
      obtain ⟨d, hf⟩ := hleaves
      rw [hf]
      cases m.access? with
      | none => rfl
      | some call => exact (MemCall.firstFailed?_singleton q call).symm
  | error call =>
      rw [hattempt] at hleaves
      obtain ⟨q, hf⟩ := hleaves
      rw [hf]
      rfl

theorem insn?_eq_none_iff (m : Machine) :
    m.insn? = none ↔ ∃ fault, MemFault.of? m.fetched.1 = some fault := by
  unfold insn?
  cases m.fetched.1 with
  | ok d => exact ⟨nofun, nofun⟩
  | error fault => exact ⟨fun _ => ⟨fault, rfl⟩, fun _ => rfl⟩

theorem accessFault?_eq (hr : m.platform.bus.devices = [.ram r]) :
    m.accessFault? = m.access?.bind fun call => call.fault? m.platform := by
  obtain ⟨i, hi⟩ := m.fetched_usedLast
  unfold accessFault?
  rw [hi]
  congr 1
  funext call
  have hfault := MemCall.perform_fault? (p := m.platform.usedLast i) hr call
  have hsame : call.fault? (m.platform.usedLast i) = call.fault? m.platform := rfl
  rw [← hsame, ← hfault]
  cases (call.perform (m.platform.usedLast i)).1 <;> rfl

theorem accessFault?_of_perform {insn : Insn} {call : MemCall} (hi : m.insn? = some insn)
    (hcall : insn.access? m.begun = some call) :
    m.accessFault? = MemFault.of? (call.perform m.fetched.2).1 := by
  unfold accessFault? access?
  rw [hi, Option.bind_some, hcall, Option.bind_some]
  cases (call.perform m.fetched.2).1 <;> rfl

/-- An address comes with the fault of an access, and with nothing else. -/
theorem attempt_faultAddr
    (ha : m.attempt = .ok (effects, p)) :
    effects.faultAddr = none ∨ ∃ fault : MemFault, effects = .fault fault ∧
      (fault.cause = .unaligned ∨ fault.cause = .fetchViolation ∨
        fault.cause = .memoryViolation) := by
  unfold attempt at ha
  split at ha
  · rename_i fault q hf
    obtain ⟨rfl, -⟩ := Prod.mk.inj (Except.ok.inj ha)
    rcases Platform.fetch_fault hf with hcause | hcause
    · exact .inr ⟨fault, rfl, .inl hcause⟩
    · exact .inr ⟨fault, rfl, .inr (.inl hcause)⟩
  · rcases Insn.execute_faultAddr ha with hnone | ⟨fault, hfault, hcause | hcause⟩
    · exact .inl hnone
    · exact .inr ⟨fault, hfault, .inl hcause⟩
    · exact .inr ⟨fault, hfault, .inr (.inr hcause)⟩

/-- Effects without a cause come without an address. -/
theorem attempt_unaddressed (ha : m.attempt = .ok (effects, p))
    (hc : effects.cause.isRaised = false) : effects.faultAddr = none := by
  rcases attempt_faultAddr ha with hnone | ⟨fault, rfl, hcause⟩
  · exact hnone
  · have hquiet : fault.cause.isRaised = false := hc
    rcases hcause with h | h | h <;> rw [h] at hquiet <;> cases hquiet

/-- The effects of an instruction are those of the fault of its calls; without one they name no
memory fault and no address. -/
theorem attempt_memFault (ha : m.attempt = .ok (effects, p)) :
    match m.memFault? with
    | some fault => effects = .fault fault
    | none => effects.cause.isMemory = false ∧ effects.faultAddr = none := by
  unfold memFault?
  rcases attempt_asks ha with ⟨fault, hf, rfl⟩ | ⟨insn, hi, hv, hasks⟩
  · rw [hf]
    rfl
  · have hfetched : MemFault.of? m.fetched.1 = none := by
      cases hof : MemFault.of? m.fetched.1 with
      | none => rfl
      | some fault => cases hi.symm.trans (m.insn?_eq_none_iff.mpr ⟨fault, hof⟩)
    rw [hfetched, Option.none_or]
    have hex : insn.execute m.begun m.fetched.2 = .ok (effects, p) :=
      (m.attempt_of_insn? hi).symm.trans ha
    cases Insn.execute_recorded hex with
    | untouched hcall hrecord hq =>
        have hnone : m.accessFault? = none := by
          rw [accessFault?, access?, hi, Option.bind_some, hcall, Option.bind_none]
        have hu : insn.usesMemory = false := by
          cases hu : insn.usesMemory with
          | false => rfl
          | true =>
              obtain ⟨call, hsome⟩ := Insn.access?_of_usesMemory hv hu m.begun
              cases hcall.symm.trans hsome
        have haddr := Insn.execute_unaddressed hu hex
        rw [hnone]
        refine ⟨?_, haddr⟩
        cases hasks with
        | raises c hc =>
            rcases hc with rfl | ⟨-, rfl⟩ | rfl
            · rfl
            · rfl
            · exact insn?_interrupt hi
        | faults fault hf => cases haddr
        | jumps target addr record ht => cases target <;> rfl
        | _ => rfl
    | read addr width v hcall hread hcause hrecord =>
        rw [accessFault?_of_perform hi hcall, MemCall.perform, hread]
        exact ⟨by rw [hcause]; rfl, attempt_unaddressed ha (by rw [hcause]; rfl)⟩
    | wrote addr width v hcall hwrite hcause hrecord =>
        rw [accessFault?_of_perform hi hcall, MemCall.perform, hwrite]
        exact ⟨by rw [hcause]; rfl, attempt_unaddressed ha (by rw [hcause]; rfl)⟩
    | refused call fault hcall hperform heffects =>
        rw [accessFault?_of_perform hi hcall, hperform]
        exact heffects

/-- What the next instruction raises is the fault of its calls, or no memory fault. -/
theorem raised_memFault (m : Machine) :
    match m.memFault? with
    | some fault => m.raised = fault.cause ∧ m.raisedAddr = some fault.addr
    | none => m.raised.isMemory = false ∧ m.raisedAddr = none := by
  cases ha : m.attempt with
  | ok result =>
      obtain ⟨effects, p⟩ := result
      have heffects := attempt_memFault ha
      rw [raised_eq ha, raisedAddr_eq ha]
      cases hfault : m.memFault? with
      | some fault =>
          rw [hfault] at heffects
          rw [heffects]
          exact ⟨rfl, rfl⟩
      | none =>
          rw [hfault] at heffects
          exact heffects
  | error e =>
      -- What is not built makes no access either.
      have hnone : m.memFault? = none := by
        unfold memFault?
        cases hf : m.fetched.1 with
        | error fault =>
            unfold attempt at ha
            split at ha
            · cases ha
            · rename_i hd
              rw [hd] at hf
              cases hf
        | ok d =>
            have hi : m.insn? = some d.insn := by rw [insn?, hf]; rfl
            cases hcall : d.insn.access? m.begun with
            | none => simp [MemFault.of?, accessFault?, access?, hi, hcall]
            | some call =>
                obtain ⟨f, -, hf⟩ := Insn.execute_access hcall
                rw [m.attempt_of_insn? hi, hf] at ha
                cases ha
      rw [hnone]
      unfold raised raisedAddr
      rw [ha]
      exact ⟨rfl, rfl⟩

end Machine

/-! ## Steps -/

theorem Core.Ends.faultAddr {c d : Core} {halt x : Option Halt} (h : c.Ends halt x d)
    (hnone : c.state.faultAddr = none) : d.state.faultAddr = none := by
  cases h with
  | halted halt => exact hnone
  | exited halt bus hexit => exact hnone
  | interrupted s hexit hpending hs =>
      rw [State.takeInterrupt_eq hs]
      rfl
  | wentOn hexit hs => exact hnone

namespace Machine

variable {σ : Type} {m : Machine} {r : Ram}

/-- The address that a step leaves is the one that its instruction raised. -/
theorem step_faultAddr (m : Machine) (host : Host σ) (h : σ) :
    (m.step host h).machine.state.faultAddr = m.raisedAddr := by
  cases m.step_goes host h with
  | unbuilt e ha hl =>
      rw [hl.state, raisedAddr, ha]
      rfl
  | refused effects p e ha hc happly hl =>
      rw [hl.state, raisedAddr_eq ha]
      exact (attempt_unaddressed ha hc).symm
  | raised effects p ha hc hf =>
      obtain ⟨t, hk, hstate | hstate, -⟩ := step_raised_state ha hc host h
      · rw [hstate, raisedAddr_eq ha]
        exact hk.faultAddr
      · rw [hstate, raisedAddr_eq ha]
        exact hk.faultAddr
  | retired effects p s q ha hc happly hr =>
      obtain ⟨x, d, hends, hl⟩ := hr
      have hs : s.faultAddr = none := (Effects.apply_kept hc happly).faultAddr
      rw [hl.state, raisedAddr_eq ha, hends.faultAddr hs]
      exact (attempt_unaddressed ha hc).symm

/-- How the calls of the next instruction end where there is nothing but memory, with their
fault. -/
inductive CallsEnd (m : Machine) : Option MemFault → Prop where
  | unfetched (i : Nat) (hi : i < m.halfwords)
      (hunmapped : (m.halfCall i).isMapped m.platform = false)
      (hfirst : ∀ j < i, (m.halfCall j).isMapped m.platform = true) (hinsn : m.insn? = none) :
      CallsEnd m (some ⟨.fetchViolation, (m.halfCall i).addr⟩)
  | unaligned (hmapped : ∀ i < m.halfwords, (m.halfCall i).isMapped m.platform = true)
      (call : MemCall) (haccess : m.access? = some call) (hal : call.isAligned = false) :
      CallsEnd m (some ⟨.unaligned, call.addr⟩)
  | denied (hmapped : ∀ i < m.halfwords, (m.halfCall i).isMapped m.platform = true)
      (call : MemCall) (haccess : m.access? = some call) (hal : call.isAligned = true)
      (hunmapped : call.isMapped m.platform = false) :
      CallsEnd m (some ⟨.memoryViolation, call.addr⟩)
  | answered (hmapped : ∀ i < m.halfwords, (m.halfCall i).isMapped m.platform = true)
      (hinsn : m.insn? ≠ none)
      (hdata : ∀ call, m.access? = some call →
        call.isAligned = true ∧ call.isMapped m.platform = true) : CallsEnd m none

theorem access?_of_unfetched (hi : m.insn? = none) : m.access? = none := by
  rw [access?, hi, Option.bind_none]

/-- The address of an access is what the reference of the instruction resolves to. -/
theorem resolved_of_access? {call : MemCall} (h : m.access? = some call) :
    ∃ insn mem, m.insn? = some insn ∧ insn.memRef? = some mem ∧
      mem.resolve m.state.regs = .ok call.addr := by
  obtain ⟨insn, hi, hcall⟩ := Option.bind_eq_some_iff.mp h
  obtain ⟨mem, hmem, haddr⟩ := Insn.addr_of_access? hcall
  exact ⟨insn, mem, hi, hmem, haddr⟩

theorem calls_end (hr : m.platform.bus.devices = [.ram r]) : m.CallsEnd m.memFault? := by
  unfold memFault?
  rw [accessFault?_eq hr, fetched_fault? hr]
  cases hfirst : m.firstUnmapped? with
  | some i =>
      have hinsn : m.insn? = none :=
        m.insn?_eq_none_iff.mpr ⟨_, by rw [fetched_fault? hr, hfirst]; rfl⟩
      obtain ⟨hunmapped, hi, hbefore⟩ := List.find?_range_eq_some.mp hfirst
      exact .unfetched i (List.mem_range.mp hi) (by simpa using hunmapped)
        (fun j hj => by simpa using hbefore j hj) hinsn
  | none =>
      have hmapped : ∀ i < m.halfwords, (m.halfCall i).isMapped m.platform = true := by
        intro i hi
        simpa using List.find?_eq_none.mp hfirst i (List.mem_range.mpr hi)
      have hinsn : m.insn? ≠ none := by
        intro hnone
        obtain ⟨fault, hfault⟩ := m.insn?_eq_none_iff.mp hnone
        rw [fetched_fault? hr, hfirst] at hfault
        cases hfault
      rw [Option.map_none, Option.none_or]
      cases haccess : m.access? with
      | none => exact .answered hmapped hinsn fun call h => by cases haccess.symm.trans h
      | some call =>
          obtain ⟨insn, -, hcall⟩ := Option.bind_eq_some_iff.mp haccess
          rw [Option.bind_some]
          cases hal : call.isAligned with
          | false =>
              rw [MemCall.fault?_unaligned hal]
              exact .unaligned hmapped call haccess hal
          | true =>
              rw [MemCall.fault?_aligned hal, Insn.violation_of_access? hcall]
              cases hdata : call.isMapped m.platform with
              | false => exact .denied hmapped call haccess hal hdata
              | true =>
                  refine .answered hmapped hinsn fun call' h => ?_
                  obtain rfl := Option.some.inj (haccess.symm.trans h)
                  exact ⟨hal, hdata⟩

namespace CallsEnd

variable {fault? : Option MemFault}

theorem fetch_iff (h : m.CallsEnd fault?) :
    (∃ addr, fault? = some ⟨.fetchViolation, addr⟩) ↔
      ∃ i < m.halfwords, (m.halfCall i).isMapped m.platform = false := by
  cases h with
  | unfetched i hi hunmapped => exact iff_of_true ⟨_, rfl⟩ ⟨i, hi, hunmapped⟩
  | unaligned hmapped => simpa using hmapped
  | denied hmapped => simpa using hmapped
  | answered hmapped => simpa using hmapped

/-- There is one first halfword that cannot be fetched, and its address is told. -/
theorem first (h : m.CallsEnd fault?) {i : Nat} (hi : i < m.halfwords)
    (hunmapped : (m.halfCall i).isMapped m.platform = false)
    (hfirst : ∀ j < i, (m.halfCall j).isMapped m.platform = true) :
    fault? = some ⟨.fetchViolation, (m.halfCall i).addr⟩ := by
  have hall : ¬ ∀ j < m.halfwords, (m.halfCall j).isMapped m.platform = true := by
    intro hmapped
    rw [hmapped i hi] at hunmapped
    cases hunmapped
  cases h with
  | unfetched k _ hk hbefore =>
      rcases Nat.lt_trichotomy i k with hlt | rfl | hgt
      · rw [hbefore i hlt] at hunmapped
        cases hunmapped
      · rfl
      · rw [hfirst k hgt] at hk
        cases hk
  | unaligned hmapped => exact absurd hmapped hall
  | denied hmapped => exact absurd hmapped hall
  | answered hmapped => exact absurd hmapped hall

theorem unaligned_iff (h : m.CallsEnd fault?) :
    (∃ addr, fault? = some ⟨.unaligned, addr⟩) ↔
      ∃ call, m.access? = some call ∧ call.isAligned = false := by
  cases h with
  | unfetched i hi hunmapped hfirst hinsn => simp [access?_of_unfetched hinsn]
  | unaligned hmapped call haccess hal => exact iff_of_true ⟨_, rfl⟩ ⟨call, haccess, hal⟩
  | denied hmapped call haccess hal => simp [haccess, hal]
  | answered hmapped hinsn hdata => simpa using fun call h => (hdata call h).1

theorem denied_iff (h : m.CallsEnd fault?) :
    (∃ addr, fault? = some ⟨.memoryViolation, addr⟩) ↔
      ∃ call, m.access? = some call ∧ call.isAligned = true ∧
        call.isMapped m.platform = false := by
  cases h with
  | unfetched i hi hunmapped hfirst hinsn => simp [access?_of_unfetched hinsn]
  | unaligned hmapped call haccess hal => simp [haccess, hal]
  | denied hmapped call haccess hal hunmapped =>
      exact iff_of_true ⟨_, rfl⟩ ⟨call, haccess, hal, hunmapped⟩
  | answered hmapped hinsn hdata => simpa using fun call h _ => (hdata call h).2

/-- The fault of an access tells the address that the reference of the instruction resolves to. -/
theorem resolved {fault : MemFault} (h : m.CallsEnd (some fault))
    (hdata : fault.cause ≠ .fetchViolation) :
    ∃ insn mem, m.insn? = some insn ∧ insn.memRef? = some mem ∧
      mem.resolve m.state.regs = .ok fault.addr := by
  cases h with
  | unfetched => exact absurd rfl hdata
  | unaligned hmapped call haccess => exact resolved_of_access? haccess
  | denied hmapped call haccess => exact resolved_of_access? haccess

theorem of_unfetched (h : m.CallsEnd fault?) (hinsn : m.insn? = none) :
    ∃ addr, fault? = some ⟨.fetchViolation, addr⟩ := by
  have haccess := access?_of_unfetched hinsn
  cases h with
  | unfetched => exact ⟨_, rfl⟩
  | unaligned hmapped call hcall => cases hcall.symm.trans haccess
  | denied hmapped call hcall => cases hcall.symm.trans haccess
  | answered hmapped hsome => exact absurd hinsn hsome

/-- Every fault of a call is a memory fault. -/
theorem isMemory {fault : MemFault} (h : m.CallsEnd (some fault)) :
    fault.cause.isMemory = true := by
  cases h <;> rfl

end CallsEnd

/-- What a step leaves as cause and address is the fault of the calls of its instruction, and if
they have none, it has nothing to do with memory. -/
theorem step_memFault (hr : m.platform.bus.devices = [.ram r]) (host : Host σ) (h : σ) :
    let s := (m.step host h).machine.state
    match m.memFault? with
    | some fault => s.cause = fault.cause ∧ s.faultAddr = some fault.addr
    | none => s.cause.isMemory = false ∧ s.faultAddr = none := by
  intro s
  have hends := calls_end hr
  have hraised := m.raised_memFault
  have haddr : s.faultAddr = m.raisedAddr := m.step_faultAddr host h
  cases hfault : m.memFault? with
  | none =>
      rw [hfault] at hraised
      refine ⟨?_, haddr.trans hraised.2⟩
      rcases m.step_cause host h with hcause | ⟨-, hcause⟩
      · rw [hcause]
        exact hraised.1
      · rw [hcause]
        rfl
  | some fault =>
      rw [hfault] at hraised hends
      refine ⟨?_, haddr.trans hraised.2⟩
      rcases m.step_cause host h with hcause | ⟨hnone, -⟩
      · exact hcause.trans hraised.1
      · rw [hraised.1] at hnone
        cases hends <;> cases hnone

/-- A step leaves the cause of a memory fault exactly if that is the fault of its calls. -/
theorem step_cause_iff (hr : m.platform.bus.devices = [.ram r]) {cause : Cause}
    (hcause : cause.isMemory = true) (host : Host σ) (h : σ) :
    (m.step host h).machine.state.cause = cause ↔ ∃ addr, m.memFault? = some ⟨cause, addr⟩ := by
  have hs := step_memFault hr host h
  cases hfault : m.memFault? with
  | none =>
      rw [hfault] at hs
      refine iff_of_false (fun heq => ?_) nofun
      rw [← heq, hs.1] at hcause
      cases hcause
  | some fault =>
      rw [hfault] at hs
      rw [hs.1]
      exact ⟨fun heq => ⟨fault.addr, heq ▸ rfl⟩, fun ⟨addr, heq⟩ => by rw [Option.some.inj heq]⟩

theorem step_addr_of_memFault? (hr : m.platform.bus.devices = [.ram r]) {fault : MemFault}
    (hfault : m.memFault? = some fault) (host : Host σ) (h : σ) :
    (m.step host h).machine.state.faultAddr = some fault.addr := by
  have hs := step_memFault hr host h
  rw [hfault] at hs
  exact hs.2

/-- On a model with nothing but memory, the cause that a step leaves tells what failed. It is the
violation of a fetch exactly if one of the halfwords that the length rule asks for is denied or not
there, and the address is that of the first such halfword. It is an unaligned access exactly if the
instruction could be fetched and its data access is not aligned, wherever that points, and the
violation of a data access exactly if that is aligned but denied or not there; in both the address
is the one that the reference of the instruction resolves to. What cannot be fetched is never
unaligned, and no other cause comes with an address. -/
theorem fault_exact {c : Config} {base : Word} (hm : c.Describes base m)
    (hc : c.model ≠ .peripheral) (host : Host σ) (h : σ) :
    let s := (m.step host h).machine.state
    (s.cause = .fetchViolation ↔
        ∃ i < m.halfwords, (m.halfCall i).isMapped m.platform = false) ∧
      (∀ i < m.halfwords, (m.halfCall i).isMapped m.platform = false →
        (∀ j < i, (m.halfCall j).isMapped m.platform = true) →
        s.faultAddr = some (m.state.pc.even + BitVec.ofNat 32 (2 * i))) ∧
      (s.cause = .unaligned ↔ ∃ call, m.access? = some call ∧ call.isAligned = false) ∧
      (s.cause = .memoryViolation ↔
        ∃ call, m.access? = some call ∧ call.isAligned = true ∧
          call.isMapped m.platform = false) ∧
      (s.cause = .unaligned ∨ s.cause = .memoryViolation →
        ∃ insn mem addr, m.insn? = some insn ∧ insn.memRef? = some mem ∧
          mem.resolve m.state.regs = .ok addr ∧ s.faultAddr = some addr) ∧
      (m.insn? = none → s.cause = .fetchViolation) ∧
      (s.cause.isMemory = false → s.faultAddr = none) := by
  intro s
  obtain ⟨r, hr⟩ := hm.memory hc
  have hends := calls_end hr
  have hdata : ∀ {cause : Cause}, cause.isMemory = true → cause ≠ .fetchViolation →
      s.cause = cause → ∃ insn mem addr, m.insn? = some insn ∧ insn.memRef? = some mem ∧
        mem.resolve m.state.regs = .ok addr ∧ s.faultAddr = some addr := by
    intro cause hmemory hne hcause
    obtain ⟨addr, hfault⟩ := (step_cause_iff hr hmemory host h).mp hcause
    obtain ⟨insn, mem, hinsn, hmem, hres⟩ := CallsEnd.resolved (hfault ▸ hends) hne
    exact ⟨insn, mem, addr, hinsn, hmem, hres, step_addr_of_memFault? hr hfault host h⟩
  refine ⟨(step_cause_iff hr rfl host h).trans hends.fetch_iff, ?_,
    (step_cause_iff hr rfl host h).trans hends.unaligned_iff,
    (step_cause_iff hr rfl host h).trans hends.denied_iff, ?_, ?_, ?_⟩
  · intro i hi hunmapped hfirst
    exact step_addr_of_memFault? hr (hends.first hi hunmapped hfirst) host h
  · rintro (hcause | hcause)
    · exact hdata rfl (by decide) hcause
    · exact hdata rfl (by decide) hcause
  · intro hinsn
    exact (step_cause_iff hr rfl host h).mpr (hends.of_unfetched hinsn)
  · intro hcause
    have hs := step_memFault hr host h
    cases hfault : m.memFault? with
    | none =>
        rw [hfault] at hs
        exact hs.2
    | some fault =>
        rw [hfault] at hs hends
        have hmemory := hends.isMemory
        rw [← hs.1] at hmemory
        cases hmemory.symm.trans hcause

/-- A task at the last halfword of its instruction window, about to load a word of two halfwords:
the second one is denied. -/
def cutOff : Machine where
  state := { tpc := 1022 }
  platform :=
    { model := .windowed
      inst := ⟨0, 0⟩
      bus := { devices := [.ram (Ram.setBytes ⟨0, 4096, ∅⟩ 1022 [0x04, 0x0f, 0x12, 0x00])] } }
  environment := .operating

/-- A task with windows of one page, about to load a word from an address. -/
def reaching (addr : Word) : Machine where
  state := {}
  platform :=
    { model := .windowed
      inst := ⟨0, 0⟩
      data := ⟨0, 0⟩
      bus := { devices :=
        [.ram (Ram.setBytes ⟨0, 4096, ∅⟩ 0 ([0xf5, 0xfa] ++ bytesOfNat 4 addr.toNat))] } }
  environment := .operating

/-- The first word behind the window is denied, and one that is not aligned is not asked for. -/
theorem fault_exact_cutOff :
    let c : Config := { environment := .operating, model := .windowed, ramSize := 4096 }
    let left := fun m : Machine => (m.step Host.noting none).machine.state
    c.Describes 0 cutOff ∧ (∀ addr, c.Describes 0 (reaching addr)) ∧ c.model ≠ .peripheral ∧
      cutOff.halfwords = 2 ∧
      (left cutOff).cause = .fetchViolation ∧ (left cutOff).faultAddr = some 1024 ∧
      (left (reaching 1026)).cause = .unaligned ∧
      (left (reaching 1026)).faultAddr = some 1026 ∧
      (left (reaching 1024)).cause = .memoryViolation ∧
      (left (reaching 1024)).faultAddr = some 1024 := by
  intro c left
  have hcut : c.Describes 0 cutOff := ⟨rfl, rfl, rfl⟩
  have hreach : ∀ addr, c.Describes 0 (reaching addr) := fun addr => ⟨rfl, rfl, rfl⟩
  have hc : c.model ≠ .peripheral := by decide
  obtain ⟨hfetch, hhalf, -⟩ := fault_exact hcut hc Host.noting none
  obtain ⟨-, -, hunaligned, -, hodd, -⟩ := fault_exact (hreach 1026) hc Host.noting none
  obtain ⟨-, -, -, hdenied, hbehind, -⟩ := fault_exact (hreach 1024) hc Host.noting none
  have hlen : cutOff.halfwords = 2 := by decide +kernel
  have hlast : (cutOff.halfCall 1).isMapped cutOff.platform = false := by decide +kernel
  have hfirst : ∀ j < 1, (cutOff.halfCall j).isMapped cutOff.platform = true := by decide +kernel
  have hunalignedCause : (left (reaching 1026)).cause = .unaligned :=
    hunaligned.mpr ⟨.read .task 1026 .word, by decide +kernel, rfl⟩
  have hdeniedCause : (left (reaching 1024)).cause = .memoryViolation :=
    hdenied.mpr ⟨.read .task 1024 .word, by decide +kernel, rfl, by decide +kernel⟩
  have htold : ∀ addr : Word, (reaching addr).insn? =
      some (.memory (.load .word false) 5 (.ofAddress addr)) →
      (∃ insn mem a, (reaching addr).insn? = some insn ∧ insn.memRef? = some mem ∧
        mem.resolve (reaching addr).state.regs = .ok a ∧
        (left (reaching addr)).faultAddr = some a) →
      (left (reaching addr)).faultAddr = some addr := by
    rintro addr hload ⟨insn, mem, a, hinsn, hmem, hres, ha⟩
    cases hinsn.symm.trans hload
    cases hmem
    cases hres
    exact ha.trans (congrArg some (BitVec.zero_add addr))
  exact ⟨hcut, hreach, hc, hlen, hfetch.mpr ⟨1, by omega, hlast⟩,
    hhalf 1 (by omega) hlast hfirst,
    hunalignedCause, htold 1026 (by decide +kernel) (hodd (.inl hunalignedCause)),
    hdeniedCause, htold 1024 (by decide +kernel) (hbehind (.inr hdeniedCause))⟩

end Machine

end TypedCore
