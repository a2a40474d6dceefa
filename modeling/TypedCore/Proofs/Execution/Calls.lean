import TypedCore.Proofs.Execution.Tally
import TypedCore.Proofs.Memory.Script

/-!
# What a step asks of memory

A step calls the memory interface in three places: it fetches, its instruction
makes one access or none, and the host copies the arguments and the results of a
system call. `Machine.calls` lists these calls in order.

That there are no others is said by how each part depends on the platform. What is
fetched is the run of a script, and so is the reaction to a cause
(`State.respond_eq`); an instruction is a function of the answer to its access
(`Insn.execute_access`), or of nothing behind the interface
(`Insn.execute_apart`).
-/

namespace TypedCore

/-- A platform without memory and devices. -/
def Platform.nowhere : Platform := { model := .generic, bus := {} }

/-! ## Instructions -/

/-- Whether a call is all that a computation of effects looks at behind the interface. -/
def MemCall.Decides (call : MemCall) (f : Platform → Effects × Platform) : Prop :=
  ∃ after : Except MemFault (Option Word) → Effects,
    ∀ p, f p = (after (call.perform p).1, (call.perform p).2)

namespace MemCall.Decides

theorem loadThen (mode : Mode) (addr : Word) (width : Width) (use : Word → Effects) :
    (MemCall.read mode addr width).Decides fun p => p.loadThen mode addr width use := by
  refine ⟨fun answer => match answer with
    | .ok v => { use (v.getD 0) with record := some ⟨addr, width, false, v.getD 0⟩ }
    | .error fault => .fault fault, fun p => ?_⟩
  simp only [Platform.loadThen, perform]
  obtain ⟨_ | v, q⟩ := p.read mode addr width <;> rfl

theorem storeLow (mode : Mode) (addr : Word) (width : Width) (value : Word) :
    (MemCall.write mode addr width (width.truncate value)).Decides
      fun p => p.storeLow mode addr width value := by
  refine ⟨fun answer => match answer with
    | .ok _ => { record := some ⟨addr, width, true, width.truncate value⟩ }
    | .error fault => .fault fault, fun p => ?_⟩
  simp only [Platform.storeLow, perform]
  obtain ⟨_ | _, q⟩ := p.write mode addr width (width.truncate value) <;> rfl

end MemCall.Decides

namespace Insn

/-- The access to memory that an instruction makes in a state. -/
def access? (insn : Insn) (s : State) : Option MemCall :=
  let at? (mem : MemRef) (call : Word → MemCall) : Option MemCall :=
    (mem.resolve s.regs).toOption.map call
  match insn with
  | memory op reg mem =>
    let value := (s.regs.read reg).value
    match op with
    | .load width _ => at? mem fun addr => .read s.mode addr width
    | .loadLinked => at? mem fun addr => .read s.mode addr .word
    | .store width => at? mem fun addr => .write s.mode addr width (width.truncate value)
    | .storeConditional =>
      at? mem fun addr => .write s.mode addr .word (Width.truncate .word value)
  | jumpMem _ mem | loadTypesMem _ mem => at? mem fun addr => .read s.mode addr .word
  | storeTypesMem half mem =>
    at? mem fun addr => .write s.mode addr .word (Width.truncate .word (packTypes s.regs half))
  | _ => none

variable {insn : Insn} {s : State} {call : MemCall}

/-- Without an access, an instruction does not look at the platform. -/
theorem execute_apart (h : insn.access? s = none) :
    ∃ result : Except HostFault Effects, ∀ p, insn.execute s p = result.map fun e => (e, p) := by
  have hresolve : ∀ {mem : MemRef} {call : Word → MemCall},
      (mem.resolve s.regs).toOption.map call = none → ∃ e, mem.resolve s.regs = .error e := by
    intro mem call h
    cases hres : mem.resolve s.regs with
    | error e => exact ⟨e, rfl⟩
    | ok addr => rw [hres] at h; cases h
  refine ⟨(insn.execute s .nowhere).map Prod.fst, fun p => ?_⟩
  cases insn with
  | memory op reg mem =>
      have hmem : ∃ e, mem.resolve s.regs = .error e := by
        cases op <;> exact hresolve h
      obtain ⟨e, he⟩ := hmem
      simp [execute, executeMemory, he, bind, Except.bind, Except.map]
  | jumpMem target mem =>
      obtain ⟨e, he⟩ := hresolve h
      simp [execute, he, bind, Except.bind, Except.map]
  | loadTypesMem half mem =>
      obtain ⟨e, he⟩ := hresolve h
      simp [execute, he, bind, Except.bind, Except.map]
  | storeTypesMem half mem =>
      obtain ⟨e, he⟩ := hresolve h
      simp [execute, he, bind, Except.bind, Except.map]
  | _ => rfl

/-- With an access, an instruction is a function of the answer to it. -/
theorem execute_access (h : insn.access? s = some call) :
    ∃ f, call.Decides f ∧ ∀ p, insn.execute s p = .ok (f p) := by
  have hresolve : ∀ {mem : MemRef} {call' : Word → MemCall},
      (mem.resolve s.regs).toOption.map call' = some call →
      ∃ addr, mem.resolve s.regs = .ok addr ∧ call' addr = call := by
    intro mem call' h
    obtain ⟨addr, haddr, rfl⟩ := Option.map_eq_some_iff.mp h
    cases hres : mem.resolve s.regs with
    | error e => rw [hres] at haddr; cases haddr
    | ok addr' => rw [hres] at haddr; cases haddr; exact ⟨addr, rfl, rfl⟩
  cases insn with
  | memory op reg mem =>
      cases op with
      | load width signed =>
          obtain ⟨addr, hres, rfl⟩ := hresolve h
          exact ⟨_, .loadThen s.mode addr width
            (fun v => .write reg ⟨width.extend signed v, (s.regs.read reg).type⟩),
            fun p => by simp only [execute, executeMemory, hres]; rfl⟩
      | loadLinked =>
          obtain ⟨addr, hres, rfl⟩ := hresolve h
          exact ⟨_, .loadThen s.mode addr .word
            (fun v => .write reg ⟨v, (s.regs.read reg).type⟩),
            fun p => by simp only [execute, executeMemory, hres]; rfl⟩
      | store width =>
          obtain ⟨addr, hres, rfl⟩ := hresolve h
          exact ⟨_, .storeLow s.mode addr width (s.regs.read reg).value,
            fun p => by simp only [execute, executeMemory, hres]; rfl⟩
      | storeConditional =>
          obtain ⟨addr, hres, rfl⟩ := hresolve h
          exact ⟨_, .storeLow s.mode addr .word (s.regs.read reg).value,
            fun p => by simp only [execute, executeMemory, hres]; rfl⟩
  | jumpMem target mem =>
      obtain ⟨addr, hres, rfl⟩ := hresolve h
      exact ⟨_, .loadThen s.mode addr .word (fun v => .jump target v),
        fun p => by simp only [execute, hres]; rfl⟩
  | loadTypesMem half mem =>
      obtain ⟨addr, hres, rfl⟩ := hresolve h
      exact ⟨_, .loadThen s.mode addr .word (fun v => TypedCore.loadTypes s.regs half v),
        fun p => by simp only [execute, hres]; rfl⟩
  | storeTypesMem half mem =>
      obtain ⟨addr, hres, rfl⟩ := hresolve h
      exact ⟨_, .storeLow s.mode addr .word (packTypes s.regs half),
        fun p => by simp only [execute, hres]; rfl⟩
  | _ => cases h

end Insn

/-! ## System calls -/

variable {σ : Type}

/-- A script that does what a system call did with platform and host. The host is part of the
value: a script only keeps the platform to itself. -/
def Script.Gives {α : Type} (s : Script (α × σ)) (p : Platform) (r : α × Platform × σ) : Prop :=
  s.run p = ((r.1, r.2.2), r.2.1)

namespace Script

def withPath (addr : Word) (h : σ) (ask : List Byte → SyscallReply × σ) :
    Script (SyscallReply × σ) := do
  match ← readPath addr with
  | some path => pure (ask path)
  | none => pure (.refused .badAddress, h)

def serviceRead (host : Host σ) (args : SyscallArgs) (h : σ) : Script (SyscallReply × σ) :=
  if maxTransfer < args.third.toNat then pure (.refused .badAddress, h)
  else
    match host.answer (.read args.first.toInt args.third.toNat) h with
    | (.error errno, h) => pure (.error errno, h)
    | (.ok data, h) =>
      if args.third.toNat < data.length then pure (.refused .badAddress, h)
      else do
        match ← writeBytes args.second data with
        | .ok () => pure (.value (BitVec.ofNat 32 data.length), h)
        | .error _ => pure (.refused .badAddress, h)

def serviceWrite (host : Host σ) (args : SyscallArgs) (h : σ) : Script (SyscallReply × σ) :=
  if maxTransfer < args.third.toNat then pure (.refused .badAddress, h)
  else do
    match ← readBytesOnto [] args.third.toNat args.second with
    | .error _ => pure (.refused .badAddress, h)
    | .ok data => pure (host.pass (.write args.first.toInt data) h id)

def serviceLink (host : Host σ) (args : SyscallArgs) (h : σ) : Script (SyscallReply × σ) := do
  let old ← readPath args.first
  let new ← readPath args.second
  match old, new with
  | some old, some new => pure (host.pass (.link old new) h id)
  | _, _ => pure (.refused .badAddress, h)

def serviceTime (host : Host σ) (args : SyscallArgs) (h : σ) : Script (SyscallReply × σ) :=
  match host.pass .time h id with
  | (.value now, h) =>
    if args.first = 0 then pure (.value now, h)
    else do
      match ← write .task args.first .word now with
      | .ok () => pure (.value now, h)
      | .error _ => pure (.refused .badAddress, h)
  | (reply, h) => pure (reply, h)

def service (host : Host σ) (call : Option Syscall) (args : SyscallArgs) (h : σ) :
    Script (Except HostFault SyscallReply × σ) :=
  let reply (s : Script (SyscallReply × σ)) : Script (Except HostFault SyscallReply × σ) :=
    s >>= fun r => pure (.ok r.1, r.2)
  match call with
  | some .openFile =>
    reply <| withPath args.first h fun path =>
      host.pass (.openFile path (hostOpenFlags args.second) args.third) h id
  | some .read => reply (serviceRead host args h)
  | some .write => reply (serviceWrite host args h)
  | some .unlink => reply <| withPath args.first h fun path => host.pass (.unlink path) h id
  | some .changeDir => reply <| withPath args.first h fun path => host.pass (.changeDir path) h id
  | some .changeMode =>
    reply <| withPath args.first h fun path => host.pass (.changeMode path args.second) h id
  | some .link => reply (serviceLink host args h)
  | some .time => reply (serviceTime host args h)
  -- The other calls do not look at memory.
  | call =>
    let r := Platform.nowhere.service host call args h
    pure (r.1, r.2.2)

variable (host : Host σ) (args : SyscallArgs) (h : σ) (p : Platform)

theorem gives_withPath (addr : Word) (ask : List Byte → SyscallReply × σ) :
    (withPath addr h ask).Gives p (p.withPath addr h ask) := by
  unfold Gives
  unfold withPath Platform.withPath
  rw [run_bind, run_readPath]
  obtain ⟨_ | path, q⟩ := p.readPath addr <;> rfl

theorem gives_serviceRead :
    (serviceRead host args h).Gives p (p.serviceRead host args h) := by
  unfold Gives
  unfold serviceRead Platform.serviceRead
  split
  · rfl
  · obtain ⟨_ | data, h'⟩ := host.answer (.read args.first.toInt args.third.toNat) h
    · rfl
    · dsimp only
      split
      · rfl
      · rw [run_bind, run_writeBytes]
        obtain ⟨_ | _, q⟩ := p.writeBytes args.second data <;> rfl

theorem gives_serviceWrite :
    (serviceWrite host args h).Gives p (p.serviceWrite host args h) := by
  unfold Gives
  unfold serviceWrite Platform.serviceWrite Platform.readBytes
  split
  · rfl
  · rw [run_bind, run_readBytesOnto]
    obtain ⟨_ | data, q⟩ := Platform.readBytesOnto [] args.third.toNat args.second p <;> rfl

theorem gives_serviceLink :
    (serviceLink host args h).Gives p (p.serviceLink host args h) := by
  unfold Gives
  unfold serviceLink Platform.serviceLink
  rw [run_bind, run_readPath, run_bind, run_readPath]
  obtain ⟨old, q⟩ := p.readPath args.first
  dsimp only
  obtain ⟨new, q'⟩ := q.readPath args.second
  cases old <;> cases new <;> rfl

theorem gives_serviceTime :
    (serviceTime host args h).Gives p (p.serviceTime host args h) := by
  unfold Gives
  unfold serviceTime Platform.serviceTime
  obtain ⟨now | _ | _, h'⟩ := host.pass .time h id
  · dsimp only
    split
    · rfl
    · rw [run_bind, run_write]
      obtain ⟨_ | _, q⟩ := p.write .task args.first .word now <;> rfl
  · rfl
  · rfl

theorem Gives.reply {s : Script (SyscallReply × σ)} {p : Platform}
    {r : SyscallReply × Platform × σ} (hs : s.Gives p r) :
    (s >>= fun r => pure (Except.ok (ε := HostFault) r.1, r.2)).Gives p (.ok r.1, r.2) := by
  unfold Gives at hs ⊢
  rw [run_bind, hs]
  rfl

theorem gives_service (call : Option Syscall) :
    (service host call args h).Gives p (p.service host call args h) := by
  cases call with
  | none => rfl
  | some call =>
      cases call with
      | openFile => exact (gives_withPath h p _ _).reply
      | read => exact (gives_serviceRead host args h p).reply
      | write => exact (gives_serviceWrite host args h p).reply
      | unlink => exact (gives_withPath h p _ _).reply
      | changeDir => exact (gives_withPath h p _ _).reply
      | changeMode => exact (gives_withPath h p _ _).reply
      | link => exact (gives_serviceLink host args h p).reply
      | time => exact (gives_serviceTime host args h p).reply
      | close =>
          unfold Gives service Platform.service
          dsimp only
          split <;> rfl
      | isTerminal =>
          unfold Gives service Platform.service
          dsimp only
          obtain ⟨_ | _ | _, h'⟩ := host.pass (.isTerminal args.first.toInt) h id <;> rfl
      | _ => rfl

end Script

/-- The write of a failed call's error number, if it gets that far. -/
def SyscallReply.errorWrite? (s : State) : SyscallReply → Option MemCall
  | failed ret errno =>
    match s.writeReg resultReg (.int ret) with
    | .error _ => none
    | .ok s =>
      let addr := (s.regs.read errorReg).value
      if addr.toNat % 4 ≠ 0 ∨ addr = 0 then none
      else some (.write .task addr .word (BitVec.ofInt 32 errno))
  | _ => none

/-- A reaction without the platform it leaves. -/
def Response.apart (r : Response σ) : Except HostFault (Option Halt) × State × σ :=
  (r.result, r.state, r.host)

namespace Script

/-- Nothing depends on whether the error number could be written. -/
def deliver (s : State) (reply : SyscallReply) (h : σ) :
    Script (Except HostFault (Option Halt) × State × σ) :=
  let r := (s.delivered .nowhere reply h).apart
  match reply.errorWrite? s with
  | some c => .call c fun _ => pure r
  | none => pure r

def syscall (s : State) (host : Host σ) (h : σ) :
    Script (Except HostFault (Option Halt) × State × σ) := do
  match ← fetchHalf .task (s.tpc.even + 2) with
  | .error fault => pure (.ok (some (.bySignal fault.cause.signal)), s, h)
  | .ok number =>
    let behind := { s with nextTpc := s.tpc.even + 4 }
    match ← service host (Syscall.ofNumber? number.toNat) s.callArgs h with
    | (.error e, h) => pure (.error e, behind, h)
    | (.ok reply, h) => deliver behind reply h

/-- Only a system call that the host services involves the platform. -/
def respond (s : State) (environment : Environment) (host : Host σ) (h : σ) :
    Script (Except HostFault (Option Halt) × State × σ) :=
  if environment.isUser ∧ s.cause = .syscall then syscall s host h
  else pure (s.respond environment .nowhere host h).apart

variable (s : State) (p : Platform) (host : Host σ) (h : σ)

theorem run_deliver (reply : SyscallReply) :
    (deliver s reply h).run p =
      ((s.delivered p reply h).apart, (s.delivered p reply h).platform) := by
  unfold deliver SyscallReply.errorWrite? State.delivered State.deliver
  cases reply with
  | value v => cases s.writeReg resultReg (.int v) <;> rfl
  | halt x => rfl
  | failed ret errno =>
      dsimp only
      cases s.writeReg resultReg (.int ret) with
      | error e => rfl
      | ok t =>
          simp only [bind, Except.bind, pure, Except.pure]
          by_cases hodd : (t.regs.read errorReg).value.toNat % 4 ≠ 0
          · simp only [if_pos hodd, if_pos (Or.inl hodd)]
            rfl
          · by_cases hzero : (t.regs.read errorReg).value = 0
            · simp only [if_neg hodd, if_pos hzero, if_pos (Or.inr hzero)]
              rfl
            · simp only [if_neg hodd, if_neg hzero, if_neg (not_or.mpr ⟨hodd, hzero⟩)]
              rfl

theorem run_syscall :
    (syscall s host h).run p = ((s.syscall p host h).apart, (s.syscall p host h).platform) := by
  unfold syscall
  rw [run_bind, run_fetchHalf]
  cases hf : p.fetchHalf .task (s.tpc.even + 2) with
  | mk fetched q =>
      cases fetched with
      | error fault =>
          rw [State.syscall_unfetched hf]
          rfl
      | ok number =>
          rw [State.syscall_fetched hf]
          dsimp only
          rw [run_bind, gives_service host s.callArgs h q (Syscall.ofNumber? number.toNat)]
          obtain ⟨_ | reply, q', h'⟩ :=
            q.service host (Syscall.ofNumber? number.toNat) s.callArgs h
          · rfl
          · exact run_deliver _ q' h' reply

theorem run_respond (environment : Environment) :
    (respond s environment host h).run p =
      ((s.respond environment p host h).apart, (s.respond environment p host h).platform) := by
  unfold respond
  by_cases hcall : environment.isUser = true ∧ s.cause = .syscall
  · rw [if_pos hcall, State.respond_syscall hcall.1 hcall.2, run_syscall]
  · rw [if_neg hcall, run_pure]
    unfold State.respond
    split
    · rename_i hu
      rw [if_neg fun hc => hcall ⟨hu, hc⟩, if_neg fun hc => hcall ⟨hu, hc⟩]
      rfl
    · cases s.mode <;> rfl

end Script

/-! ## Steps -/

namespace Machine

/-- The calls of the memory interface that the next step makes, in order. -/
def calls (m : Machine) (host : Host σ) (h : σ) : List MemCall :=
  (Script.fetch m.state.mode m.state.pc.even).calls m.platform ++
    (m.insn?.bind fun insn => insn.access? m.begun).toList ++
    match m.attempt with
    | .ok (effects, p) =>
      if effects.cause.isRaised then
        (Script.respond (m.raisedState effects) m.environment host h).calls p
      else []
    | .error _ => []

end Machine

end TypedCore
