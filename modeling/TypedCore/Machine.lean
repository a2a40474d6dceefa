import TypedCore.Config
import TypedCore.Execute
import TypedCore.Profile
import TypedCore.Trace
import TypedCore.Trap

/-!
# The machine

`Machine.step` retires one instruction: fetch and decode, start, execute,
apply the effects, note it in trace and profile, react to a cause, commit,
and look for a halt or an interrupt. An instruction that raises a cause has
no effect of its own; the task's program counter goes back to where it was,
and the reaction may move it again.

A fault of the simulator ends the step where it happens, before anything is
committed. Trace and profile only watch: nothing in a step depends on them.
-/

namespace TypedCore

/-- A machine: the processor, what lies behind its memory interface, and what was noted
about the run. -/
structure Machine where
  state : State
  platform : Platform
  environment : Environment
  /-- The memory access of the last instruction. -/
  record : Option MemRecord := none
  /-- Whether an interrupt waits to be taken. -/
  interruptPending : Bool := false
  profile : Profile := {}
  /-- The lines written so far, the latest first, if the run is traced. -/
  trace : Option (List String) := none

/-- The state after a reset: a user program starts in task mode, anything else in
scheduler mode. -/
def State.initial (environment : Environment) : State :=
  ({} : State).setMode (.ofTaskFlag environment.isUser)

/-! ## Fetching -/

namespace Platform

/-- Fetches the extension that follows the word of an instruction of a given length. -/
def fetchExtension (p : Platform) (mode : Mode) (pc : Word) (len : Nat) :
    Except MemFault Word × Platform :=
  match len with
  | 2 => (.ok 0, p)
  | 4 =>
    match p.fetchHalf mode (pc + 2) with
    | (.ok low, p) => (.ok (low.setWidth 32), p)
    | (.error fault, p) => (.error fault, p)
  | _ =>
    match p.fetchHalf mode (pc + 2) with
    | (.error fault, p) => (.error fault, p)
    | (.ok low, p) =>
      match p.fetchHalf mode (pc + 4) with
      | (.ok high, p) => (.ok (high ++ low), p)
      | (.error fault, p) => (.error fault, p)

/-- Fetches and decodes the instruction at an address. -/
def fetch (p : Platform) (mode : Mode) (pc : Word) : Except MemFault Decoded × Platform :=
  match p.fetchHalf mode pc with
  | (.error fault, p) => (.error fault, p)
  | (.ok word, p) =>
    match p.fetchExtension mode pc word.insnLength with
    | (.ok ext, p) => (.ok (decode word ext), p)
    | (.error fault, p) => (.error fault, p)

end Platform

/-! ## Applying effects -/

/-- Reads or writes a status register for an instruction. A register that is read
into keeps its type. -/
def CsrAccess.apply (access : CsrAccess) (s : State) (p : Platform) :
    Except HostFault (State × Platform) := do
  match access with
  | .read rd addr =>
    let (value, latch) ← p.readCsr s.latch s.mode addr
    let s ← { s with latch }.writeReg rd ⟨value, (s.regs.read rd).type⟩
    return (s, p)
  | .write addr value =>
    let (p, latch) ← p.writeCsr s.latch addr value
    return ({ s with latch }, p)

/-- Applies the effects of an instruction to the shadow and the registers, or only
notes its cause. -/
def Effects.apply (e : Effects) (s : State) (p : Platform) :
    Except HostFault (State × Platform) := do
  if e.cause.isRaised then return ({ s with cause := e.cause, faultAddr := e.faultAddr }, p)
  let s ← e.writes.foldlM (fun s (i, r) => s.writeReg i r) s
  let s := match e.nextPc with
    | some pc => s.setNextPc pc
    | none => s
  let s := { s with nextTpc := e.nextTpc.getD s.nextTpc, nextMode := e.nextMode.getD s.nextMode }
  -- Where a status register is accessed, nothing came before this.
  match e.csr with
  | some access => access.apply s p
  | none => return (s, p)

/-! ## Steps -/

/-- What a step leaves behind. Without a halt the run goes on. -/
structure StepOutcome (σ : Type) where
  result : Except HostFault (Option Halt)
  machine : Machine
  host : σ

def fetchedText : Option Decoded → Except HostFault String
  | some d => d.text
  | none => .ok "<fetch fault>"

/-- The class and length that what was fetched counts under. -/
def fetchedClass : Option Decoded → InsnClass × Nat
  | some d => (d.insn.insnClass, d.len)
  | none => (.unknown, 2)

namespace Machine

variable {σ : Type}

/-- A machine after a reset. -/
def ofPlatform (p : Platform) (environment : Environment) : Machine :=
  { state := .initial environment, platform := p.reset, environment }

/-- The machine that a configuration describes, with a given platform. -/
def ofConfig (c : Config) (p : Platform) : Machine :=
  { ofPlatform p c.environment with trace := if c.trace then some [] else none }

/-- Resets the processor and the platform. What was noted about the run stays. -/
def reset (m : Machine) : Machine :=
  { m with
    state := .initial m.environment
    platform := m.platform.reset
    record := none
    interruptPending := false }

/-- Starts a trace, or drops the lines of the one there is. -/
def startTrace (m : Machine) : Machine := { m with trace := some [] }

def raiseInterrupt (m : Machine) : Machine := { m with interruptPending := true }

/-- Writes the line of an instruction to the trace, if there is one. -/
def traced (m : Machine) (fetched : Option Decoded) (begun : State) :
    Except HostFault Machine := do
  match m.trace with
  | none => return m
  | some lines =>
    let entry : TraceEntry :=
      { mode := begun.mode, pc := begun.pc.even, text := ← fetchedText fetched
        begun, after := m.state, record := m.record }
    return { m with trace := some (entry.line :: lines) }

def counted (m : Machine) (fetched : Option Decoded) : Machine :=
  let (c, len) := fetchedClass fetched
  { m with profile := m.profile.record c len m.state.mode }

def exceptionCounted (m : Machine) : Machine :=
  let serviced := m.state.cause == .syscall && m.environment.isUser
  { m with
    profile := { m.profile with
      exceptions := m.profile.exceptions + 1
      syscalls := m.profile.syscalls + serviced.toNat } }

/-- Reacts to a cause, if one was raised. The task's program counter is first put
back to `tpc`, where it was before the instruction. -/
def dispatch (m : Machine) (tpc : Word) (host : Host σ) (h : σ) : StepOutcome σ :=
  if m.state.cause.isRaised then
    let m := { m.exceptionCounted with state := { m.state with nextTpc := tpc } }
    let r := m.state.respond m.environment m.platform host h
    ⟨r.result, { m with state := r.state, platform := r.platform }, r.host⟩
  else ⟨.ok none, m, h⟩

/-- Counts an instruction that left the path it began on. -/
def takenCounted (m : Machine) (begun : State) : Machine :=
  let s := m.state
  if s.nextTpc ≠ begun.nextTpc ∨ s.nextSpc ≠ begun.nextSpc ∨ s.nextMode ≠ begun.nextMode then
    { m with profile := { m.profile with taken := m.profile.taken + 1 } }
  else m

/-- Takes the waiting interrupt, if there is one and it may be taken. -/
def pollInterrupt (m : Machine) : Machine :=
  if m.interruptPending then
    match m.state.takeInterrupt m.environment with
    | some s =>
      { m with
        state := s
        interruptPending := false
        profile := { m.profile with interrupts := m.profile.interrupts + 1 } }
    | none => m
  else m

/-- Commits an instruction. A halt asked for by the reaction comes before one asked
for by a device, and with either there is no interrupt. -/
def finish (m : Machine) (begun : State) (halt : Option Halt) : Option Halt × Machine :=
  let m := m.takenCounted begun
  let m := { m with state := m.state.commit }
  match halt with
  | some halt => (some halt, m)
  | none =>
    match m.platform.bus.takeExit with
    | (some halt, bus) => (some halt, { m with platform := { m.platform with bus } })
    | (none, _) => (none, m.pollInterrupt)

/-- Retires an instruction whose effects are known; the machine is in the state that
the instruction began with, and `tpc` is the task's program counter before it. -/
def retire (m : Machine) (fetched : Option Decoded) (effects : Effects) (tpc : Word)
    (host : Host σ) (h : σ) : StepOutcome σ :=
  let begun := m.state
  let m := { m with record := effects.record }
  match effects.apply begun m.platform with
  | .error e => ⟨.error e, m, h⟩
  | .ok (s, p) =>
    match { m with state := s, platform := p }.traced fetched begun with
    | .error e => ⟨.error e, { m with state := s, platform := p }, h⟩
    | .ok m =>
      let r := (m.counted fetched).dispatch tpc host h
      match r.result with
      | .error e => ⟨.error e, r.machine, r.host⟩
      | .ok halt =>
        let (halt, m) := r.machine.finish begun halt
        ⟨.ok halt, m, r.host⟩

def step (m : Machine) (host : Host σ) (h : σ) : StepOutcome σ :=
  let m := { m with record := none }
  let tpc := m.state.tpc
  match m.platform.fetch m.state.mode m.state.pc.even with
  | (.error fault, p) =>
    -- What cannot be fetched counts as one halfword.
    { m with state := m.state.beginInstruction 2, platform := p }.retire
      none (.fault fault) tpc host h
  | (.ok d, p) =>
    let m := { m with state := m.state.beginInstruction d.len, platform := p }
    match d.insn.execute m.state p with
    | .error e => ⟨.error e, m, h⟩
    | .ok (effects, p) => { m with platform := p }.retire (some d) effects tpc host h

/-- Retires instructions until a halt or a fault of the simulator, but no more than
`n`; without a halt the run can go on. -/
def runFor (host : Host σ) : (n : Nat) → Machine → σ → StepOutcome σ
  | 0, m, h => ⟨.ok none, m, h⟩
  | n + 1, m, h =>
    let r := m.step host h
    match r.result with
    | .ok none => runFor host n r.machine r.host
    | _ => r

end Machine

end TypedCore
