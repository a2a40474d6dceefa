import TypedCore.Mode
import TypedCore.RegFile

/-!
# The architectural state

Everything an instruction can see or change in the processor itself: the
registers, the two program counters, the mode and the exception latch.

An instruction works on shadow copies of the program counters and of the
mode, which `State.commit` makes current when it is done. A cause raised by
one instruction moves into the latch when the next one begins, so the
latch is what a scheduler reads and writes, and the cause is what the
processor has still to tell it.
-/

namespace TypedCore

/-! ## The exception latch -/

/-- What the status registers say about the latest exception. -/
structure ExceptionLatch where
  ecause : Word := 0
  eaddr : Word := 0
  deriving DecidableEq, Repr

namespace ExceptionLatch

/-- The bit that marks a cause read in task mode. -/
def taskFlag : Word := 0x80000000

/-- Reads a status register that every machine model has; `none` if there is no
such register. Reading the cause clears it. -/
def read (l : ExceptionLatch) (mode : Mode) (addr : Word) :
    Except HostFault (Option (Word × ExceptionLatch)) :=
  match addr.toNat with
  | 0 | 1 => .ok (some (0, l))
  | 2 =>
    let cause := if mode.isTask then l.ecause ||| taskFlag else l.ecause
    .ok (some (cause, { l with ecause := 0 }))
  | 3 => .ok (some (l.eaddr, l))
  | 4 => .error (.unimplemented .floatStatusRegister)
  | _ => .ok none

/-- Writes a status register that every machine model has; `none` if there is no
such register. The identification registers ignore it. -/
def write (l : ExceptionLatch) (addr value : Word) : Except HostFault (Option ExceptionLatch) :=
  match addr.toNat with
  | 0 | 1 => .ok (some l)
  | 2 => .ok (some { l with ecause := value })
  | 3 => .ok (some { l with eaddr := value })
  | 4 => .error (.unimplemented .floatStatusRegister)
  | _ => .ok none

end ExceptionLatch

/-! ## The state -/

/-- The architectural state with its shadow. -/
structure State where
  regs : RegFile := {}
  /-- The scheduler's program counter. -/
  spc : Word := 0
  /-- The task's program counter. -/
  tpc : Word := 0
  mode : Mode := .task
  nextSpc : Word := 0
  nextTpc : Word := 0
  nextMode : Mode := .task
  /-- The cause raised and not yet latched. -/
  cause : Cause := .none
  /-- The address that goes with the cause, if it is a memory fault. -/
  faultAddr : Option Word := none
  latch : ExceptionLatch := {}
  /-- The registers that the current instruction changed. -/
  dirty : BitVec 16 := 0
  deriving DecidableEq, Repr

namespace State

/-! ## Program counters -/

def pc (s : State) : Word :=
  match s.mode with
  | .task => s.tpc
  | .scheduler => s.spc

/-- The shadow of the program counter of the current mode. -/
def nextPc (s : State) : Word :=
  match s.mode with
  | .task => s.nextTpc
  | .scheduler => s.nextSpc

/-- Moves the current mode's program counter, and its shadow. -/
def setPc (s : State) (pc : Word) : State :=
  match s.mode with
  | .task => { s with tpc := pc, nextTpc := pc }
  | .scheduler => { s with spc := pc, nextSpc := pc }

/-- Moves the shadow of the current mode's program counter. -/
def setNextPc (s : State) (pc : Word) : State :=
  match s.mode with
  | .task => { s with nextTpc := pc }
  | .scheduler => { s with nextSpc := pc }

def setMode (s : State) (mode : Mode) : State := { s with mode := mode, nextMode := mode }

/-- Where an instruction of `len` bytes at the program counter ends. -/
def fallThrough (s : State) (len : Nat) : Word := s.pc.even + BitVec.ofNat 32 len

/-! ## The life of an instruction -/

/-- The latch once the pending cause is in it. A cause without an address leaves
the last address alone. -/
def latched (s : State) : ExceptionLatch :=
  if s.cause.isRaised then
    { ecause := BitVec.ofNat 32 s.cause.code, eaddr := s.faultAddr.getD s.latch.eaddr }
  else s.latch

/-- Starts an instruction of `len` bytes: the shadow says what happens if it only
falls through, and the cause of the one before is latched. -/
def beginInstruction (s : State) (len : Nat) : State :=
  { s with
    dirty := 0
    nextTpc := if s.mode = .task then s.fallThrough len else s.tpc
    nextSpc := if s.mode = .scheduler then s.fallThrough len else s.spc
    nextMode := s.mode
    latch := s.latched
    cause := .none
    faultAddr := none }

/-- Writes a register, and marks it if that changed its value or type. -/
def writeReg (s : State) (i : Nat) (r : TypedWord) : Except HostFault State := do
  let (regs, changed) ← s.regs.write i r
  return { s with regs, dirty := if changed then s.dirty ||| 1#16 <<< i else s.dirty }

/-- The marked registers in order. -/
def dirtyRegs (s : State) : List Nat := (List.range 16).filter s.dirty.getLsbD

/-- Makes the shadow current. -/
def commit (s : State) : State :=
  { s with tpc := s.nextTpc, spc := s.nextSpc, mode := s.nextMode }

end State

end TypedCore
