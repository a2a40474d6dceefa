import TypedCore.Insn.Text
import TypedCore.Platform

/-!
# Effects

What an instruction wants done: register writes, a new value for a program
counter or the mode, an access to a status register, or a cause instead of
all of these. Executing an instruction only computes its effects; the
processor applies them, so an instruction that raises a cause has changed
nothing.
-/

namespace TypedCore

/-- The memory access of an instruction, once it has happened. -/
structure MemRecord where
  addr : Word
  width : Width
  isWrite : Bool
  value : Word
  deriving DecidableEq, Repr

/-- An access in a trace line, the value on the side it went to. -/
def MemRecord.text (r : MemRecord) : String :=
  let place := "mem" ++ Text.dec r.width.bits ++ "[" ++ Text.decHex r.addr.toNat ++ "]"
  let value := Text.signedDec r.value.toInt ++ " (0x" ++ Text.hex r.value.toNat ++ ")"
  if r.isWrite then place ++ " <- " ++ value else value ++ " <- " ++ place

/-- An access to a status register, with the value of the source register if it
is a write. -/
inductive CsrAccess where
  | read (rd : Nat) (addr : Word)
  | write (addr value : Word)
  deriving DecidableEq, Repr

/-- The effects of an instruction. -/
structure Effects where
  /-- Register writes, in order. -/
  writes : List (Nat × TypedWord) := []
  /-- Where the current mode goes on. -/
  nextPc : Option Word := none
  /-- Where task mode goes on. -/
  nextTpc : Option Word := none
  nextMode : Option Mode := none
  /-- The cause raised; with one, nothing else counts. -/
  cause : Cause := .none
  faultAddr : Option Word := none
  csr : Option CsrAccess := none
  /-- The memory access that happened. -/
  record : Option MemRecord := none
  deriving DecidableEq, Repr

namespace Effects

def write (rd : Nat) (r : TypedWord) : Effects := { writes := [(rd, r)] }

def raise (cause : Cause) : Effects := { cause }

def fault (f : MemFault) : Effects := { cause := f.cause, faultAddr := some f.addr }

/-- Goes on elsewhere, in the current mode or in task mode. -/
def jump : PcRef → Word → Effects
  | .active, addr => { nextPc := some addr }
  | .task, addr => { nextTpc := some addr }

/-- Writes the result of an operation, or raises its cause. -/
def ofResult (rd : Nat) : Except Cause TypedWord → Effects
  | .ok r => write rd r
  | .error cause => raise cause

end Effects

end TypedCore
