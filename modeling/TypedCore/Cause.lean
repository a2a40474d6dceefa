import TypedCore.Text
import TypedCore.Word

/-!
# Exception causes and halts

What the guest can observe going wrong is a `Cause`: a plain value that is
latched and handed to the scheduler, or turned into a halt. A `Halt` ends
the run with an exit status or with a signal number.
-/

namespace TypedCore

/-- Why an instruction did not complete. `none` is the cause of an
instruction that did. -/
inductive Cause where
  | none
  | hardwareInterrupt
  | fill
  | breakpoint
  | syscall
  | swi3
  | swi4
  | swi5
  | swi6
  | unknownInstruction
  | type
  | unaligned
  | fetchViolation
  | memoryViolation
  deriving DecidableEq, Repr

namespace Cause

/-- Every cause, in the order of the codes. -/
def all : List Cause :=
  [none, hardwareInterrupt, fill, .breakpoint, syscall, swi3, swi4, swi5, swi6,
    unknownInstruction, type, unaligned, fetchViolation, memoryViolation]

/-- The code a cause has in the cause register. -/
def code : Cause → Nat
  | none => 0x00
  | hardwareInterrupt => 0x10
  | fill => 0x20
  | .breakpoint => 0x21
  | syscall => 0x22
  | swi3 => 0x23
  | swi4 => 0x24
  | swi5 => 0x25
  | swi6 => 0x26
  | unknownInstruction => 0x30
  | type => 0x31
  | unaligned => 0x32
  | fetchViolation => 0x40
  | memoryViolation => 0x41

def ofCode? (c : Nat) : Option Cause := all.find? fun cause => cause.code == c

/-- The cause of `swi n`, for the four levels without a name of their own. -/
def ofSwiLevel? : Nat → Option Cause
  | 3 => some swi3
  | 4 => some swi4
  | 5 => some swi5
  | 6 => some swi6
  | _ => Option.none

def isRaised : Cause → Bool
  | none => false
  | _ => true

def name : Cause → String
  | none => "none"
  | hardwareInterrupt => "hwi"
  | fill => "fill"
  | .breakpoint => "break"
  | syscall => "syscall"
  | swi3 => "swi3"
  | swi4 => "swi4"
  | swi5 => "swi5"
  | swi6 => "swi6"
  | unknownInstruction => "unknown instruction"
  | type => "type error"
  | unaligned => "unaligned access"
  | fetchViolation => "instruction access violation"
  | memoryViolation => "memory access violation"

def text (c : Cause) : String := c.name ++ " (0x" ++ Text.hexPadded 2 c.code ++ ")"

end Cause

/-- The signals that a run without a scheduler ends with. -/
inductive Signal where
  | illegal
  | trap
  | bus
  | segmentation
  deriving DecidableEq, Repr

namespace Signal

def number : Signal → Nat
  | illegal => 4
  | trap => 5
  | bus => 7
  | segmentation => 11

end Signal

/-- The signal that reports a cause where no scheduler can handle it. -/
def Cause.signal : Cause → Signal
  | unknownInstruction | type => .illegal
  | unaligned => .bus
  | fetchViolation | memoryViolation => .segmentation
  | _ => .trap

/-- A memory access that did not happen: why, and the virtual address it was for. -/
structure MemFault where
  cause : Cause
  addr : Word
  deriving DecidableEq, Repr

/-- How a run ends. -/
inductive Halt where
  /-- The guest asked to end with this status. -/
  | exited (status : Int)
  /-- The run was stopped by the signal with this number. -/
  | signalled (signo : Int)
  deriving DecidableEq, Repr

namespace Halt

def bySignal (s : Signal) : Halt := .signalled s.number

/-- The exit code of the simulator: a signal is reported as 128 plus its number. -/
def exitCode : Halt → Int
  | exited status => status
  | signalled signo => 128 + signo

def text : Halt → String
  | exited status => "exited with status " ++ Text.signedDec status
  | signalled signo => "stopped by signal " ++ Text.signedDec signo

end Halt

end TypedCore
