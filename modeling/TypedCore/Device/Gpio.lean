import TypedCore.Word

/-!
# General-purpose input and output

A GPIO byte is a device of one address. Reading it tells the program that
it runs in a simulation. Writing it has no effect, unless it is set up to
end the run: then the byte written becomes the exit status.
-/

namespace TypedCore

/-- A GPIO byte. -/
structure Gpio where
  base : Word
  /-- Whether a write ends the run. -/
  terminates : Bool
  /-- The exit status asked for and not yet collected. -/
  pending : Option Byte := none

namespace Gpio

/-- What a GPIO byte reads as: bit 1 marks a software simulation. -/
def simulationFlags : Byte := 2

def read (offset len : Nat) : Option (List Byte) :=
  if offset = 0 ∧ len = 1 then some [simulationFlags] else none

def write (g : Gpio) (offset : Nat) (data : List Byte) : Option Gpio :=
  match offset, data with
  | 0, [b] => some (if g.terminates then { g with pending := some b } else g)
  | _, _ => none

end Gpio

end TypedCore
