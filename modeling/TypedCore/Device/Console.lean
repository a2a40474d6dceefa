import TypedCore.Word

/-!
# The console

A serial console of five one-byte registers: data, status, two
configuration registers and a clock divider. Received bytes wait in a
queue; reading the data register takes the next one, or gives zero if none
waits. What is written to the data register is transmitted at once. Only
accesses of one byte are understood.
-/

namespace TypedCore

/-- A console. -/
structure Console where
  base : Word
  /-- Bytes received and not yet read. -/
  received : List Byte := []
  config1 : Byte := 0
  config2 : Byte := 0
  divider : Byte := 0

namespace Console

def size : Nat := 5

/-- Queues a byte that arrives. -/
def receive (c : Console) (b : Byte) : Console := { c with received := c.received ++ [b] }

/-- The status register: bit 0 says that a byte waits, bit 1 that the
transmitter is free, as it always is. -/
def status (c : Console) : Byte := if c.received.isEmpty then 2 else 3

def readRegister (c : Console) : Nat → Option (Byte × Console)
  | 0 => some (c.received.headD 0, { c with received := c.received.tail })
  | 1 => some (c.status, c)
  | 2 => some (c.config1, c)
  | 3 => some (c.config2, c)
  | 4 => some (c.divider, c)
  | _ => none

/-- Writes one register, and says what was transmitted. The status register is
read-only. -/
def writeRegister (c : Console) (b : Byte) : Nat → Option (Console × List Byte)
  | 0 => some (c, [b])
  | 2 => some ({ c with config1 := b }, [])
  | 3 => some ({ c with config2 := b }, [])
  | 4 => some ({ c with divider := b }, [])
  | _ => none

/-- Reads `len` bytes: one register, if `len` is 1. -/
def read (c : Console) (offset len : Nat) : Option (List Byte × Console) :=
  if len = 1 then (c.readRegister offset).map fun (b, c) => ([b], c) else none

/-- Writes bytes: one register, if there is one byte. -/
def write (c : Console) (offset : Nat) : List Byte → Option (Console × List Byte)
  | [b] => c.writeRegister b offset
  | _ => none

end Console

end TypedCore
