import TypedCore.Cause
import TypedCore.Device.Console
import TypedCore.Device.Gpio
import TypedCore.Device.Ram

/-!
# Devices

What can be attached to the bus. A device owns a range of physical
addresses and takes reads and writes at an offset into it. An access that
it does not take leaves it as it was.
-/

namespace TypedCore

/-- A device on the bus. -/
inductive Device where
  | ram (r : Ram)
  | console (c : Console)
  | gpio (g : Gpio)

namespace Device

def name : Device → String
  | ram _ => "RAM"
  | console _ => "CONSOLE"
  | gpio _ => "GPIO"

def isRam : Device → Bool
  | ram _ => true
  | _ => false

def base : Device → Word
  | ram r => r.base
  | console c => c.base
  | gpio g => g.base

/-- How many addresses belong to a device. -/
def size : Device → Nat
  | ram r => r.size
  | console _ => Console.size
  | gpio _ => 1

/-- Whether `len` bytes from an address on all belong to a device. -/
def covers (d : Device) (addr : Word) (len : Nat) : Bool :=
  decide (d.base.toNat ≤ addr.toNat ∧ addr.toNat + len ≤ d.base.toNat + d.size)

def read (d : Device) (offset len : Nat) : Option (List Byte × Device) :=
  match d with
  | ram r => (r.read offset len).map fun bytes => (bytes, d)
  | console c => (c.read offset len).map fun (bytes, c) => (bytes, console c)
  | gpio _ => (Gpio.read offset len).map fun bytes => (bytes, d)

/-- Writes bytes at an offset, and says what a console transmitted. -/
def write (d : Device) (offset : Nat) (data : List Byte) : Option (Device × List Byte) :=
  match d with
  | ram r => (r.write offset data).map fun r => (ram r, [])
  | console c => (c.write offset data).map fun (c, sent) => (console c, sent)
  | gpio g => (g.write offset data).map fun g => (gpio g, [])

/-- The halt that a device asks for, and the device once that is collected. -/
def takeExit? : Device → Option (Halt × Device)
  | gpio g => g.pending.map fun b => (.exited b.toNat, gpio { g with pending := none })
  | _ => none

end Device

end TypedCore
