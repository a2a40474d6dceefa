import TypedCore.Device

/-!
# The bus

The bus sends an access of some bytes at a physical address to the device
that owns all of them. Devices are kept in the order of their addresses.
The device that took the last access is tried first and memory second, and
only then the others in order; that is for speed, and tells where ranges
overlap.

Lengths and the sizes of devices are numbers without a bound. On a bus with 32
bits for them, accesses of fewer than `2 ^ 32` bytes go the same way as long as
every device has a size of 32 bits, and no device takes a longer one.
-/

namespace TypedCore

/-- The bus and everything attached to it. -/
structure Bus where
  /-- The devices, by first address. -/
  devices : List Device := []
  /-- The device that took the last access. -/
  last : Nat := 0
  /-- What the consoles have transmitted, in order. -/
  sent : Array Byte := #[]

namespace Bus

/-- Puts a device in its place, after those that start at the same address. -/
def insertDevice (d : Device) : List Device → List Device
  | [] => [d]
  | x :: xs => if d.base.toNat < x.base.toNat then d :: x :: xs else x :: insertDevice d xs

def attach (b : Bus) (d : Device) : Bus :=
  { b with devices := insertDevice d b.devices, last := 0 }

/-- A bus with devices attached one after the other. -/
def ofDevices (ds : List Device) : Bus := ds.foldl attach {}

def names (b : Bus) : List String := b.devices.map Device.name

/-! ## Routing -/

/-- Whether device `i` owns all of `len` bytes at an address. -/
def owns (b : Bus) (addr : Word) (len i : Nat) : Bool :=
  match b.devices[i]? with
  | some d => d.covers addr len
  | none => false

/-- The devices to try before the others: the last one used and memory. -/
def hints (b : Bus) : List Nat := b.last :: (b.devices.findIdx? Device.isRam).toList

/-- The device that takes an access. -/
def route (b : Bus) (addr : Word) (len : Nat) : Option Nat :=
  match b.hints.find? (b.owns addr len) with
  | some i => some i
  | none => b.devices.findIdx? (·.covers addr len)

/-- Whether some device takes an access. Asking counts as use of the device. -/
def isValid (b : Bus) (addr : Word) (len : Nat) : Bool × Bus :=
  match b.route addr len with
  | some i => (true, { b with last := i })
  | none => (false, b)

/-! ## Accesses -/

def readBytes (b : Bus) (addr : Word) (len : Nat) : Option (List Byte) × Bus :=
  match b.route addr len with
  | none => (none, b)
  | some i =>
    match b.devices[i]? with
    | none => (none, b)
    | some d =>
      match d.read (addr.toNat - d.base.toNat) len with
      | some (bytes, d) => (some bytes, { b with devices := b.devices.set i d, last := i })
      -- A device that refuses was used all the same.
      | none => (none, { b with last := i })

/-- Writes bytes at an address, and says whether a device took them. -/
def writeBytes (b : Bus) (addr : Word) (data : List Byte) : Bool × Bus :=
  match b.route addr data.length with
  | none => (false, b)
  | some i =>
    match b.devices[i]? with
    | none => (false, b)
    | some d =>
      match d.write (addr.toNat - d.base.toNat) data with
      | some (d, sent) =>
        (true, { devices := b.devices.set i d, last := i, sent := b.sent ++ sent.toArray })
      | none => (false, { b with last := i })

/-- Reads a number of a given width, its low byte first. -/
def read (b : Bus) (addr : Word) (width : Width) : Option Word × Bus :=
  let (bytes, b) := b.readBytes addr width.bytes
  (bytes.map Word.ofBytes, b)

/-- Writes a number in a given width, its low byte first. -/
def write (b : Bus) (addr : Word) (width : Width) (value : Word) : Bool × Bus :=
  b.writeBytes addr (bytesOfNat width.bytes value.toNat)

/-- Writes bytes one at a time until one is not taken. -/
def writeEach (b : Bus) (addr : Word) : List Byte → Bool × Bus
  | [] => (true, b)
  | byte :: rest =>
    match b.writeBytes addr [byte] with
    | (true, b) => b.writeEach (addr + 1) rest
    | (false, b) => (false, b)

/-- Places a block of bytes: in one piece if a device takes it, else byte by byte. -/
def load (b : Bus) (addr : Word) (data : List Byte) : Bool × Bus :=
  match b.writeBytes addr data with
  | (true, b) => (true, b)
  | (false, b) => b.writeEach addr data

/-- Collects the halt that the first of the devices asks for. -/
def takeExit (b : Bus) : Option Halt × Bus :=
  match b.devices.findIdx? (·.takeExit?.isSome) with
  | none => (none, b)
  | some i =>
    match b.devices[i]?.bind Device.takeExit? with
    | none => (none, b)
    | some (halt, d) => (some halt, { b with devices := b.devices.set i d })

end Bus

end TypedCore
