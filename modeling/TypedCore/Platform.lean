import TypedCore.Bus
import TypedCore.State

/-!
# Machine models

A platform is what lies behind the processor's memory interface: the bus, and
the model's rule for turning the address an instruction uses into an
address on the bus. The generic model and the one with peripherals use
addresses as they are. The windowed model confines task mode to two
windows, one for instructions and one for data; scheduler mode sees all of
memory. The windows are set through status registers.
-/

namespace TypedCore

/-- The machine models. -/
inductive MachineModel where
  | generic
  /-- Task mode runs in two windows. -/
  | windowed
  /-- A console and GPIO bytes are attached. -/
  | peripheral
  deriving DecidableEq, Repr

def MachineModel.name : MachineModel → String
  | generic => "generic"
  | windowed => "protected"
  | peripheral => "peripheral"

/-! ## Windows -/

/-- The part of an address that counts where memory repeats every 256 MiB. -/
def Word.low28 (a : Word) : Nat := a.toNat % 0x10000000

/-- A window: virtual pages up to the one of `limit`, moved up by the pages of
`base`. A page has 1024 bytes; the bits below it are ignored in both. -/
structure Window where
  base : Word
  limit : Word
  deriving DecidableEq, Repr

namespace Window

/-- The window through which all of memory is seen where it is. -/
def whole : Window := ⟨0, 0x0fffffff⟩

/-- Where an address lies in memory, or `none` if the window does not reach it. -/
def physical? (w : Window) (addr : Word) : Option Word :=
  -- Both ends count in whole kilobytes, and the sum wraps around the end of memory.
  if w.limit.low28 / 1024 < addr.low28 / 1024 then none
  else some (BitVec.ofNat 32 ((addr.low28 + w.base.low28 / 1024 * 1024) % 0x10000000))

end Window

/-! ## Platforms -/

/-- A machine model with its bus. Only the windowed model looks at the windows. -/
structure Platform where
  model : MachineModel
  bus : Bus
  inst : Window := .whole
  data : Window := .whole

namespace Platform

/-- The platform after a reset: the windows are open, memory and devices keep
their contents. -/
def reset (p : Platform) : Platform := { p with inst := .whole, data := .whole }

/-- The bus address of an access, or the fault of one that is not allowed. -/
def physical (p : Platform) (mode : Mode) (addr : Word) (access : Access) :
    Except MemFault Word :=
  match p.model, mode with
  | .generic, _ | .peripheral, _ => .ok addr
  | .windowed, .scheduler => .ok (BitVec.ofNat 32 addr.low28)
  | .windowed, .task =>
    let window := if access = .fetch then p.inst else p.data
    match window.physical? addr with
    | some a => .ok a
    | none => .error ⟨access.violation, addr⟩

/-! ## Memory accesses -/

/-- Reads memory for an instruction or for data. The alignment of the address is
looked at first, then whether it may be used, then whether a device answers;
whatever fails, the fault names the address the instruction used. -/
def load (p : Platform) (mode : Mode) (addr : Word) (width : Width) (access : Access) :
    Except MemFault Word × Platform :=
  if width.isAligned addr then
    match p.physical mode addr access with
    | .error fault => (.error fault, p)
    | .ok a =>
      match p.bus.read a width with
      | (some value, bus) => (.ok value, { p with bus })
      | (none, bus) => (.error ⟨access.violation, addr⟩, { p with bus })
  else (.error ⟨.unaligned, addr⟩, p)

/-- Fetches one halfword of an instruction. -/
def fetchHalf (p : Platform) (mode : Mode) (addr : Word) : Except MemFault Half × Platform :=
  match p.load mode addr .half .fetch with
  | (.ok value, p) => (.ok (value.setWidth 16), p)
  | (.error fault, p) => (.error fault, p)

def read (p : Platform) (mode : Mode) (addr : Word) (width : Width) :
    Except MemFault Word × Platform :=
  p.load mode addr width .read

/-- Writes data, with the same order of checks as a read. -/
def write (p : Platform) (mode : Mode) (addr : Word) (width : Width) (value : Word) :
    Except MemFault Unit × Platform :=
  if width.isAligned addr then
    match p.physical mode addr .write with
    | .error fault => (.error fault, p)
    | .ok a =>
      match p.bus.write a width value with
      | (true, bus) => (.ok (), { p with bus })
      | (false, bus) => (.error ⟨.memoryViolation, addr⟩, { p with bus })
  else (.error ⟨.unaligned, addr⟩, p)

/-! ## Status registers -/

def readCsr (p : Platform) (latch : ExceptionLatch) (mode : Mode) (addr : Word) :
    Except HostFault (Word × ExceptionLatch) := do
  match p.model, addr.toNat with
  | .windowed, 0x80 => return (p.inst.base, latch)
  | .windowed, 0x81 => return (p.inst.limit, latch)
  | .windowed, 0x82 => return (p.data.base, latch)
  | .windowed, 0x83 => return (p.data.limit, latch)
  | _, _ =>
    match ← latch.read mode addr with
    | some result => return result
    | none => throw (.unknownCsr addr)

def writeCsr (p : Platform) (latch : ExceptionLatch) (addr value : Word) :
    Except HostFault (Platform × ExceptionLatch) := do
  match p.model, addr.toNat with
  | .windowed, 0x80 => return ({ p with inst := { p.inst with base := value } }, latch)
  | .windowed, 0x81 => return ({ p with inst := { p.inst with limit := value } }, latch)
  | .windowed, 0x82 => return ({ p with data := { p.data with base := value } }, latch)
  | .windowed, 0x83 => return ({ p with data := { p.data with limit := value } }, latch)
  | _, _ =>
    match ← latch.write addr value with
    | some latch => return (p, latch)
    | none => throw (.unknownCsr addr)

end Platform

end TypedCore
