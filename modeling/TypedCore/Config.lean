import TypedCore.HostFault
import TypedCore.Json.Value
import TypedCore.Platform

/-!
# Configuration

What machine to build and how to run it, as a JSON document with three
records: `general`, `memory` and `peripherals`. Everything has a default but
the address of a GPIO byte. `Config.ofText` reads a document and refuses memory
of no size or of more than 256 MiB; `Platform.ofConfig` builds the machine.
-/

namespace TypedCore

/-- The first address of memory: the argument block lies at address 0. -/
def ramBase : Word := 0

def maxRamSize : Nat := 0x10000000

/-- A GPIO byte of the peripheral model. -/
structure GpioSetup where
  base : Word
  /-- Whether a write to it ends the run. -/
  terminates : Bool := false
  deriving DecidableEq, Repr

/-- The GPIO bytes of the peripheral model unless others are given: four, of which the
first ends the run. -/
def defaultGpios : List GpioSetup :=
  (List.range 4).map fun i => ⟨BitVec.ofNat 32 (0x40001000 + 0x10 * i), i == 0⟩

/-- A configuration. -/
structure Config where
  /-- Whether a line is written for each instruction. -/
  trace : Bool := false
  environment : Environment := .user
  model : MachineModel := .generic
  /-- The size of memory in bytes. -/
  ramSize : Nat := 0x1000000
  /-- The stack pointer at the start, if it is not to be the end of memory. -/
  stackTop : Option Word := none
  consoleBase : Word := 0x40000000
  gpios : List GpioSetup := defaultGpios
  /-- Whether the console transmits to standard error rather than output. -/
  consoleToStderr : Bool := false
  deriving DecidableEq, Repr

namespace Config

/-- The stack pointer at the start: as configured, or the end of memory rounded down
to a word. -/
def initialSp (c : Config) : Word :=
  c.stackTop.getD (BitVec.ofNat 32 ((ramBase.toNat + c.ramSize) / 4 * 4))

/-! ## Reading -/

open Json (Value orDefault)

def word? (v : Value) : Option Word := (v.natBelow? 0x100000000).map (BitVec.ofNat 32)

def environment? (v : Value) : Option Environment :=
  match v.choice? with
  | some "User" => some .user
  | some "Operating" => some .operating
  | some "Virtual" => some .virtual
  | _ => none

def model? (v : Value) : Option MachineModel :=
  match v.choice? with
  | some "Generic" => some .generic
  | some "Protected" => some .windowed
  | some "Peripheral" => some .peripheral
  | _ => none

def general? (c : Config) (v : Value) : Option Config := do
  match ← v.fields? ["trace_instructions", "environment", "model"] with
  | [trace, environment, model] =>
    return { c with
      trace := ← orDefault c.trace Value.bool? trace
      environment := ← orDefault c.environment environment? environment
      model := ← orDefault c.model model? model }
  | _ => none

def memory? (c : Config) (v : Value) : Option Config := do
  match ← v.fields? ["ram_size", "stack_top"] with
  | [size, top] =>
    return { c with
      ramSize := ← orDefault c.ramSize (·.natBelow? 0x10000000000000000) size
      stackTop := ← orDefault c.stackTop (Value.nullable? word?) top }
  | _ => none

def gpio? (v : Value) : Option GpioSetup := do
  match ← v.fields? ["base", "terminate_on_write"] with
  | [some base, terminates] =>
    return { base := ← word? base, terminates := ← orDefault false Value.bool? terminates }
  | _ => none

def peripherals? (c : Config) (v : Value) : Option Config := do
  match ← v.fields? ["console_base", "gpio", "console_to_stderr"] with
  | [console, gpios, toStderr] =>
    return { c with
      consoleBase := ← orDefault c.consoleBase word? console
      gpios := ← orDefault c.gpios (fun v => do (← v.array?).mapM gpio?) gpios
      consoleToStderr := ← orDefault c.consoleToStderr Value.bool? toStderr }
  | _ => none

def ofValue? (v : Value) : Option Config := do
  match ← v.fields? ["general", "memory", "peripherals"] with
  | [general, memory, peripherals] =>
    let c : Config := {}
    let c ← orDefault c c.general? general
    let c ← orDefault c c.memory? memory
    orDefault c c.peripherals? peripherals
  | _ => none

/-- Whether there is some memory and not too much of it. -/
def ramSizeOk (c : Config) : Bool := decide (0 < c.ramSize ∧ c.ramSize ≤ maxRamSize)

def ofText (text : String) : Except ConfigFault Config :=
  match (Value.parse? text).bind ofValue? with
  | none => .error .malformed
  | some c => if c.ramSizeOk then .ok c else .error (.ramSize c.ramSize)

end Config

/-! ## Building -/

/-- The devices of a machine whose memory starts at a given address. Only the
peripheral model has more than memory, and the windowed model has no addresses
above 256 MiB. -/
def Config.devicesAt (c : Config) (base : Word) : List Device :=
  match c.model with
  | .generic => [.ram { base, size := c.ramSize }]
  | .windowed => [.ram { base := BitVec.ofNat 32 base.low28, size := c.ramSize }]
  | .peripheral =>
    .ram { base, size := c.ramSize } :: .console { base := c.consoleBase } ::
      c.gpios.map fun g => .gpio { base := g.base, terminates := g.terminates }

namespace Platform

/-- The machine that a configuration describes, with memory at a given address. -/
def ofConfigAt (c : Config) (base : Word) : Platform :=
  { model := c.model, bus := .ofDevices (c.devicesAt base) }

/-- The machine that a configuration describes. -/
def ofConfig (c : Config) : Platform := ofConfigAt c ramBase

end Platform

end TypedCore
