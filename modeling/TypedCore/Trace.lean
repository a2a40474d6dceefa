import TypedCore.Effects

/-!
# Trace lines

A trace has one line for each retired instruction: the mode and address,
the assembly text, and from column 80 on what the instruction changed. A
program counter or mode is shown only if it is not what falling through
would have made it.
-/

namespace TypedCore

/-- What a trace line tells of an instruction. -/
structure TraceEntry where
  /-- The mode the instruction ran in. -/
  mode : Mode
  pc : Word
  text : String
  /-- The state when the instruction began: its shadow says where it falls through. -/
  begun : State
  /-- The state with the effects of the instruction. -/
  after : State
  record : Option MemRecord

namespace TraceEntry

/-- The column where the changes begin. -/
def changesColumn : Nat := 80

def registers (t : TraceEntry) : List String :=
  t.after.dirtyRegs.map fun i =>
    let r := t.after.regs.read i
    " " ++ regName i ++ " <- 0x" ++ Text.hex r.value.toNat ++ " (" ++ r.type.name ++ ")"

/-- The program counters and the mode, where they left the path. -/
def control (t : TraceEntry) : List String :=
  (if t.after.nextTpc = t.begun.nextTpc then []
    else [" $tpc <- 0x" ++ Text.hex t.after.nextTpc.toNat]) ++
  (if t.after.nextSpc = t.begun.nextSpc then []
    else [" $spc <- 0x" ++ Text.hex t.after.nextSpc.toNat]) ++
  (if t.after.nextMode = t.mode then [] else [" mode <- " ++ t.after.nextMode.name])

/-- The memory access and the cause, if there are any. -/
def events (t : TraceEntry) : List String :=
  (t.record.map fun r => " | " ++ r.text).toList ++
  (if t.after.cause.isRaised then [" | exception: " ++ t.after.cause.text] else [])

def line (t : TraceEntry) : String :=
  let place := t.mode.letter ++ "PC: 0x" ++ Text.hex t.pc.toNat ++ " " ++ t.text
  let changes := String.join (t.registers ++ t.control ++ t.events)
  if changes.isEmpty then place else Text.padRight changesColumn place ++ changes

end TraceEntry

end TypedCore
