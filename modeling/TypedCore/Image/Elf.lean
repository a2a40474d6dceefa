import TypedCore.Image.Elf.Section

/-!
# Executable files

The loadable parts of a 32-bit executable. A table that does not lie inside
the file, or whose entries have an unexpected size, makes the whole file
malformed, be it one that loading does not use.
-/

namespace TypedCore

/-- One block of a program, with the address it belongs to. -/
structure Segment where
  addr : Word
  data : List Byte
  deriving DecidableEq, Repr

namespace Elf

namespace File

/-! ## Segments -/

def programCount (f : File) : Except ImageFault Nat := do
  let h := f.header
  if h.programCount ≠ countElsewhere then return h.programCount
  match ← f.sectionZero with
  | some s => return s.info
  | none => throw .malformed

def programHeaders (f : File) : Except ImageFault (List Nat) := do
  let h := f.header
  if h.programOffset = 0 then return []
  let count ← f.programCount
  if count = 0 then return []
  unless h.programEntrySize = programHeaderSize ∧
    f.holdsTable h.programOffset programHeaderSize count do throw .malformed
  return (List.range count).map fun i => h.programOffset + programHeaderSize * i

/-- The mark of a program header that describes something to load. -/
def loadable : Nat := 1

/-- The segment that a program header describes, if it is one to load and not empty. -/
def segment? (f : File) (offset : Nat) : Except ImageFault (Option Segment) := do
  if f.number offset 4 ≠ loadable then return none
  let start := f.number (offset + 4) 4
  let addr := f.number (offset + 8) 4
  let size := f.number (offset + 16) 4
  unless start + size ≤ f.bytes.length do throw .malformed
  if size = 0 then return none
  return some ⟨BitVec.ofNat 32 addr, (f.bytes.drop start).take size⟩

/-- The segments to load, in the order of their headers. -/
def segments (f : File) : Except ImageFault (List Segment) := do
  let found ← (← f.programHeaders).mapM f.segment?
  return found.filterMap id

end File

/-- The entry point and the segments of an executable. -/
def parse (bytes : List Byte) : Except ImageFault (Word × List Segment) := do
  match File.ofBytes? bytes with
  | none => throw .malformed
  | some f =>
    (← f.sections).check f
    return (BitVec.ofNat 32 f.header.entry, ← f.segments)

end Elf

end TypedCore
