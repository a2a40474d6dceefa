import TypedCore.HostFault
import TypedCore.Image.Elf.Header

/-!
# Sections of an executable file

Loading needs none of the sections, but a file whose sections contradict
each other is refused as a whole. `SectionTable.check` looks at the symbol
tables, which have to be tables of symbols with a table of names, and at
the relocations, which have to be about a section of their own.
-/

namespace TypedCore

namespace Elf

/-- What a section header says about its section. -/
structure Section where
  /-- What the section holds. -/
  type : Nat
  offset : Nat
  size : Nat
  /-- The section that this one is read together with. -/
  link : Nat
  /-- For relocations the section that they are about. -/
  info : Nat
  deriving DecidableEq, Repr

/-- The sections of a file, in order. -/
abbrev SectionTable := List Section

/-! ## The table -/

namespace File

/-- The section whose header lies at an offset. -/
def sectionAt (f : File) (offset : Nat) : Section where
  type := f.number (offset + 4) 4
  offset := f.number (offset + 16) 4
  size := f.number (offset + 20) 4
  link := f.number (offset + 24) 4
  info := f.number (offset + 28) 4

/-- Section 0, if there is a section header table at all. It names no part of the
file, and has the numbers that do not fit the header. Where it is asked for, it has to
be readable. -/
def sectionZero (f : File) : Except ImageFault (Option Section) :=
  let h := f.header
  if h.sectionOffset = 0 then .ok none
  else if h.sectionEntrySize = sectionHeaderSize ∧
      f.holdsTable h.sectionOffset sectionHeaderSize 1 then
    .ok (some (f.sectionAt h.sectionOffset))
  else .error .malformed

def sectionCount (f : File) : Except ImageFault Nat := do
  let h := f.header
  if h.sectionCount ≠ 0 then return h.sectionCount
  return (← f.sectionZero).elim 0 Section.size

/-- The section with the names of the sections. -/
def namesIndex (f : File) : Except ImageFault Nat := do
  let h := f.header
  if h.namesIndex ≠ countElsewhere then return h.namesIndex
  match ← f.sectionZero with
  | some s => return s.link
  | none => throw .malformed

/-- The sections. If there are any, one of them has their names. -/
def sections (f : File) : Except ImageFault SectionTable := do
  let h := f.header
  if h.sectionOffset = 0 then return []
  let count ← f.sectionCount
  if count = 0 then return []
  unless h.sectionEntrySize = sectionHeaderSize ∧
    f.holdsTable h.sectionOffset sectionHeaderSize count do throw .malformed
  let names ← f.namesIndex
  unless names ≠ 0 ∧ names < count do throw .malformed
  return (List.range count).map fun i => f.sectionAt (h.sectionOffset + sectionHeaderSize * i)

end File

/-! ## Types of sections -/

namespace Section

def symbols : Nat := 2

def strings : Nat := 3

/-- The type of a table of the symbols that are bound when the program starts. -/
def dynamicSymbols : Nat := 11

/-- The type of a table of section numbers that do not fit a symbol. -/
def symbolSections : Nat := 18

/-- The types of tables of relocations: with addends and without. -/
def relocations : List Nat := [4, 9]

def symbolSize : Nat := 16

def numberSize : Nat := 4

def isRelocation (s : Section) : Bool := relocations.contains s.type

/-- Whether a section lies inside the file and is a whole number of entries of some size. -/
def holds (s : Section) (f : File) (size : Nat) : Bool :=
  f.holdsTable s.offset s.size 1 && s.size % size == 0

end Section

/-! ## Checks -/

namespace SectionTable

/-- Whether a link leads to a table of names; 0 stands for a table without names. -/
def namesSymbols (t : SectionTable) (link : Nat) : Bool :=
  link == 0 || t[link]?.any (·.type == Section.strings)

/-- Whether the tables of section numbers that belong to a table of symbols can be read. -/
def numbersSymbols (t : SectionTable) (f : File) (index : Nat) : Bool :=
  t.all fun s =>
    s.type != Section.symbolSections || s.link != index || s.holds f Section.numberSize

/-- Whether the first table of symbols of a type can be used, if there is one. -/
def checkSymbols (t : SectionTable) (f : File) (type : Nat) : Bool :=
  match t.findIdx? (·.type == type) with
  | none => true
  | some index =>
    t[index]?.any fun s =>
      s.holds f Section.symbolSize && t.namesSymbols s.link && t.numbersSymbols f index

/-- The number of the first table of symbols, or 0 if there is none. -/
def symbolsIndex (t : SectionTable) : Nat :=
  (t.findIdx? (·.type == Section.symbols)).getD 0

/-- Whether a section, if it relocates by the first table of symbols, is about one that
exists and is no table of relocations itself. Relocations about section 0 belong to no
section in particular. -/
def checkRelocation (t : SectionTable) (s : Section) : Bool :=
  !s.isRelocation || s.link != t.symbolsIndex || s.info == 0 ||
    t[s.info]?.any (!·.isRelocation)

/-- Refuses sections that contradict each other. -/
def check (t : SectionTable) (f : File) : Except ImageFault Unit :=
  if t.checkSymbols f Section.symbols && t.checkSymbols f Section.dynamicSymbols &&
      t.all t.checkRelocation then .ok ()
  else .error .malformed

end SectionTable

end Elf

end TypedCore
