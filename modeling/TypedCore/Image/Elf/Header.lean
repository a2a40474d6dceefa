import TypedCore.Word

/-!
# The header of an executable file

A 32-bit executable in either byte order, as bytes that are read as numbers
at an offset. The header tells where the tables of segments and sections
lie.
-/

namespace TypedCore

namespace Elf

/-- The bytes that every executable starts with. -/
def magic : List Byte := [0x7f, 0x45, 0x4c, 0x46]

/-- The order of the bytes of a number. -/
inductive ByteOrder where
  | little
  | big
  deriving DecidableEq, Repr

/-- The number that some bytes stand for. -/
def ByteOrder.number (order : ByteOrder) (bytes : List Byte) : Nat :=
  match order with
  | little => natOfBytes bytes
  | big => natOfBytes bytes.reverse

/-! ## The header -/

def headerSize : Nat := 52

def programHeaderSize : Nat := 32

def sectionHeaderSize : Nat := 40

def tableAlign : Nat := 4

/-- A count that does not fit the header: section 0 has the true one. -/
def countElsewhere : Nat := 0xffff

/-- A file with its byte order. -/
structure File where
  order : ByteOrder
  bytes : List Byte

/-- What the header says. -/
structure Header where
  entry : Nat
  programOffset : Nat
  sectionOffset : Nat
  programEntrySize : Nat
  programCount : Nat
  sectionEntrySize : Nat
  sectionCount : Nat
  namesIndex : Nat

namespace File

/-- The file, if its first bytes promise a 32-bit executable. -/
def ofBytes? (bytes : List Byte) : Option File :=
  if bytes.length < headerSize ∨ bytes.take 4 ≠ magic then none
  else
    -- class, byte order, version
    match (bytes.drop 4).take 3 with
    | [1, 1, 1] => some ⟨.little, bytes⟩
    | [1, 2, 1] => some ⟨.big, bytes⟩
    | _ => none

/-- The number in `size` bytes at an offset. -/
def number (f : File) (offset size : Nat) : Nat :=
  f.order.number ((f.bytes.drop offset).take size)

def header (f : File) : Header where
  entry := f.number 24 4
  programOffset := f.number 28 4
  sectionOffset := f.number 32 4
  programEntrySize := f.number 42 2
  programCount := f.number 44 2
  sectionEntrySize := f.number 46 2
  sectionCount := f.number 48 2
  namesIndex := f.number 50 2

/-- Whether a table of `count` entries lies inside the file. -/
def holdsTable (f : File) (offset size count : Nat) : Bool :=
  decide (offset % tableAlign = 0 ∧ offset + size * count ≤ f.bytes.length)

end File

end Elf

end TypedCore
