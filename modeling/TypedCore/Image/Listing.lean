import TypedCore.Image
import TypedCore.Insn.Text

/-!
# Listings

A segment read as instructions from its first byte on, each at the place
where the one before it ends. What an instruction lacks at the end of the
segment reads as zero, and a single byte left over is not read at all.
-/

namespace TypedCore

/-- A line of a listing. -/
structure ListingLine where
  /-- The address, which may lie behind the last one that a program can use. -/
  addr : Nat
  /-- The bytes of the instruction as far as the segment has them. -/
  bytes : List Byte
  decoded : Decoded
  deriving DecidableEq, Repr

/-- The halfword at the start of some bytes; zero if there are not two of them. -/
def leadingHalf : List Byte → Half
  | low :: high :: _ => high ++ low
  | _ => 0

/-- The extension that follows the word at the start of some bytes. -/
def leadingExtension (len : Nat) (bytes : List Byte) : Word :=
  let half (offset : Nat) : Half := leadingHalf (bytes.drop offset)
  match len with
  | 2 => 0
  | 4 => (half 2).setWidth 32
  | _ => half 4 ++ half 2

/-- The lines of some bytes that start at an address. -/
def listing (addr : Nat) : List Byte → List ListingLine
  | low :: high :: rest =>
    let bytes := low :: high :: rest
    let word : Half := high ++ low
    let len := word.insnLength
    ⟨addr, bytes.take len, decode word (leadingExtension len bytes)⟩ ::
      listing (addr + len) (bytes.drop len)
  | _ => []
termination_by bytes => bytes.length
decreasing_by
  have := Half.insnLength_cases (high ++ low)
  simp only [List.length_drop, List.length_cons]
  omega

def Segment.listing (seg : Segment) : List ListingLine := TypedCore.listing seg.addr.toNat seg.data

namespace ListingLine

/-- The address, the bytes and the assembly text. -/
def text (line : ListingLine) : Except HostFault String := do
  let bytes := " ".intercalate (line.bytes.map fun b => Text.hexPadded 2 b.toNat)
  return Text.hexPadded 8 line.addr ++ ":  " ++ Text.padRight 18 bytes ++ " " ++
    (← line.decoded.text)

end ListingLine

namespace Image

/-- The listing of an image: its entry point and, each behind a blank line, its
segments. -/
def listing (image : Image) : Except HostFault (List String) := do
  let segments ← image.segments.mapM fun seg => do
    return "" :: (← seg.listing.mapM ListingLine.text)
  return ("entry: 0x" ++ Text.hexPadded 8 image.entry.toNat) :: segments.flatten

end Image

end TypedCore
