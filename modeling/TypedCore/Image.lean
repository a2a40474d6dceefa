import TypedCore.Bus
import TypedCore.Image.Elf

/-!
# Program images

A program as it is put into memory. A file that does not look like an
executable is one block at address 0. Only an executable is given
arguments: a block at address 0 with a zero word, the number of arguments,
a pointer to each of them and a null pointer, and then their bytes.
-/

namespace TypedCore

/-- A program ready to be placed. -/
structure Image where
  /-- Where the program starts. -/
  entry : Word
  segments : List Segment
  /-- Whether the program comes from an executable, and so is given arguments. -/
  isExecutable : Bool
  deriving DecidableEq, Repr

namespace Image

def parse (bytes : List Byte) : Except ImageFault Image := do
  if bytes.take 4 = Elf.magic then
    let (entry, segments) ← Elf.parse bytes
    return ⟨entry, segments, true⟩
  else return ⟨0, [⟨0, bytes⟩], false⟩

/-- Places segments one after the other. Those before one that does not fit stay. -/
def placeAll : List Segment → Bus → Except ImageFault Unit × Bus
  | [], b => (.ok (), b)
  | seg :: rest, b =>
    match b.load seg.addr seg.data with
    | (true, b) => placeAll rest b
    | (false, b) => (.error (.segment seg.addr seg.data.length), b)

end Image

/-! ## Arguments -/

namespace Arguments

def terminated (arg : List Byte) : List Byte := arg ++ [0]

/-- The addresses of arguments that lie one after the other from an address on. -/
def addresses : Nat → List (List Byte) → List Nat
  | _, [] => []
  | addr, arg :: rest => addr :: addresses (addr + (terminated arg).length) rest

/-- The first address behind the pointers to `count` arguments. -/
def start (count : Nat) : Nat := 12 + 4 * count

/-- The words that precede the bytes of the arguments. -/
def table (args : List (List Byte)) : List Nat :=
  [0, args.length] ++ addresses (start args.length) args ++ [0]

/-- The block of arguments. -/
def block (args : List (List Byte)) : List Byte :=
  (table args).flatMap (bytesOfNat 4) ++ args.flatMap terminated

/-- Writes the block of arguments at address 0. -/
def place (args : List (List Byte)) (b : Bus) : Except ImageFault Unit × Bus :=
  match b.writeBytes 0 (block args) with
  | (true, b) => (.ok (), b)
  | (false, b) => (.error (.arguments (block args).length), b)

end Arguments

/-- Places a program, and the arguments if it takes them. -/
def Image.place (image : Image) (args : List (List Byte)) (b : Bus) :
    Except ImageFault Unit × Bus :=
  match placeAll image.segments b with
  | (.error fault, b) => (.error fault, b)
  | (.ok (), b) => if image.isExecutable then Arguments.place args b else (.ok (), b)

end TypedCore
