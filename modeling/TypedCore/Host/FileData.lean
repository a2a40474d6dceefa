import Std.Data.TreeMap
import TypedCore.Word

/-!
# The contents of a file

A file keeps its bytes in blocks. Only blocks that something was written to
are stored; the others are holes, which read as zeros. A file that was
written far behind its end is therefore no larger than what was written,
and a program that asks where data and holes begin sees the blocks.
-/

namespace TypedCore

/-- The contents of a file. -/
structure FileData where
  size : Nat := 0
  /-- The blocks that hold data, by number. All of them begin before the end. -/
  blocks : Std.TreeMap Nat ByteArray := ∅

namespace FileData

def blockSize : Nat := 4096

def zeros : ByteArray := ⟨Array.replicate blockSize 0⟩

def block (f : FileData) (i : Nat) : ByteArray := f.blocks.getD i zeros

/-- The numbers of the blocks that the bytes from `start` up to `stop` lie in. -/
def blocksOf (start stop : Nat) : List Nat :=
  if start < stop then
    List.range' (start / blockSize) ((stop - 1) / blockSize - start / blockSize + 1)
  else []

/-- The bytes from an offset on, at most `len` of them and none behind the end. -/
def read (f : FileData) (offset len : Nat) : ByteArray :=
  let stop := min (offset + len) f.size
  let found := (blocksOf offset stop).foldl (fun bytes i => bytes ++ f.block i) ByteArray.empty
  let start := offset / blockSize * blockSize
  found.extract (offset - start) (stop - start)

def toByteArray (f : FileData) : ByteArray := f.read 0 f.size

/-- A block with some of its bytes replaced. -/
def writeBlock (f : FileData) (i start : Nat) (bytes : ByteArray) : FileData :=
  let old := f.block i
  { f with
    blocks := f.blocks.insert i
      (old.extract 0 start ++ bytes ++ old.extract (start + bytes.size) blockSize) }

def write (f : FileData) (offset : Nat) (bytes : ByteArray) : FileData :=
  let stop := offset + bytes.size
  let piece (f : FileData) (i : Nat) : FileData :=
    let first := max offset (i * blockSize)
    let last := min stop ((i + 1) * blockSize)
    f.writeBlock i (first - i * blockSize) (bytes.extract (first - offset) (last - offset))
  if bytes.size = 0 then f
  else { (blocksOf offset stop).foldl piece f with size := max f.size stop }

/-- Contents without holes. -/
def ofByteArray (bytes : ByteArray) : FileData := ({} : FileData).write 0 bytes

/-! ## Data and holes -/

/-- Where the next data from an offset on begins, if there is any before the end. -/
def nextData? (f : FileData) (offset : Nat) : Option Nat :=
  if offset < f.size then
    (f.blocks.getKeyGE? (offset / blockSize)).map fun i => max offset (i * blockSize)
  else none

/-- The first of the numbers from `i` on that is no block with data, if it is among the
first `n`, and else the one behind them. -/
def firstHole (f : FileData) : (n i : Nat) → Nat
  | 0, i => i
  | n + 1, i => if f.blocks.contains i then f.firstHole n (i + 1) else i

/-- Where the next hole from an offset on begins. The end of the file counts as one. -/
def nextHole? (f : FileData) (offset : Nat) : Option Nat :=
  if offset < f.size then
    some (min f.size (max offset (f.firstHole f.blocks.size (offset / blockSize) * blockSize)))
  else none

end FileData

end TypedCore
