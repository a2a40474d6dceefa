import TypedCore.Float.Half
import TypedCore.Float.Single
import TypedCore.Lane.Layout
import TypedCore.RegFile

/-!
# Lane arithmetic

Addition, subtraction, multiplication, negation, sums and conversions, lane
by lane. Integer lanes compute the exact result and fit it to the lane;
floating-point lanes are computed in single precision and rounded to the
lane. The type of the first operand gives the layout for both operands and
for the result. A type without lanes raises the `type` cause.
-/

namespace TypedCore

/-! ## Floating-point lanes -/

namespace Layout

/-- The floating-point lanes of a value as singles. -/
def singles (l : Layout) (v : Word) : List Word :=
  (l.lanes v).map fun x =>
    if l.width = .word then BitVec.ofNat 32 x else HalfFloat.toSingle (BitVec.ofNat 16 x)

/-- The value whose floating-point lanes are given as singles. -/
def packSingles (l : Layout) (xs : List Word) : Word :=
  l.pack <| xs.map fun x =>
    if l.width = .word then x.toNat else (HalfFloat.ofSingle x).toNat

end Layout

namespace Lane

/-! ## Addition, subtraction and multiplication -/

def exact : BinaryOp → Int → Int → Int
  | .add, x, y => x + y
  | .sub, x, y => x - y
  | _, x, y => x * y

def single : BinaryOp → Word → Word → Word
  | .add => Single.add
  | .sub => Single.sub
  | _ => Single.mul

/-- Adds, subtracts or multiplies the lanes of two registers. -/
def arithmetic (op : BinaryOp) (a b : TypedWord) : Except Cause TypedWord := do
  let l ← a.type.layout
  if l.overflow = .float then
    return ⟨l.packSingles (List.zipWith (single op) (l.singles a.value) (l.singles b.value)), a.type⟩
  return ⟨l.build fun i => l.narrow (exact op (l.laneValue a.value i) (l.laneValue b.value i)), a.type⟩

/-- Multiplies the lanes of two registers, shifts the double-width products right
and fits them to the lanes. Floating-point lanes are just multiplied. -/
def fullMul (a b : TypedWord) (shift : Nat) (signed : Bool) : Except Cause TypedWord := do
  let l ← a.type.layout
  if l.overflow = .float then
    return ⟨l.packSingles (List.zipWith Single.mul (l.singles a.value) (l.singles b.value)), a.type⟩
  let read (v : Word) (i : Nat) : Int := if signed then l.laneSigned v i else l.lane v i
  return ⟨l.build fun i => l.narrow (read a.value i * read b.value i / (1 <<< (shift % 32) : Nat)), a.type⟩

/-- Negates each lane. A floating-point lane only changes its sign bit. -/
def neg (a : TypedWord) : Except Cause TypedWord := do
  let l ← a.type.layout
  if l.overflow = .float then
    return ⟨l.build fun i => l.lane a.value i + l.range / 2, a.type⟩
  return ⟨l.build fun i => l.range - l.lane a.value i, a.type⟩

/-- Adds up the lanes: integer lanes into an `int32`, half-precision ones into a
single. A value of one lane is its own sum. -/
def sum (a : TypedWord) : Except Cause TypedWord := do
  let l ← a.type.layout
  if l.count = 1 then return a
  if l.overflow = .float then
    return ⟨Single.sum (l.singles a.value), .fp32⟩
  let total := (List.range l.count).foldl (fun total i => total + l.laneValue a.value i) 0
  return .int (BitVec.ofInt 32 total)

/-! ## Conversions and reciprocals -/

/-- Converts whole numbers to floating point: an `int32` to a single, and a pair of
16-bit numbers to a pair of halves. -/
def toFloat (a : TypedWord) : Except Cause TypedWord :=
  let pair (read : Layout → Word → Nat → Int) : Except Cause TypedWord := do
    let l ← a.type.layout
    let out : Layout := ⟨.half, .float⟩
    return ⟨out.packSingles ((List.range 2).map fun i => Single.ofInt (read l a.value i)), .fp16x2⟩
  match a.type with
  | .int32 => .ok ⟨Single.ofInt a.value.toInt, .fp32⟩
  | .int16x2 | .sint16x2s => pair Layout.laneSigned
  | .uint16x2s => pair fun l v i => l.lane v i
  | _ => .error .type

/-- Converts floating point to whole numbers, rounding a half up. -/
def toInt (a : TypedWord) : Except Cause TypedWord :=
  match a.type with
  | .fp32 => .ok (.int (BitVec.ofInt 32 (Single.toInt (-0x80000000) 0x7fffffff a.value)))
  | .fp16x2 =>
    let l : Layout := ⟨.half, .float⟩
    let lane (x : Word) : Nat := (Single.toInt (-0x8000) 0x7fff x % l.range).toNat
    .ok ⟨l.pack ((l.singles a.value).map lane), .int16x2⟩
  | _ => .error .type

/-- Applies a single-precision operation to each floating-point lane. -/
def mapSingles (op : Word → Word) (a : TypedWord) : Except Cause TypedWord := do
  let l ← a.type.layout
  if l.overflow = .float then
    return ⟨l.packSingles ((l.singles a.value).map op), a.type⟩
  throw .type

/-! ## Shifts -/

/-- Shifts one lane; the amount counts modulo 32. -/
def shiftLane (op : BinaryOp) (l : Layout) (v : Word) (amount i : Nat) : Nat :=
  match op with
  | .shiftLeft => l.lane v i <<< (amount % 32)
  | .shiftRight => l.lane v i >>> (amount % 32)
  | _ => (l.laneSigned v i / (1 <<< (amount % 32) : Nat) % l.range).toNat

/-- Shifts each lane of the first register by the same lane of the second.
Floating-point lanes are shifted as bit patterns. -/
def shift (op : BinaryOp) (a b : TypedWord) : Except Cause TypedWord := do
  let l ← a.type.layout
  return ⟨l.build fun i => shiftLane op l a.value (l.lane b.value i) i, a.type⟩

end Lane

end TypedCore
