import TypedCore.Cause
import TypedCore.RegType

/-!
# Lane layouts

A register type with arithmetic splits the 32-bit value into one, two or
four lanes of equal width, lane 0 in the low bits, and says what happens
when a result does not fit a lane. Lanes are read as numbers and packed
back from numbers, so lane arithmetic is arithmetic of `Int`.
-/

namespace TypedCore

/-- What becomes of a result that does not fit its lane. -/
inductive Overflow where
  /-- The high bits are dropped. -/
  | wrap
  /-- Clamped to the unsigned range. -/
  | clampUnsigned
  /-- Clamped to the signed range. -/
  | clampSigned
  /-- The lane is a floating-point number, which has its own rules. -/
  | float
  deriving DecidableEq, Repr

/-- How a register value splits into lanes. -/
structure Layout where
  width : Width
  overflow : Overflow
  deriving DecidableEq, Repr

/-- The layout of a type; `mask` and the reserved types have none. -/
def RegType.layout? : RegType → Option Layout
  | int32 => some ⟨.word, .wrap⟩
  | fp32 => some ⟨.word, .float⟩
  | int16x2 => some ⟨.half, .wrap⟩
  | int8x4 => some ⟨.byte, .wrap⟩
  | uint16x2s => some ⟨.half, .clampUnsigned⟩
  | sint16x2s => some ⟨.half, .clampSigned⟩
  | uint8x4s => some ⟨.byte, .clampUnsigned⟩
  | sint8x4s => some ⟨.byte, .clampSigned⟩
  | fp16x2 => some ⟨.half, .float⟩
  | reserved _ | mask => none

/-- The layout of a type, or the cause that arithmetic on it raises. -/
def RegType.layout (t : RegType) : Except Cause Layout :=
  match t.layout? with
  | some l => .ok l
  | none => .error .type

/-- The number whose digits in base `2 ^ bits` are given, the lowest first; of a
digit that is too large the high bits are dropped. -/
def packLanes (bits : Nat) : List Nat → Nat
  | [] => 0
  | x :: xs => x % (1 <<< bits) + packLanes bits xs <<< bits

namespace Layout

variable (l : Layout)

def bits : Nat := l.width.bits

def count : Nat := 4 / l.width.bytes

/-- The number of values of a lane. -/
def range : Nat := 1 <<< l.bits

/-- Lane `i`, read as an unsigned number. -/
def lane (v : Word) (i : Nat) : Nat := v.toNat >>> (i * l.bits) % l.range

/-- Lane `i`, read as a signed number. -/
def laneSigned (v : Word) (i : Nat) : Int :=
  if 2 * l.lane v i < l.range then l.lane v i else l.lane v i - l.range

/-- Lane `i` as the lane arithmetic sees it: signed if results are clamped to the
signed range. -/
def laneValue (v : Word) (i : Nat) : Int :=
  if l.overflow = .clampSigned then l.laneSigned v i else l.lane v i

/-- The lane that stands for a result. -/
def narrow (wide : Int) : Nat :=
  let fitted : Int :=
    match l.overflow with
    | .clampUnsigned => max 0 (min (l.range - 1) wide)
    | .clampSigned => max (-(l.range / 2 : Nat)) (min ((l.range / 2 : Nat) - 1) wide)
    | .wrap | .float => wide
  (fitted % l.range).toNat

/-- The lanes of a value, the lowest first. -/
def lanes (v : Word) : List Nat := (List.range l.count).map (l.lane v)

def pack (lanes : List Nat) : Word := BitVec.ofNat 32 (packLanes l.bits lanes)

/-- The value whose lane `i` is `f i`. -/
def build (f : Nat → Nat) : Word := l.pack ((List.range l.count).map f)

end Layout

/-- The value whose bytes are picked from the bytes of another one, two bits of
the pattern for each, the low bits for the low byte. -/
def swizzle (v : Word) (pattern : Byte) : Word :=
  BitVec.ofNat 32 <| packLanes 8 <|
    (List.range 4).map fun i => v.toNat >>> (8 * (pattern.toNat >>> (2 * i) % 4)) % 256

end TypedCore
