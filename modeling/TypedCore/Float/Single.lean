import TypedCore.Float.Format
import TypedCore.Insn.Basic

/-!
# Single precision

The arithmetic of the machine's floating-point lanes. Every operation takes
and gives bit patterns, and is the exact result rounded to the nearest
single, a tie to the even one.
-/

namespace TypedCore.Single

def value (x : Word) : FloatValue := FloatFormat.binary32.decode x.toNat

def round (v : FloatValue) : Word := BitVec.ofNat 32 (FloatFormat.binary32.encode v)

/-- More bits than a single's significand has, by enough to round correctly. -/
def workingBits : Nat := 26

def add (x y : Word) : Word := round ((value x).add (value y))

def sub (x y : Word) : Word := round ((value x).add (value y).negate)

def mul (x y : Word) : Word := round ((value x).mul (value y))

def div (x y : Word) : Word := round ((value x).div workingBits (value y))

def sqrt (x : Word) : Word := round ((value x).sqrt workingBits)

def one : Word := 0x3f800000

def half : Word := 0x3f000000

/-- Minus zero, the neutral element of addition. -/
def minusZero : Word := 0x80000000

def recip (x : Word) : Word := div one x

/-- The reciprocal of the square root, which is itself rounded first. -/
def rsqrt (x : Word) : Word := div one (sqrt x)

/-- The sum of a list, from left to right. -/
def sum (xs : List Word) : Word := xs.foldl add minusZero

def ofInt (i : Int) : Word := round (.ofInt i)

/-- A whole number, by adding one half and dropping the fraction. What does not
fit becomes the nearer bound, and a NaN becomes zero. -/
def toInt (lo hi : Int) (x : Word) : Int := (value (add x half)).truncateClamped lo hi

/-- Whether a condition holds of two singles. A NaN differs from everything and
has no order. -/
def holds (c : Cond) (x y : Word) : Bool :=
  match (value x).compare? (value y), c with
  | none, .ne => true
  | none, _ => false
  | some o, .eq => o == .eq
  | some o, .ne => o != .eq
  | some o, .lt => o == .lt
  | some o, .ge => o != .lt
  | some o, .gt => o == .gt
  | some o, .le => o != .gt

end TypedCore.Single
