import TypedCore.Word

/-!
# Binary floating-point formats

A format packs a sign, a biased exponent and a fraction into one number.
`FloatFormat.decode` says which value a bit pattern stands for, as an exact
dyadic number `m * 2 ^ q`; `FloatFormat.encode` finds the pattern nearest to
such a number, a tie going to the even significand. Arithmetic is done in
between, on exact numbers, so every operation rounds exactly once.
-/

namespace TypedCore

/-- A floating-point value: a finite one is `m * 2 ^ q`, with its sign apart. -/
inductive FloatValue where
  | nan
  | infinity (negative : Bool)
  | finite (negative : Bool) (m : Nat) (q : Int)
  deriving DecidableEq, Repr

/-- The field sizes of a format. -/
structure FloatFormat where
  exponentBits : Nat
  fractionBits : Nat
  deriving DecidableEq, Repr

namespace FloatFormat

def binary16 : FloatFormat := ⟨5, 10⟩

def binary32 : FloatFormat := ⟨8, 23⟩

def binary64 : FloatFormat := ⟨11, 52⟩

variable (f : FloatFormat)

/-- The exponent of the smallest positive value, and of the step near zero. -/
def minExponent : Int := 2 - (1 <<< (f.exponentBits - 1) : Nat) - f.fractionBits

def signWeight : Nat := 1 <<< (f.exponentBits + f.fractionBits)

/-- The pattern of positive infinity, above every finite pattern. -/
def infinityPattern : Nat := ((1 <<< f.exponentBits) - 1) <<< f.fractionBits

/-- The pattern of the quiet NaN that arithmetic yields. -/
def nanPattern : Nat := f.infinityPattern + 1 <<< (f.fractionBits - 1)

def decode (bits : Nat) : FloatValue :=
  let negative := bits / f.signWeight % 2 == 1
  let exponent := bits >>> f.fractionBits % (1 <<< f.exponentBits)
  let fraction := bits % (1 <<< f.fractionBits)
  if exponent = (1 <<< f.exponentBits) - 1 then
    if fraction = 0 then .infinity negative else .nan
  else if exponent = 0 then .finite negative fraction f.minExponent
  else .finite negative (1 <<< f.fractionBits + fraction) (f.minExponent + (exponent - 1 : Nat))

/-- `m / 2 ^ k` rounded to the nearest whole number, a tie to the even one. -/
def roundShift (m k : Nat) : Nat :=
  let kept := m >>> k
  let rest := m % (1 <<< k)
  if 1 <<< k < 2 * rest ∨ (2 * rest = 1 <<< k ∧ kept % 2 = 1) then kept + 1 else kept

/-- The pattern of the magnitude nearest to `m * 2 ^ q`. The step is the least
one that leaves no more than a significand's worth of bits; a significand
that rounds up to the next power of two carries into the exponent field by
itself, and past the largest finite value into infinity. -/
def encodeMagnitude (m : Nat) (q : Int) : Nat :=
  let step := max (q + (m.log2 - f.fractionBits : Int)) f.minExponent
  let significand :=
    if step ≤ q then m <<< (q - step).toNat else roundShift m (step - q).toNat
  if m = 0 then 0
  else min ((step - f.minExponent).toNat <<< f.fractionBits + significand) f.infinityPattern

/-- The bit pattern nearest to a value. -/
def encode : FloatValue → Nat
  | .nan => f.nanPattern
  | .infinity negative => negative.toNat * f.signWeight + f.infinityPattern
  | .finite negative m q => negative.toNat * f.signWeight + f.encodeMagnitude m q

end FloatFormat

/-! ## Exact arithmetic -/

namespace FloatValue

def negate : FloatValue → FloatValue
  | nan => nan
  | infinity negative => infinity !negative
  | finite negative m q => finite (!negative) m q

/-- A whole number; zero is positive. -/
def ofInt (i : Int) : FloatValue := finite (decide (i < 0)) i.natAbs 0

/-- The signed number of steps of `2 ^ step` in `m * 2 ^ q`, for `step` not above `q`. -/
def units (negative : Bool) (m : Nat) (q step : Int) : Int :=
  let steps : Int := (m <<< (q - step).toNat : Nat)
  if negative then -steps else steps

/-- The exact sum. A sum of zero is negative only if both operands are. -/
def add : FloatValue → FloatValue → FloatValue
  | nan, _ | _, nan => nan
  | infinity s, infinity t => if s = t then infinity s else nan
  | infinity s, finite .. => infinity s
  | finite .., infinity t => infinity t
  | finite s m q, finite t n r =>
    let step := min q r
    let total := units s m q step + units t n r step
    if total = 0 then finite (s && t) 0 step else finite (decide (total < 0)) total.natAbs step

def mul : FloatValue → FloatValue → FloatValue
  | nan, _ | _, nan => nan
  | infinity s, infinity t => infinity (s ^^ t)
  | infinity s, finite t n _ => if n = 0 then nan else infinity (s ^^ t)
  | finite s m _, infinity t => if m = 0 then nan else infinity (s ^^ t)
  | finite s m q, finite t n r => finite (s ^^ t) (m * n) (q + r)

/-- A number strictly between `r * 2 ^ q` and the next multiple of `2 ^ q` if
`inexact`, else `r * 2 ^ q` itself. The halfway point stands for the ones
in between: rounding to fewer bits than `r` has cannot tell them apart. -/
def between (negative : Bool) (r : Nat) (inexact : Bool) (q : Int) : FloatValue :=
  finite negative (2 * r + inexact.toNat) (q - 1)

/-- The quotient, to at least `bits` bits and a mark of what is left. -/
def div (bits : Nat) : FloatValue → FloatValue → FloatValue
  | nan, _ | _, nan => nan
  | infinity _, infinity _ => nan
  | infinity s, finite t .. => infinity (s ^^ t)
  | finite s .., infinity t => finite (s ^^ t) 0 0
  | finite s m q, finite t n r =>
    if n = 0 then (if m = 0 then nan else infinity (s ^^ t))
    else
      let scale := bits + n.log2 + 1
      between (s ^^ t) (m <<< scale / n) (m <<< scale % n != 0) (q - r - scale)

/-- The whole part of the square root of a number below `4 ^ pairs`. -/
def isqrt : (pairs : Nat) → Nat → Nat
  | 0, _ => 0
  | pairs + 1, n =>
    let r := 2 * isqrt pairs (n / 4)
    if (r + 1) * (r + 1) ≤ n then r + 1 else r

/-- The square root, to at least `bits` bits and a mark of what is left. The root
of minus zero is minus zero. -/
def sqrt (bits : Nat) : FloatValue → FloatValue
  | nan => nan
  | infinity s => if s then nan else infinity false
  | finite s m q =>
    if m = 0 then finite s 0 q
    else if s then nan
    else
      let scale := 2 * bits + (q % 2).toNat
      let n := m <<< scale
      let r := isqrt (n.log2 / 2 + 1) n
      between false r (r * r != n) ((q - scale) / 2)

/-- The order of two values; a NaN has no place in it. -/
def compare? : FloatValue → FloatValue → Option Ordering
  | nan, _ | _, nan => none
  | infinity s, infinity t => some (compare (!s).toNat (!t).toNat)
  | infinity s, finite .. => some (if s then .lt else .gt)
  | finite .., infinity t => some (if t then .gt else .lt)
  | finite s m q, finite t n r =>
    let step := min q r
    some (compare (units s m q step) (units t n r step))

/-- The whole number next to a value in the direction of zero, and the nearer
bound if that is out of range. A NaN becomes zero. -/
def truncateClamped (lo hi : Int) : FloatValue → Int
  | nan => 0
  | infinity s => if s then lo else hi
  | finite s m q =>
    let whole : Int := if 0 ≤ q then (m <<< q.toNat : Nat) else (m >>> (-q).toNat : Nat)
    max lo (min hi (if s then -whole else whole))

end FloatValue

end TypedCore
