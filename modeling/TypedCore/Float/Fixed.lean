import TypedCore.Float.Format
import TypedCore.Text

/-!
# Numbers with a fixed number of places

A report shows a share as a percentage with two places. The share is
computed in double precision, each step rounded, and the text is the exact
value of the double rounded once more, a tie going to the even last digit.
-/

namespace TypedCore

/-- A number in decimal with a given number of places after the point. -/
def FloatValue.fixed (places : Nat) : FloatValue → String
  | nan => "NaN"
  | infinity s => if s then "-inf" else "inf"
  | finite s m q =>
    let unit := Nat.pow 10 places
    let scaled := m * unit
    let n := if 0 ≤ q then scaled <<< q.toNat else FloatFormat.roundShift scaled (-q).toNat
    let point := if places = 0 then "" else "." ++ Text.padLeft '0' places (Text.dec (n % unit))
    (if s then "-" else "") ++ Text.dec (n / unit) ++ point

namespace Double

/-- The value of the double nearest to a value. -/
def round (v : FloatValue) : FloatValue := FloatFormat.binary64.decode (FloatFormat.binary64.encode v)

/-- Bits enough to round a quotient correctly. -/
def workingBits : Nat := 55

/-- How many hundredths of `total` make up `n`. -/
def percentage (n total : Nat) : FloatValue :=
  let share := round ((round (.ofInt n)).div workingBits (round (.ofInt total)))
  round (share.mul (.ofInt 100))

end Double

end TypedCore
