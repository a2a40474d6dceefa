/-!
# Rendering numbers and columns

Assembly text, trace lines and reports write numbers in decimal or in
lowercase hexadecimal and line some of them up in columns.
-/

namespace TypedCore.Text

def hex (n : Nat) : String := String.ofList (Nat.toDigits 16 n)

/-- A string filled up on the left to `width` characters. -/
def padLeft (fill : Char) (width : Nat) (s : String) : String :=
  "".pushn fill (width - s.length) ++ s

/-- A string filled up with blanks on the right to `width` characters. -/
def padRight (width : Nat) (s : String) : String := s.pushn ' ' (width - s.length)

/-- A number in hexadecimal with at least `width` digits. -/
def hexPadded (width n : Nat) : String := padLeft '0' width (hex n)

def dec (n : Nat) : String := n.repr

/-- A signed number in decimal, with a minus sign if it is negative. -/
def signedDec : Int → String
  | .ofNat n => dec n
  | .negSucc n => "-" ++ dec (n + 1)

/-- A number in decimal followed by the same number in hexadecimal: `10 (0xa)`. -/
def decHex (n : Nat) : String := dec n ++ " (0x" ++ hex n ++ ")"

end TypedCore.Text
