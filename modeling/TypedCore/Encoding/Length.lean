import TypedCore.Word

/-!
# The length rule

An instruction is a 16-bit word, alone or followed by an extension of 16
or 32 bits. The word alone decides which: the value 15 in field A, B or D
announces an operand that does not fit, and the five top bits all set
announce the long memory group.
-/

namespace TypedCore

namespace Half

def topFive (w : Half) : Nat := w.toNat / 2048

/-- The long memory group, whose words always carry an extension. -/
def isLongGroup (w : Half) : Bool := w.topFive == 31

def isExtended (w : Half) : Bool :=
  w.fieldA == 15 || w.fieldB == 15 || w.fieldD == 15 || w.isLongGroup

/-- Whether the extension has 32 bits rather than 16. Outside the long group
field D has the last word: 15 there is a branch, whose displacement is short. -/
def isWide (w : Half) : Bool :=
  w.fieldA == 15 && (w.isLongGroup || w.fieldD != 15)

/-- The length of an instruction in bytes, given its first word. -/
def insnLength (w : Half) : Nat :=
  if w.isExtended then (if w.isWide then 6 else 4) else 2

theorem insnLength_cases (w : Half) :
    w.insnLength = 2 ∨ w.insnLength = 4 ∨ w.insnLength = 6 := by
  unfold insnLength
  split
  · split <;> simp
  · simp

end Half

/-- The part of an extension that belongs to an instruction of a given length. -/
def cutExtension (len : Nat) (ext : Word) : Word :=
  match len with
  | 2 => 0
  | 4 => (ext.setWidth 16).setWidth 32
  | _ => ext

end TypedCore
