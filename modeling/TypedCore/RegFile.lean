import TypedCore.HostFault
import TypedCore.RegType

/-!
# The register file

Fifteen typed registers, `$r0` to `$r14`. Index 15 is an escape in the
encoding and never names a register: reading it gives an untyped zero and
writing it is a fault of the simulator, not of the guest.
-/

namespace TypedCore

/-- A 32-bit value together with its type. -/
structure TypedWord where
  value : Word := 0
  type : RegType := .int32
  deriving DecidableEq, Repr

namespace TypedWord

/-- A value of type `int32`. -/
def int (value : Word) : TypedWord := ⟨value, .int32⟩

def withType (r : TypedWord) (type : RegType) : TypedWord := ⟨r.value, type⟩

/-- The value in eight hexadecimal digits and the type name. -/
def text (r : TypedWord) : String :=
  "0x" ++ Text.hexPadded 8 r.value.toNat ++ " (" ++ r.type.name ++ ")"

end TypedWord

def regName : Nat → String
  | 12 => "$fp"
  | 13 => "$sp"
  | 14 => "$lr"
  | i => if i < 12 then "$r" ++ Text.dec i else "<<<INVALID>>>"

/-- The fifteen general-purpose registers. -/
structure RegFile where
  slots : Vector TypedWord 15 := Vector.replicate 15 {}
  deriving DecidableEq, Repr

namespace RegFile

/-- The contents of register `i`; an untyped zero if there is no such register. -/
def read (f : RegFile) (i : Nat) : TypedWord := f.slots[i]?.getD {}

def set (f : RegFile) (i : Nat) (r : TypedWord) : RegFile := ⟨f.slots.setIfInBounds i r⟩

/-- Writes register `i`, and says whether its value or type changed. -/
def write (f : RegFile) (i : Nat) (r : TypedWord) : Except HostFault (RegFile × Bool) :=
  if i < 15 then .ok (f.set i r, f.read i != r) else .error (.reservedRegister i)

theorem read_set (f : RegFile) (i j : Nat) (r : TypedWord) :
    (f.set i r).read j = if i = j ∧ j < 15 then r else f.read j := by
  unfold set read
  by_cases hij : i = j
  · subst hij
    by_cases hi : i < 15
    · simp [hi]
    · simp [hi]
  · by_cases hj : j < 15
    · simp [hij, hj]
    · simp [hj]

def toList (f : RegFile) : List TypedWord := f.slots.toList

/-- The register table, three registers a line, as printed when a run breaks off. -/
def dump (f : RegFile) : List String :=
  (List.range 5).map fun row =>
    "   ".intercalate <| (List.range 3).map fun col =>
      Text.padLeft ' ' 5 (regName (3 * row + col)) ++ " = " ++ (f.read (3 * row + col)).text

end RegFile

end TypedCore
