import TypedCore.Encoding.Length
import TypedCore.Insn.Basic
import TypedCore.Text

/-!
# Encoding templates

A template is one row of the encoding table: what it asks of the four
nibbles of an instruction word, and how it reads an instruction out of the
word and its extension. A nibble that holds a register is written `.`; it
may be anything but 15, which is the escape to an extension operand.
-/

namespace TypedCore

/-- What a template asks of a nibble. -/
inductive NibblePattern where
  | exactly (n : Nat)
  /-- A register or a small number: anything but 15. -/
  | operand
  | any
  deriving DecidableEq, Repr

namespace NibblePattern

instance (n : Nat) : OfNat NibblePattern n := ⟨exactly n⟩

def accepts : NibblePattern → Nat → Bool
  | exactly n, x => x == n
  | operand, x => x != 15
  | any, _ => true

/-- The character of a pattern in the encoding table. -/
def symbol : NibblePattern → String
  | exactly n => Text.hex n
  | operand => "."
  | any => "*"

end NibblePattern

/-- A row of the encoding table. -/
structure Template where
  fieldC : NibblePattern
  fieldB : NibblePattern
  fieldA : NibblePattern
  fieldD : NibblePattern
  /-- Reads the instruction out of the word and the extension. -/
  build : Half → Word → Insn

namespace Template

def accepts (t : Template) (w : Half) : Bool :=
  t.fieldC.accepts w.fieldC && t.fieldB.accepts w.fieldB && t.fieldA.accepts w.fieldA &&
    t.fieldD.accepts w.fieldD

/-- The row's pattern in the order C, B, A, D. -/
def pattern (t : Template) : String :=
  t.fieldC.symbol ++ t.fieldB.symbol ++ t.fieldA.symbol ++ t.fieldD.symbol

end Template

end TypedCore
