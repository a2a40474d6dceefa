import TypedCore.Text
import TypedCore.Word

/-!
# Register types

Every register carries a 4-bit type beside its 32-bit value. The type says
how an operation splits the value into lanes and what arithmetic those
lanes follow; the value itself is never touched by a change of type.

All sixteen codes are types: the six codes without a meaning of their own
can be stored, read back and printed, they only refuse arithmetic.
-/

namespace TypedCore

/-- The type of a register. -/
inductive RegType where
  | int32
  | fp32
  | int16x2
  | int8x4
  | uint16x2s
  | sint16x2s
  | uint8x4s
  | sint8x4s
  | fp16x2
  /-- Codes 9 to 14, counted from 0. -/
  | reserved (slot : Fin 6)
  | mask
  deriving DecidableEq, Repr

namespace RegType

def code : RegType → BitVec 4
  | int32 => 0
  | fp32 => 1
  | int16x2 => 2
  | int8x4 => 3
  | uint16x2s => 4
  | sint16x2s => 5
  | uint8x4s => 6
  | sint8x4s => 7
  | fp16x2 => 8
  | reserved slot => BitVec.ofNat 4 (9 + slot.val)
  | mask => 15

def ofCode (c : BitVec 4) : RegType :=
  match c.toNat with
  | 0 => int32
  | 1 => fp32
  | 2 => int16x2
  | 3 => int8x4
  | 4 => uint16x2s
  | 5 => sint16x2s
  | 6 => uint8x4s
  | 7 => sint8x4s
  | 8 => fp16x2
  | 9 => reserved 0
  | 10 => reserved 1
  | 11 => reserved 2
  | 12 => reserved 3
  | 13 => reserved 4
  | 14 => reserved 5
  | _ => mask

/-- The type whose code is the low nibble of a word; the other bits are ignored. -/
def ofWord (w : Word) : RegType := ofCode (w.setWidth 4)

@[simp] theorem ofCode_code (t : RegType) : ofCode t.code = t := by
  cases t with
  | reserved slot => revert slot; decide
  | _ => rfl

@[simp] theorem code_ofCode (c : BitVec 4) : (ofCode c).code = c := by
  revert c; decide

/-- The assembler name of a type; a type without a meaning is named by its code. -/
def name : RegType → String
  | int32 => "int32"
  | fp32 => "fp32"
  | int16x2 => "int16x2"
  | int8x4 => "int8x4"
  | uint16x2s => "uint16x2s"
  | sint16x2s => "sint16x2s"
  | uint8x4s => "uint8x4s"
  | sint8x4s => "sint8x4s"
  | fp16x2 => "fp16x2"
  | reserved slot => "type" ++ Text.dec (9 + slot.val)
  | mask => "mask"

/-- Types whose lanes are floating-point numbers. -/
def isFloat : RegType → Bool
  | fp32 | fp16x2 => true
  | _ => false

end RegType

end TypedCore
