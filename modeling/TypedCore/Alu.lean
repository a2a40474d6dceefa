import TypedCore.Lane.Compare

/-!
# The arithmetic unit

Operations on typed registers. Bitwise operations see the whole word and
are defined for every type; the others follow the lanes of the first
operand. A binary instruction also checks that its operands are of kinds
that go together.
-/

namespace TypedCore

/-- What an operand is to a binary instruction. -/
inductive OperandKind where
  | unsigned
  | signed
  | float
  deriving DecidableEq, Repr

def RegType.kind : RegType → OperandKind
  | fp32 | fp16x2 => .float
  | sint16x2s | sint8x4s => .signed
  | _ => .unsigned

/-- The kinds of the result and of the two operands of a binary instruction. -/
structure OperandKinds where
  dest : OperandKind
  first : OperandKind
  second : OperandKind
  deriving DecidableEq, Repr

namespace OperandKinds

/-- The kinds that an operation gives to operands of two types. Only arithmetic
looks at the types. -/
def ofTypes (op : BinaryOp) (a b : RegType) : OperandKinds :=
  match op with
  | .add | .sub | .mul => ⟨a.kind, a.kind, b.kind⟩
  | .shiftRightSigned => ⟨.signed, .signed, .unsigned⟩
  | _ => ⟨.unsigned, .unsigned, .unsigned⟩

/-- Whether kinds go together: numbers with floating-point numbers never do, and
an unsigned first operand takes an unsigned second one. -/
def compatible (k : OperandKinds) : Bool :=
  k == ⟨.unsigned, .unsigned, .unsigned⟩ || k == ⟨.signed, .signed, .unsigned⟩ ||
    k == ⟨.signed, .signed, .signed⟩ || k == ⟨.float, .float, .float⟩

/-- Raises `type` unless the kinds go together. -/
def check (k : OperandKinds) : Except Cause Unit :=
  if k.compatible then .ok () else .error .type

end OperandKinds

namespace Alu

/-- A bitwise operation; the result has the type of the first operand. -/
def logic (op : BinaryOp) (a b : TypedWord) : TypedWord :=
  let value :=
    match op with
    | .xor => a.value ^^^ b.value
    | .or => a.value ||| b.value
    | _ => a.value &&& b.value
  ⟨value, a.type⟩

/-- The second operand with the bits of the first cleared. -/
def andNot (a b : TypedWord) : TypedWord := ⟨~~~a.value &&& b.value, a.type⟩

def binary (op : BinaryOp) (a b : TypedWord) : Except Cause TypedWord :=
  match op with
  | .xor | .or | .and => .ok (logic op a b)
  | .add | .sub | .mul => Lane.arithmetic op a b
  | .shiftLeft | .shiftRight | .shiftRightSigned => Lane.shift op a b

/-- A binary operation of operands whose kinds go together. -/
def binaryChecked (op : BinaryOp) (a b : TypedWord) : Except Cause TypedWord := do
  (OperandKinds.ofTypes op a.type b.type).check
  binary op a b

def unary (op : UnaryOp) (a : TypedWord) : Except Cause TypedWord :=
  match op with
  | .neg => Lane.neg a
  | .not => .ok ⟨~~~a.value, a.type⟩
  | .signByte => .ok ⟨a.value.signedByte, a.type⟩
  | .signHalf => .ok ⟨a.value.signedHalf, a.type⟩
  | .toFloat => Lane.toFloat a
  | .toInt => Lane.toInt a
  | .recip => Lane.mapSingles Single.recip a
  | .rsqrt => Lane.mapSingles Single.rsqrt a
  | .sum => Lane.sum a

end Alu

end TypedCore
