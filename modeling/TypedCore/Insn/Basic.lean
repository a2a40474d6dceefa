import TypedCore.Cause
import TypedCore.RegType

/-!
# Instructions

The instruction set as data. An `Insn` says what an instruction does and
to which registers, with every immediate already read out of the encoding;
the executor, the assembly text and the profiling class are functions of
it. Registers are numbered, and no encoding yields a number above 14.
-/

namespace TypedCore

/-- Which program counter an instruction reads or writes. -/
inductive PcRef where
  /-- `$pc`: the program counter of the current mode. -/
  | active
  /-- `$tpc`: the program counter of task mode. -/
  | task
  deriving DecidableEq, Repr

def PcRef.name : PcRef → String
  | active => "$pc"
  | task => "$tpc"

/-! ## Conditions -/

/-- A comparison of two values. -/
inductive Cond where
  | eq
  | ne
  | lt
  | ge
  | gt
  | le
  deriving DecidableEq, Repr

namespace Cond

/-- The condition that a compare with zero selects by its code. -/
def ofZeroCode? : Nat → Option Cond
  | 0 => some eq
  | 1 => some ne
  | 2 => some lt
  | 3 => some ge
  | 4 => some gt
  | 5 => some le
  | _ => none

/-- The condition and the signedness that a compare of two registers selects by its code. -/
def ofRegCode? : Nat → Option (Cond × Bool)
  | 1 => some (eq, false)
  | 2 => some (ne, false)
  | 3 => some (lt, true)
  | 4 => some (ge, true)
  | 5 => some (lt, false)
  | 6 => some (ge, false)
  | _ => none

def symbol : Cond → String
  | eq => "=="
  | ne => "!="
  | lt => "<"
  | ge => ">="
  | gt => ">"
  | le => "<="

/-- Whether a condition holds of two integers. -/
def holds (c : Cond) (x y : Int) : Bool :=
  match c with
  | eq => x == y
  | ne => x != y
  | lt => x < y
  | ge => y ≤ x
  | gt => y < x
  | le => x ≤ y

end Cond

/-- A lane-wise comparison of a register with another one, or with zero. -/
structure Comparison where
  cond : Cond
  /-- Integer lanes are read as signed numbers. -/
  signed : Bool
  left : Nat
  /-- `none` compares with zero. -/
  right : Option Nat
  /-- The register whose type gives the lanes. -/
  typedBy : Nat
  deriving DecidableEq, Repr

/-! ## Operations -/

/-- An operation on one register. -/
inductive UnaryOp where
  | neg
  | not
  /-- Sign-extends the low byte. -/
  | signByte
  /-- Sign-extends the low halfword. -/
  | signHalf
  | toFloat
  | toInt
  | recip
  | rsqrt
  /-- Adds up the lanes. -/
  | sum
  deriving DecidableEq, Repr

/-- An operation on two registers. -/
inductive BinaryOp where
  | xor
  | or
  | and
  | add
  | sub
  | shiftLeft
  | shiftRight
  | shiftRightSigned
  | mul
  deriving DecidableEq, Repr

namespace BinaryOp

/-- The operation that the opcode field selects. -/
def ofField? : Nat → Option BinaryOp
  | 1 => some xor
  | 2 => some or
  | 3 => some and
  | 4 => some add
  | 5 => some sub
  | 6 => some shiftLeft
  | 7 => some shiftRight
  | 8 => some shiftRightSigned
  | 9 => some mul
  | _ => none

def symbol : BinaryOp → String
  | xor => "^"
  | or => "|"
  | and => "&"
  | add => "+"
  | sub => "-"
  | shiftLeft => "<<"
  | shiftRight => ">>"
  | shiftRightSigned => ">>>"
  | mul => "*"

end BinaryOp

/-- The first operand of a binary operation. -/
inductive Operand where
  | reg (r : Nat)
  /-- A number from the encoding, which takes the type of the other operand.
  The short form was 16 bits wide and is already extended. -/
  | imm (value : Word) (short : Bool)
  deriving DecidableEq, Repr

/-! ## Memory -/

/-- What a load or store does. -/
inductive MemOp where
  | load (width : Width) (signed : Bool)
  | loadLinked
  | store (width : Width)
  | storeConditional
  deriving DecidableEq, Repr

namespace MemOp

/-- The operation that a load or store code selects. -/
def ofCode? : Nat → Option MemOp
  | 0 => some (load .byte false)
  | 1 => some (load .half false)
  | 2 => some (load .word false)
  | 3 => some (load .byte true)
  | 4 => some (load .half true)
  | 5 => some (store .byte)
  | 6 => some (store .half)
  | 7 => some (store .word)
  | 8 => some loadLinked
  | 9 => some storeConditional
  | _ => none

def width : MemOp → Width
  | load w _ => w
  | store w => w
  | loadLinked | storeConditional => .word

def isStore : MemOp → Bool
  | store _ | storeConditional => true
  | _ => false

/-- How assembly text marks the reference. -/
def mnemonic : MemOp → String
  | load .byte true => "smem8"
  | load .half true => "smem16"
  | load .byte false | store .byte => "mem8"
  | load .half false | store .half => "mem16"
  | load .word _ | store .word => "mem32"
  | loadLinked => "memll32"
  | storeConditional => "memsr32"

end MemOp

/-- The address of a memory access: a base register, a displacement, or both.
Every encoding gives at least one of them. -/
structure MemRef where
  base : Option Nat := none
  offset : Option Word := none
  /-- The displacement came from the compact frame-relative form. -/
  tiny : Bool := false
  deriving DecidableEq, Repr

namespace MemRef

def ofBase (r : Nat) : MemRef := ⟨some r, none, false⟩

def ofBaseOffset (r : Nat) (offset : Word) : MemRef := ⟨some r, some offset, false⟩

def ofAddress (addr : Word) : MemRef := ⟨none, some addr, false⟩

end MemRef

/-- One half of the register file, as the bulk type transfers see it. -/
inductive RegHalf where
  /-- `$r0` to `$r7`. -/
  | low
  /-- `$r8` to `$r14`. -/
  | high
  deriving DecidableEq, Repr

namespace RegHalf

/-- The first register of a half. -/
def first : RegHalf → Nat
  | low => 0
  | high => 8

/-- How many registers a half has: the high one lacks index 15. -/
def size : RegHalf → Nat
  | low => 8
  | high => 7

def regs (h : RegHalf) : List Nat := (List.range h.size).map (h.first + ·)

end RegHalf

/-! ## Instructions -/

/-- An instruction. -/
inductive Insn where
  /-- An encoding without a meaning. -/
  | unknown
  /-- `fill`, `break`, `syscall`, `swi n` and `sii`: raises its cause. -/
  | interrupt (cause : Cause)
  /-- `stm`: enters task mode. -/
  | enterTask
  /-- `woi`: waits for an interrupt. -/
  | waitForInterrupt
  /-- `fence`: a bit of `flags` is clear for each kind of access it orders. -/
  | fence (flags : Nat)
  /-- `$pc <- $rD` and `$tpc <- $rD`. -/
  | jumpReg (target : PcRef) (rd : Nat)
  /-- `$pc <- n` and `$tpc <- n`. -/
  | jumpImm (target : PcRef) (addr : Word) (short : Bool)
  /-- `$rD <- $pc` and `$rD <- $tpc`. -/
  | readPc (rd : Nat) (source : PcRef)
  /-- `$rD <- n`: the type of `$rD` stays. -/
  | loadImm (rd : Nat) (value : Word) (short : Bool)
  /-- `$rD <- tiny n`: the type of `$rD` stays. -/
  | tinyImm (rd : Nat) (value : Int)
  /-- `$rD <- $pc + n`. -/
  | link (rd : Nat) (offset : Word)
  | unary (op : UnaryOp) (rd ra : Nat)
  /-- `type $rD <- $rA`: the new type is the value of `$rA`. -/
  | setTypeReg (rd ra : Nat)
  /-- `$rD <- type $rA`. -/
  | getType (rd ra : Nat)
  /-- `type $rD <- t`. -/
  | setTypeImm (rd : Nat) (type : RegType)
  | binary (op : BinaryOp) (rd : Nat) (lhs : Operand) (rhs : Nat)
  /-- `$rD <- ~$rA & $rB`. -/
  | andNot (rd ra rb : Nat)
  /-- `$rD <- tiny $rB + n`. -/
  | tinyAdd (rd rb : Nat) (value : Int)
  /-- Sets the types of half the registers from the nibbles of `types`. -/
  | loadTypes (half : RegHalf) (types : Word)
  /-- `$rD <- lane_swizzle $rA pattern`: two bits select each byte. -/
  | swizzle (rd ra : Nat) (pattern : Byte)
  | memory (op : MemOp) (reg : Nat) (mem : MemRef)
  /-- `inv32[...]`: drops a cache line. -/
  | invalidate (mem : MemRef)
  /-- `$pc <- mem32[...]` and `$tpc <- mem32[...]`. -/
  | jumpMem (target : PcRef) (mem : MemRef)
  | loadTypesMem (half : RegHalf) (mem : MemRef)
  | storeTypesMem (half : RegHalf) (mem : MemRef)
  /-- `if ... $pc <- $pc + n`: branches if a lane, or every lane, meets the comparison. -/
  | branch (cmp : Comparison) (allLanes : Bool) (offset : Int)
  /-- `if $rX[bit] == v $pc <- $pc + n`. -/
  | bitBranch (reg bit : Nat) (set : Bool) (offset : Int)
  /-- `$rD <- full $rA * $rB >> n`: a window of the double-width product. -/
  | fullMul (rd ra rb shift : Nat) (signed : Bool)
  /-- `$rD <- ... cond ...`: the mask of the lanes that meet the comparison. -/
  | laneCompare (rd : Nat) (cmp : Comparison)
  | interpolate (rd ra rb : Nat)
  /-- `$rD <- csr[n]`. -/
  | csrRead (rd : Nat) (addr : Word)
  /-- `csr[n] <- $rD`. -/
  | csrWrite (rd : Nat) (addr : Word)
  deriving DecidableEq, Repr

end TypedCore
