import TypedCore.Insn.Basic

/-!
# Instruction classes

The buckets of the execution profile. The order of the constructors is the
order of the report.
-/

namespace TypedCore

/-- The kind of work an instruction does. -/
inductive InsnClass where
  | unknown
  | exception
  | atomic
  | move
  | immediate
  | bit
  | logic
  | arithmetic
  | shift
  | multiply
  | floatingPoint
  | load
  | store
  | branch
  | condBranch
  | condBranchZero
  | condBranchBit
  | type
  | vector
  | link
  | power
  | nop
  deriving DecidableEq, Repr

namespace InsnClass

/-- Every class, in the order of the report. -/
def all : List InsnClass :=
  [unknown, exception, atomic, move, immediate, bit, logic, arithmetic, shift, multiply,
    floatingPoint, load, store, branch, condBranch, condBranchZero, condBranchBit, type,
    vector, link, power, nop]

def index : InsnClass → Fin 22
  | unknown => 0
  | exception => 1
  | atomic => 2
  | move => 3
  | immediate => 4
  | bit => 5
  | logic => 6
  | arithmetic => 7
  | shift => 8
  | multiply => 9
  | floatingPoint => 10
  | load => 11
  | store => 12
  | branch => 13
  | condBranch => 14
  | condBranchZero => 15
  | condBranchBit => 16
  | type => 17
  | vector => 18
  | link => 19
  | power => 20
  | nop => 21

def name : InsnClass → String
  | unknown => "unknown"
  | exception => "exception/syscall"
  | atomic => "atomic"
  | move => "move"
  | immediate => "load immediate"
  | bit => "bit manipulation"
  | logic => "logic"
  | arithmetic => "arithmetic"
  | shift => "shift"
  | multiply => "multiply"
  | floatingPoint => "floating point"
  | load => "load"
  | store => "store"
  | branch => "unconditional branch"
  | condBranch => "conditional branch"
  | condBranchZero => "conditional branch with 0"
  | condBranchBit => "bit-test conditional branch"
  | type => "type manipulation"
  | vector => "vector specific"
  | link => "link setup"
  | power => "power management"
  | nop => "nop"

end InsnClass

def BinaryOp.insnClass : BinaryOp → InsnClass
  | xor | or | and => .logic
  | add | sub => .arithmetic
  | shiftLeft | shiftRight | shiftRightSigned => .shift
  | mul => .multiply

def UnaryOp.insnClass : UnaryOp → InsnClass
  | neg | sum => .arithmetic
  | not | signByte | signHalf => .bit
  | toFloat | toInt | recip | rsqrt => .floatingPoint

def MemOp.insnClass : MemOp → InsnClass
  | loadLinked | storeConditional => .atomic
  | load .. => .load
  | store _ => .store

/-- The class of an instruction. A jump that sets `$tpc` from a register is a
move: it does not leave the current path. -/
def Insn.insnClass : Insn → InsnClass
  | unknown => .unknown
  | interrupt _ => .exception
  | enterTask | jumpImm .. | jumpMem .. | jumpReg .active _ => .branch
  | waitForInterrupt => .power
  | fence _ | invalidate _ => .atomic
  | jumpReg .task _ | readPc .. | csrRead .. | csrWrite .. => .move
  | loadImm .. => .immediate
  | tinyImm .. | tinyAdd .. => .arithmetic
  | link .. => .link
  | unary op .. => op.insnClass
  | setTypeReg .. | getType .. | setTypeImm .. | loadTypes .. | loadTypesMem ..
  | storeTypesMem .. => .type
  | binary op .. => op.insnClass
  | andNot .. => .bit
  | swizzle .. | laneCompare .. | interpolate .. => .vector
  | memory op .. => op.insnClass
  | branch cmp .. => if cmp.right.isNone then .condBranchZero else .condBranch
  | bitBranch .. => .condBranchBit
  | fullMul .. => .multiply

end TypedCore
