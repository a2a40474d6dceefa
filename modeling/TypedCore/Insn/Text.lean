import TypedCore.Encoding.Decode
import TypedCore.HostFault
import TypedCore.RegFile

/-!
# Assembly text

The text of an instruction, in the notation that an assembler for the
machine reads. Numbers that are addresses or bit patterns are written in
decimal with the hexadecimal form in parentheses.
-/

namespace TypedCore

/-- The mark of a 16-bit immediate. -/
def shortMark (short : Bool) : String := if short then "short " else ""

/-- A memory reference after its mnemonic. A displacement from a register is
written with its sign; an address by itself is not. -/
def MemRef.text (mem : MemRef) (mnemonic : String) : Except HostFault String :=
  let tiny := if mem.tiny then "tiny " else ""
  match mem.base, mem.offset with
  | some base, some offset =>
    let amount := tiny ++ Text.decHex offset.toInt.natAbs
    let sign := if offset.toInt < 0 then " - " else " + "
    .ok (mnemonic ++ "[" ++ regName base ++ sign ++ amount ++ "]")
  | some base, none => .ok (mnemonic ++ "[" ++ regName base ++ "]")
  | none, some addr => .ok (mnemonic ++ "[" ++ Text.decHex addr.toNat ++ "]")
  | none, none => .error .noMemoryOperand

/-- A comparison. Only an ordering of two registers says that it is signed:
equality is the same either way, and a comparison with zero always is. -/
def Comparison.text (cmp : Comparison) : String :=
  let ordered := cmp.cond != .eq && cmp.cond != .ne
  let mark := if cmp.signed && cmp.right.isSome && ordered then "signed " else ""
  let right := (cmp.right.map regName).getD "0"
  mark ++ regName cmp.left ++ " " ++ cmp.cond.symbol ++ " " ++ right

/-- The target of a branch, relative to the branch itself. -/
def branchText (offset : Int) : String :=
  " $pc <- $pc " ++ (if offset < 0 then "- " else "+ ") ++ Text.decHex offset.natAbs

/-- The kinds of access that a fence orders, before and after it: reads and writes. -/
def fenceText (flags : Nat) : String :=
  let mark (bit : Nat) (letter : String) : String := if flags.testBit bit then "" else letter
  "fence " ++ mark 0 "r" ++ mark 1 "w" ++ ", " ++ mark 2 "r" ++ mark 3 "w"

def interruptText : Cause → String
  | .fill => "fill"
  | .breakpoint => "break"
  | .syscall => "syscall"
  | .swi3 => "swi 3"
  | .swi4 => "swi 4"
  | .swi5 => "swi 5"
  | .swi6 => "swi 6"
  | _ => "sii"

/-- What stands before the operand of a unary operation. -/
def UnaryOp.mark : UnaryOp → String
  | neg => "-"
  | not => "~"
  | signByte => "bsi "
  | signHalf => "wsi "
  | toFloat => "float "
  | toInt => "int "
  | recip => "1 / "
  | rsqrt => "rsqrt "
  | sum => "sum "

def RegHalf.text : RegHalf → String
  | low => "$r0...$r7"
  | high => "$r8...$r14"

/-- The type that nibble `i` of a word stands for. -/
def nibbleType (types : Word) (i : Nat) : RegType := .ofWord (types >>> (4 * i))

/-- The source byte of each byte of a swizzle, the highest first. -/
def swizzleText (pattern : Byte) : String :=
  String.join <| [3, 2, 1, 0].map fun i => Text.dec (pattern.toNat >>> (2 * i) % 4)

/-- An encoding without a meaning, word and extension in hexadecimal. -/
def unknownText (d : Decoded) : String :=
  let word := "unknown instruction 0x" ++ Text.hexPadded 4 d.word.toNat
  match d.len with
  | 2 => word
  | 4 => word ++ " 0x" ++ Text.hexPadded 4 d.ext.toNat
  | _ => word ++ " 0x" ++ Text.hexPadded 8 d.ext.toNat

/-- The first operand of a binary operation; an immediate is written as a signed number. -/
def Operand.text : Operand → String
  | reg r => regName r
  | imm value short =>
    shortMark short ++ Text.signedDec value.toInt ++ " (0x" ++ Text.hex value.toNat ++ ")"

/-- The assembly text of an instruction. Only a memory reference with neither
base nor displacement has none, and no encoding yields that. -/
def Decoded.text (d : Decoded) : Except HostFault String :=
  match d.insn with
  | .unknown => .ok (unknownText d)
  | .interrupt cause => .ok (interruptText cause)
  | .enterTask => .ok "stm"
  | .waitForInterrupt => .ok "woi"
  | .fence flags => .ok (fenceText flags)
  | .jumpReg target rd => .ok (target.name ++ " <- " ++ regName rd)
  | .jumpImm target addr short =>
    .ok (target.name ++ " <- " ++ shortMark short ++ Text.decHex addr.toNat)
  | .readPc rd source => .ok (regName rd ++ " <- " ++ source.name)
  | .loadImm rd value short =>
    .ok (regName rd ++ " <- " ++ shortMark short ++ Text.decHex value.toNat)
  | .tinyImm rd value => .ok (regName rd ++ " <- tiny " ++ Text.signedDec value)
  | .link rd offset => .ok (regName rd ++ " <- $pc + " ++ Text.decHex offset.toNat)
  | .unary op rd ra => .ok (regName rd ++ " <- " ++ op.mark ++ regName ra)
  | .setTypeReg rd ra => .ok ("type " ++ regName rd ++ " <- " ++ regName ra)
  | .getType rd ra => .ok (regName rd ++ " <- type " ++ regName ra)
  | .setTypeImm rd type => .ok ("type " ++ regName rd ++ " <- " ++ type.name)
  | .binary op rd lhs rhs =>
    .ok (regName rd ++ " <- " ++ lhs.text ++ " " ++ op.symbol ++ " " ++ regName rhs)
  | .andNot rd ra rb => .ok (regName rd ++ " <- ~" ++ regName ra ++ " & " ++ regName rb)
  | .tinyAdd rd rb value =>
    .ok (regName rd ++ " <- tiny " ++ regName rb ++ " + " ++ Text.signedDec value)
  | .loadTypes half types =>
    .ok ("type " ++ half.text ++ " <- " ++
      ", ".intercalate ((List.range half.size).map fun i => (nibbleType types i).name))
  | .swizzle rd ra pattern =>
    .ok (regName rd ++ " <- lane_swizzle " ++ regName ra ++ " " ++ swizzleText pattern)
  | .memory op reg mem => do
    let ref ← mem.text op.mnemonic
    return if op.isStore then ref ++ " <- " ++ regName reg else regName reg ++ " <- " ++ ref
  | .invalidate mem => mem.text "inv32"
  | .jumpMem target mem => do return target.name ++ " <- " ++ (← mem.text "mem32")
  | .loadTypesMem half mem => do return "type " ++ half.text ++ " <- " ++ (← mem.text "mem32")
  | .storeTypesMem half mem => do return (← mem.text "mem32") ++ " <- type " ++ half.text
  | .branch cmp allLanes offset =>
    .ok ("if " ++ (if allLanes then "all " else "") ++ cmp.text ++ branchText offset)
  | .bitBranch reg bit set offset =>
    .ok ("if " ++ regName reg ++ "[" ++ Text.dec bit ++ "] == " ++ (if set then "1" else "0") ++
      branchText offset)
  | .fullMul rd ra rb shift signed =>
    .ok (regName rd ++ " <- full " ++ regName ra ++ " * " ++ regName rb ++
      (if signed then " >>> " else " >> ") ++ Text.dec shift)
  | .laneCompare rd cmp => .ok (regName rd ++ " <- " ++ cmp.text)
  | .interpolate rd ra rb =>
    .ok (regName rd ++ " <- interpolate " ++ regName ra ++ " " ++ regName rb)
  | .csrRead rd addr => .ok (regName rd ++ " <- csr[" ++ Text.decHex addr.toNat ++ "]")
  | .csrWrite rd addr => .ok ("csr[" ++ Text.decHex addr.toNat ++ "] <- " ++ regName rd)

/-- The assembly text of a word and its extension. -/
def disassemble (word : Half) (ext : Word) : Except HostFault String := (decode word ext).text

end TypedCore
