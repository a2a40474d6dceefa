import TypedCore.Encoding.Template

/-!
# The encoding table

Every encoding with a meaning, group by group. No word belongs to two
rows, so the order of the rows does not matter. A row may still refuse an
extension whose fields make no sense; such an encoding is as unknown as a
word that belongs to no row.
-/

namespace TypedCore.Encoding

/-! ## Operands -/

/-- The nibbles of a 16-bit extension, which hold registers and codes there. -/
structure ExtFields where
  d : Nat
  a : Nat
  b : Nat
  c : Nat
  deriving DecidableEq, Repr

/-- Splits a 16-bit extension into its nibbles. -/
def ExtFields.ofExt (ext : Word) : ExtFields :=
  ⟨ext.toNat % 16, ext.toNat / 16 % 16, ext.toNat / 256 % 16, ext.toNat / 4096 % 16⟩

/-- The branch displacement in a 16-bit extension. -/
def branchOffset (ext : Word) : Int := Half.displacement (ext.setWidth 16)

/-- The reference of a compact load or store. Bit 0 of field A selects `$fp`
or `$sp`; fields B and A without that bit count halfwords from there. -/
def frameRef (w : Half) : MemRef :=
  let steps := onesComplement 8 (w.fieldB * 16 + w.fieldA / 2 * 2)
  ⟨some (12 + w.fieldA % 2), some (BitVec.ofInt 32 (steps * 2)), true⟩

/-- The reference of a bulk type transfer: field A counts words from register D. -/
def bulkRef (w : Half) : MemRef :=
  .ofBaseOffset w.fieldD (BitVec.ofInt 32 (onesComplement 4 w.fieldA * 4))

/-- The reference of a long load or store: a fixed address if field A is 15,
else register A plus a short displacement. -/
def longRef (w : Half) (ext : Word) : MemRef :=
  if w.fieldA = 15 then .ofAddress ext else .ofBaseOffset w.fieldA ext.signedHalf

/-- The bit that a bit-test branch looks at, by its opcode field. -/
def testedBits : List Nat := [0, 1, 2, 3, 4, 5, 6, 7, 8, 9, 14, 15, 16, 30, 31]

/-! ## Instructions of a group -/

def interrupt (w : Half) (_ : Word) : Insn :=
  match w.fieldD with
  | 0 => .interrupt .fill
  | 1 => .interrupt .breakpoint
  | 2 => .interrupt .syscall
  | 7 => .interrupt .unknownInstruction
  | level => ((Cause.ofSwiLevel? level).map Insn.interrupt).getD .unknown

def unary (op : UnaryOp) (w : Half) (_ : Word) : Insn := .unary op w.fieldD w.fieldA

/-- A binary operation of two registers, or of an immediate and a register.
The immediate stands where the field with 15 does. -/
def binary (w : Half) (ext : Word) : Insn :=
  match BinaryOp.ofField? w.fieldC with
  | none => .unknown
  | some op =>
    if w.fieldB = 15 then .binary op w.fieldD (.imm ext.signedHalf true) w.fieldA
    else if w.fieldA = 15 then .binary op w.fieldD (.imm ext false) w.fieldB
    else .binary op w.fieldD (.reg w.fieldA) w.fieldB

def loadImm (w : Half) (ext : Word) : Insn := .loadImm w.fieldD ext false

/-- A load or store at the address in register A. -/
def shortMemory (w : Half) (_ : Word) : Insn :=
  match MemOp.ofCode? w.fieldB with
  | some op => .memory op w.fieldD (.ofBase w.fieldA)
  | none => .unknown

/-- A load or store with a displacement or a fixed address. With 15 in field
D the loaded word goes to a program counter instead. -/
def longMemory (w : Half) (ext : Word) : Insn :=
  if w.fieldD = 15 then
    match w.fieldB with
    | 10 => .jumpMem .active (longRef w ext)
    | 11 => .jumpMem .task (longRef w ext)
    | _ => .unknown
  else
    match MemOp.ofCode? (w.fieldB % 8) with
    | some op => .memory op w.fieldD (longRef w ext)
    | none => .unknown

/-- A branch that compares register A with zero. Field B above 7 asks every lane. -/
def zeroBranch (w : Half) (ext : Word) : Insn :=
  match Cond.ofZeroCode? (w.fieldB % 8) with
  | some cond =>
    .branch ⟨cond, true, w.fieldA, none, w.fieldA⟩ (decide (8 ≤ w.fieldB)) (branchOffset ext)
  | none => .unknown

/-- A branch that compares registers B and A. Field C above 7 asks every lane. -/
def regBranch (w : Half) (ext : Word) : Insn :=
  match Cond.ofRegCode? (w.fieldC % 8) with
  | some (cond, signed) =>
    .branch ⟨cond, signed, w.fieldB, some w.fieldA, w.fieldA⟩ (decide (8 ≤ w.fieldC))
      (branchOffset ext)
  | none => .unknown

/-- A branch on one bit: on a set bit of register A if field B is 15, else on a
clear bit of register B. -/
def bitBranch (w : Half) (ext : Word) : Insn :=
  match testedBits[w.fieldC]? with
  | some bit =>
    if w.fieldB = 15 then .bitBranch w.fieldA bit true (branchOffset ext)
    else .bitBranch w.fieldB bit false (branchOffset ext)
  | none => .unknown

/-- A full multiply. The registers are in the extension, the shift in bits 4 to 8. -/
def fullMul (w : Half) (ext : Word) : Insn :=
  let e := ExtFields.ofExt ext
  if e.d = 15 ∨ e.a = 15 ∨ e.b = 15 ∨ 1 < e.c then .unknown
  else .fullMul e.d e.a e.b (w.toNat / 16 % 32) (e.c == 0)

/-- A lane compare, with zero if the code in the top nibble is 0. -/
def laneCompare (_ : Half) (ext : Word) : Insn :=
  let e := ExtFields.ofExt ext
  if e.d = 15 ∨ e.a = 15 then .unknown
  else if e.c = 0 then
    match Cond.ofZeroCode? e.b with
    | some cond => .laneCompare e.d ⟨cond, true, e.a, none, e.a⟩
    | none => .unknown
  else if e.b = 15 then .unknown
  else
    match Cond.ofRegCode? e.c with
    | some (cond, signed) => .laneCompare e.d ⟨cond, signed, e.b, some e.a, e.a⟩
    | none => .unknown

/-- An interpolation; the registers are in the extension. -/
def interpolate (_ : Half) (ext : Word) : Insn :=
  let e := ExtFields.ofExt ext
  if e.c ≠ 0 ∨ e.d = 15 ∨ e.a = 15 ∨ e.b = 15 then .unknown
  else .interpolate e.d e.a e.b

/-! ## Groups -/

def exceptionGroup : List Template := [
  ⟨0, 0, 0, 0, interrupt⟩,
  ⟨0, 0, 0, 1, interrupt⟩,
  ⟨0, 0, 0, 2, interrupt⟩,
  ⟨0, 0, 0, 3, interrupt⟩,
  ⟨0, 0, 0, 4, interrupt⟩,
  ⟨0, 0, 0, 5, interrupt⟩,
  ⟨0, 0, 0, 6, interrupt⟩,
  ⟨0, 0, 0, 7, interrupt⟩,
  ⟨0, 0, 0, 8, fun _ _ => .enterTask⟩,
  ⟨0, 0, 0, 9, fun _ _ => .waitForInterrupt⟩,
  ⟨0, 0, 1, .operand, fun w _ => .fence w.fieldD⟩]

def moveGroup : List Template := [
  ⟨0, 0, 2, .operand, fun w _ => .jumpReg .active w.fieldD⟩,
  ⟨0, 0, 3, .operand, fun w _ => .jumpReg .task w.fieldD⟩,
  ⟨0, 0, 4, .operand, fun w _ => .readPc w.fieldD .active⟩,
  ⟨0, 0, 5, .operand, fun w _ => .readPc w.fieldD .task⟩,
  ⟨0, 0, 15, .operand, loadImm⟩,
  ⟨0, 14, 15, 2, fun _ e => .jumpImm .active e false⟩,
  ⟨0, 14, 15, 3, fun _ e => .jumpImm .task e false⟩,
  ⟨0, 15, 0, .operand, fun w e => .loadImm w.fieldD e.signedHalf true⟩,
  ⟨0, 15, 14, 2, fun _ e => .jumpImm .active e.signedHalf true⟩,
  ⟨0, 15, 14, 3, fun _ e => .jumpImm .task e.signedHalf true⟩,
  ⟨0, 1, .operand, .operand, fun w _ => .tinyImm w.fieldD (onesComplement 4 w.fieldA)⟩,
  ⟨0, 2, .operand, .operand, fun w _ => .link w.fieldD (BitVec.ofNat 32 (w.fieldA * 2))⟩]

/-- Operations on one register and its type. -/
def unaryGroup : List Template := [
  ⟨0, 3, .operand, .operand, unary .neg⟩,
  ⟨0, 4, .operand, .operand, unary .not⟩,
  ⟨0, 5, .operand, .operand, unary .signByte⟩,
  ⟨0, 6, .operand, .operand, unary .signHalf⟩,
  ⟨0, 7, .operand, .operand, unary .toFloat⟩,
  ⟨0, 8, .operand, .operand, unary .toInt⟩,
  ⟨0, 9, .operand, .operand, unary .recip⟩,
  ⟨0, 10, .operand, .operand, unary .rsqrt⟩,
  ⟨0, 11, .operand, .operand, unary .sum⟩,
  ⟨0, 12, .operand, .operand, fun w _ => .setTypeReg w.fieldD w.fieldA⟩,
  ⟨0, 13, .operand, .operand, fun w _ => .getType w.fieldD w.fieldA⟩,
  ⟨0, 14, .operand, .operand,
    fun w _ => .setTypeImm w.fieldD (.ofCode (BitVec.ofNat 4 w.fieldA))⟩]

/-- Immediates once more: any opcode up to 11 with both operand fields escaped. -/
def reservedImmediates : List Template :=
  [0, 1, 2, 3, 4, 5, 6, 7, 8, 9, 10, 11].map fun c => ⟨.exactly c, 15, 15, .operand, loadImm⟩

/-- Operations on two registers, on a register and a 32-bit immediate, and on a
register and a 16-bit one. -/
def binaryGroup : List Template :=
  [1, 2, 3, 4, 5, 6, 7, 8, 9].flatMap fun c => [
    ⟨.exactly c, .operand, .operand, .operand, binary⟩,
    ⟨.exactly c, .operand, 15, .operand, binary⟩,
    ⟨.exactly c, 15, .operand, .operand, binary⟩]

/-- Operations that took the free opcodes 10 and 11, and the compact loads and stores. -/
def compactGroup : List Template := [
  ⟨10, .operand, .operand, .operand, fun w _ => .andNot w.fieldD w.fieldA w.fieldB⟩,
  ⟨10, .operand, 15, .operand, fun _ e => .loadTypes .low e⟩,
  ⟨10, 15, .operand, .operand, fun w e => .swizzle w.fieldD w.fieldA (e.setWidth 8)⟩,
  ⟨11, .operand, .operand, .operand,
    fun w _ => .tinyAdd w.fieldD w.fieldB (onesComplement 4 w.fieldA)⟩,
  ⟨11, .operand, 15, .operand, fun _ e => .loadTypes .high e⟩,
  ⟨12, .operand, .operand, .operand, fun w _ => .memory (.store .word) w.fieldD (frameRef w)⟩,
  ⟨13, .operand, .operand, .operand,
    fun w _ => .memory (.load .word false) w.fieldD (frameRef w)⟩]

/-- Loads and stores through a register, and the bulk type transfers. -/
def shortMemoryGroup : List Template :=
  ([0, 1, 2, 3, 4, 5, 6, 7, 8, 9].map fun b =>
    ⟨14, .exactly b, .operand, .operand, shortMemory⟩) ++ [
  ⟨14, 10, .operand, 1, fun w _ => .invalidate (.ofBase w.fieldA)⟩,
  ⟨14, 10, .operand, 2, fun w _ => .jumpMem .active (.ofBase w.fieldA)⟩,
  ⟨14, 10, .operand, 3, fun w _ => .jumpMem .task (.ofBase w.fieldA)⟩,
  ⟨14, 11, .operand, .operand, fun w _ => .loadTypesMem .low (bulkRef w)⟩,
  ⟨14, 12, .operand, .operand, fun w _ => .loadTypesMem .high (bulkRef w)⟩,
  ⟨14, 13, .operand, .operand, fun w _ => .storeTypesMem .low (bulkRef w)⟩,
  ⟨14, 14, .operand, .operand, fun w _ => .storeTypesMem .high (bulkRef w)⟩]

def branchGroup : List Template :=
  ([0, 1, 2, 3, 4, 5, 8, 9, 10, 11, 12, 13].map fun b =>
    ⟨0, .exactly b, .operand, 15, zeroBranch⟩) ++
  ([1, 2, 3, 4, 5, 6, 9, 10, 11, 12, 13, 14].map fun c =>
    ⟨.exactly c, .operand, .operand, 15, regBranch⟩) ++
  ([0, 1, 2, 3, 4, 5, 6, 7, 8, 9, 10, 11, 12, 13, 14].flatMap fun c => [
    ⟨.exactly c, 15, .operand, 15, bitBranch⟩,
    ⟨.exactly c, .operand, 15, 15, bitBranch⟩])

/-- Status registers, full multiply and the lane operations. -/
def extendedGroup : List Template := [
  ⟨15, 0, 15, .operand, fun w e => .csrRead w.fieldD e⟩,
  ⟨15, 1, 15, .operand, fun w e => .csrWrite w.fieldD e⟩,
  ⟨15, 0, .any, 15, fullMul⟩,
  ⟨15, 1, .any, 15, fullMul⟩,
  ⟨15, 15, 0, 15, laneCompare⟩,
  ⟨15, 15, 1, 15, interpolate⟩]

/-- Loads and stores with a displacement or a fixed address. -/
def longMemoryGroup : List Template :=
  ([8, 9, 10, 11, 12, 13, 14, 15].flatMap fun b => [
    ⟨15, .exactly b, .operand, .operand, longMemory⟩,
    ⟨15, .exactly b, 15, .operand, longMemory⟩]) ++ [
  ⟨15, 10, .operand, 15, longMemory⟩,
  ⟨15, 11, .operand, 15, longMemory⟩,
  ⟨15, 10, 15, 15, longMemory⟩,
  ⟨15, 11, 15, 15, longMemory⟩]

/-- Every row of the table. -/
def table : List Template :=
  exceptionGroup ++ moveGroup ++ unaryGroup ++ reservedImmediates ++ binaryGroup ++
    compactGroup ++ shortMemoryGroup ++ branchGroup ++ extendedGroup ++ longMemoryGroup

end TypedCore.Encoding
