import TypedCore.Insn.Basic

/-!
# The documented encodings

The tables of the instruction set, line by line, as a relation: an instruction is
listed under the four nibbles of a word, the length in bytes, and the extension
that it reads its operands from. There is no search in it, no first match and no
order, and it has its own lists of codes and its own readings of immediates.

The tables leave one thing open. They say of the lane interpolation that it has
an extension, but not what the field `EXT_C` of that is; so the relation takes
the admitted values as a parameter.
-/

namespace TypedCore.Listing

/-! ## Readings of the extension -/

/-- The 16-bit extension. -/
def ext16 (x : Word) : Half := x.extractLsb' 0 16

/-- The 16-bit extension as a signed number. -/
def sext16 (x : Word) : Word := (ext16 x).signExtend 32

/-- The byte offset of a branch: the extension at the top of a word, shifted down by one place
less. -/
def unmunge (x : Word) : Int := (((ext16 x).setWidth 32 <<< 16).sshiftRight 15).toInt

def extD (x : Word) : Nat := (x.extractLsb' 0 4).toNat

def extA (x : Word) : Nat := (x.extractLsb' 4 4).toNat

def extB (x : Word) : Nat := (x.extractLsb' 8 4).toNat

def extC (x : Word) : Nat := (x.extractLsb' 12 4).toNat

/-- A field in ones' complement: itself if its top bit is clear, else minus its complement. -/
def oc {n : Nat} (v : BitVec n) : Int := if v.msb then -((~~~v).toNat : Int) else v.toNat

/-! ## Codes -/

def interrupts : List (Nat × Cause) :=
  [(0, .fill), (1, .breakpoint), (2, .syscall), (3, .swi3), (4, .swi4), (5, .swi5), (6, .swi6),
    (7, .unknownInstruction)]

def unaryOps : List (Nat × UnaryOp) :=
  [(3, .neg), (4, .not), (5, .signByte), (6, .signHalf), (7, .toFloat), (8, .toInt), (9, .recip),
    (10, .rsqrt), (11, .sum)]

def binaryOps : List (Nat × BinaryOp) :=
  [(1, .xor), (2, .or), (3, .and), (4, .add), (5, .sub), (6, .shiftLeft), (7, .shiftRight),
    (8, .shiftRightSigned), (9, .mul)]

def memoryOps : List (Nat × MemOp) :=
  [(0, .load .byte false), (1, .load .half false), (2, .load .word false), (3, .load .byte true),
    (4, .load .half true), (5, .store .byte), (6, .store .half), (7, .store .word)]

def atomicOps : List (Nat × MemOp) := [(8, .loadLinked), (9, .storeConditional)]

def zeroConds : List (Nat × Cond) :=
  [(0, .eq), (1, .ne), (2, .lt), (3, .ge), (4, .gt), (5, .le)]

/-- Conditions between registers, with whether the lanes are signed. -/
def regConds : List (Nat × Cond × Bool) :=
  [(1, .eq, false), (2, .ne, false), (3, .lt, true), (4, .ge, true), (5, .lt, false),
    (6, .ge, false)]

/-- The bits that a branch can test, with the opcodes that select them. -/
def testBits : List (Nat × Nat) :=
  [(0, 0), (1, 1), (2, 2), (3, 3), (4, 4), (5, 5), (6, 6), (7, 7), (8, 8), (9, 9), (10, 14),
    (11, 15), (12, 16), (13, 30), (14, 31)]

/-! ## References -/

/-- The reference of a compact load or store: `$r12` or `$r13`, by the parity of field A, and an
offset in the two fields without that bit. -/
def tinyRef (b a : Nat) : MemRef :=
  ⟨some (if a % 2 = 0 then 12 else 13),
    some (BitVec.ofInt 32 (oc ((BitVec.ofNat 8 b <<< 4 ||| BitVec.ofNat 8 a) &&& 0xfe) * 2)), true⟩

/-- The reference of a bulk type transfer. -/
def bulkRef (d a : Nat) : MemRef :=
  .ofBaseOffset d (BitVec.ofInt 32 (oc (BitVec.ofNat 4 a) * 4))

/-! ## Lines

The indices are the columns of the tables: the fields C, B, A and D of the word, the length and
the instruction. A register is a field below 15. -/

variable (x : Word)

/-- The ALU group. -/
inductive Alu : (c b a d len : Nat) → Insn → Prop
  | interrupt {d : Nat} {cause : Cause} (h : (d, cause) ∈ interrupts) :
      Alu 0 0 0 d 2 (.interrupt cause)
  | enterTask : Alu 0 0 0 8 2 .enterTask
  | waitForInterrupt : Alu 0 0 0 9 2 .waitForInterrupt
  | fence {d : Nat} (hd : d < 15) : Alu 0 0 1 d 2 (.fence d)
  | jumpReg {d : Nat} (hd : d < 15) : Alu 0 0 2 d 2 (.jumpReg .active d)
  | jumpRegTask {d : Nat} (hd : d < 15) : Alu 0 0 3 d 2 (.jumpReg .task d)
  | readPc {d : Nat} (hd : d < 15) : Alu 0 0 4 d 2 (.readPc d .active)
  | readTpc {d : Nat} (hd : d < 15) : Alu 0 0 5 d 2 (.readPc d .task)
  | tinyImm {a d : Nat} (ha : a < 15) (hd : d < 15) :
      Alu 0 1 a d 2 (.tinyImm d (oc (BitVec.ofNat 4 a)))
  | link {a d : Nat} (ha : a < 15) (hd : d < 15) : Alu 0 2 a d 2 (.link d (BitVec.ofNat 32 (a * 2)))
  | unary {b a d : Nat} {op : UnaryOp} (h : (b, op) ∈ unaryOps) (ha : a < 15) (hd : d < 15) :
      Alu 0 b a d 2 (.unary op d a)
  | setTypeReg {a d : Nat} (ha : a < 15) (hd : d < 15) : Alu 0 12 a d 2 (.setTypeReg d a)
  | getType {a d : Nat} (ha : a < 15) (hd : d < 15) : Alu 0 13 a d 2 (.getType d a)
  | setTypeImm {a d : Nat} (ha : a < 15) (hd : d < 15) :
      Alu 0 14 a d 2 (.setTypeImm d (.ofCode (BitVec.ofNat 4 a)))
  | loadImm {d : Nat} (hd : d < 15) : Alu 0 0 15 d 6 (.loadImm d x false)
  | jumpImm : Alu 0 14 15 2 6 (.jumpImm .active x false)
  | jumpImmTask : Alu 0 14 15 3 6 (.jumpImm .task x false)
  | loadShort {d : Nat} (hd : d < 15) : Alu 0 15 0 d 4 (.loadImm d (sext16 x) true)
  | jumpShort : Alu 0 15 14 2 4 (.jumpImm .active (sext16 x) true)
  | jumpShortTask : Alu 0 15 14 3 4 (.jumpImm .task (sext16 x) true)
  | binary {c b a d : Nat} {op : BinaryOp} (h : (c, op) ∈ binaryOps) (hb : b < 15) (ha : a < 15)
      (hd : d < 15) : Alu c b a d 2 (.binary op d (.reg a) b)
  | binaryImm {c b d : Nat} {op : BinaryOp} (h : (c, op) ∈ binaryOps) (hb : b < 15)
      (hd : d < 15) : Alu c b 15 d 6 (.binary op d (.imm x false) b)
  | binaryShort {c a d : Nat} {op : BinaryOp} (h : (c, op) ∈ binaryOps) (ha : a < 15)
      (hd : d < 15) : Alu c 15 a d 4 (.binary op d (.imm (sext16 x) true) a)
  | reserved {c d : Nat} (hc : c ≤ 11) (hd : d < 15) : Alu c 15 15 d 6 (.loadImm d x false)
  | andNot {b a d : Nat} (hb : b < 15) (ha : a < 15) (hd : d < 15) :
      Alu 10 b a d 2 (.andNot d a b)
  | loadTypes {b d : Nat} (hb : b < 15) (hd : d < 15) : Alu 10 b 15 d 6 (.loadTypes .low x)
  | swizzle {a d : Nat} (ha : a < 15) (hd : d < 15) :
      Alu 10 15 a d 4 (.swizzle d a ((ext16 x).setWidth 8))
  | tinyAdd {b a d : Nat} (hb : b < 15) (ha : a < 15) (hd : d < 15) :
      Alu 11 b a d 2 (.tinyAdd d b (oc (BitVec.ofNat 4 a)))
  | loadTypesHigh {b d : Nat} (hb : b < 15) (hd : d < 15) : Alu 11 b 15 d 6 (.loadTypes .high x)

/-- The compact loads and stores. -/
inductive Tiny : (c b a d len : Nat) → Insn → Prop
  | store {b a d : Nat} (hb : b < 15) (ha : a < 15) (hd : d < 15) :
      Tiny 12 b a d 2 (.memory (.store .word) d (tinyRef b a))
  | load {b a d : Nat} (hb : b < 15) (ha : a < 15) (hd : d < 15) :
      Tiny 13 b a d 2 (.memory (.load .word false) d (tinyRef b a))

/-- The memory group. -/
inductive Memory : (c b a d len : Nat) → Insn → Prop
  | short {b a d : Nat} {op : MemOp} (h : (b, op) ∈ memoryOps ++ atomicOps) (ha : a < 15)
      (hd : d < 15) : Memory 14 b a d 2 (.memory op d (.ofBase a))
  | invalidate {a : Nat} (ha : a < 15) : Memory 14 10 a 1 2 (.invalidate (.ofBase a))
  | jump {a : Nat} (ha : a < 15) : Memory 14 10 a 2 2 (.jumpMem .active (.ofBase a))
  | jumpTask {a : Nat} (ha : a < 15) : Memory 14 10 a 3 2 (.jumpMem .task (.ofBase a))
  | loadTypes {a d : Nat} (ha : a < 15) (hd : d < 15) :
      Memory 14 11 a d 2 (.loadTypesMem .low (bulkRef d a))
  | loadTypesHigh {a d : Nat} (ha : a < 15) (hd : d < 15) :
      Memory 14 12 a d 2 (.loadTypesMem .high (bulkRef d a))
  | storeTypes {a d : Nat} (ha : a < 15) (hd : d < 15) :
      Memory 14 13 a d 2 (.storeTypesMem .low (bulkRef d a))
  | storeTypesHigh {a d : Nat} (ha : a < 15) (hd : d < 15) :
      Memory 14 14 a d 2 (.storeTypesMem .high (bulkRef d a))
  | long {b a d : Nat} {op : MemOp} (h : (b, op) ∈ memoryOps) (ha : a < 15) (hd : d < 15) :
      Memory 15 (8 + b) a d 4 (.memory op d (.ofBaseOffset a (sext16 x)))
  | absolute {b d : Nat} {op : MemOp} (h : (b, op) ∈ memoryOps) (hd : d < 15) :
      Memory 15 (8 + b) 15 d 6 (.memory op d (.ofAddress x))
  | jumpLong {a : Nat} (ha : a < 15) :
      Memory 15 10 a 15 4 (.jumpMem .active (.ofBaseOffset a (sext16 x)))
  | jumpLongTask {a : Nat} (ha : a < 15) :
      Memory 15 11 a 15 4 (.jumpMem .task (.ofBaseOffset a (sext16 x)))
  | jumpAbsolute : Memory 15 10 15 15 6 (.jumpMem .active (.ofAddress x))
  | jumpAbsoluteTask : Memory 15 11 15 15 6 (.jumpMem .task (.ofAddress x))

/-- The branch group. Codes from 8 on ask every lane. -/
inductive Branch : (c b a d len : Nat) → Insn → Prop
  | zero {b a : Nat} {cond : Cond} (h : (b, cond) ∈ zeroConds) (ha : a < 15) :
      Branch 0 b a 15 4 (.branch ⟨cond, true, a, none, a⟩ false (unmunge x))
  | zeroAll {b a : Nat} {cond : Cond} (h : (b, cond) ∈ zeroConds) (ha : a < 15) :
      Branch 0 (8 + b) a 15 4 (.branch ⟨cond, true, a, none, a⟩ true (unmunge x))
  | reg {c b a : Nat} {cond : Cond} {signed : Bool} (h : (c, cond, signed) ∈ regConds)
      (hb : b < 15) (ha : a < 15) :
      Branch c b a 15 4 (.branch ⟨cond, signed, b, some a, a⟩ false (unmunge x))
  | regAll {c b a : Nat} {cond : Cond} {signed : Bool} (h : (c, cond, signed) ∈ regConds)
      (hb : b < 15) (ha : a < 15) :
      Branch (8 + c) b a 15 4 (.branch ⟨cond, signed, b, some a, a⟩ true (unmunge x))
  | bitSet {c a bit : Nat} (h : (c, bit) ∈ testBits) (ha : a < 15) :
      Branch c 15 a 15 4 (.bitBranch a bit true (unmunge x))
  | bitClear {c b bit : Nat} (h : (c, bit) ∈ testBits) (hb : b < 15) :
      Branch c b 15 15 4 (.bitBranch b bit false (unmunge x))

/-- The extended group, with the values of `EXT_C` that make an interpolation. -/
inductive Extended (interpolates : Nat → Prop) : (c b a d len : Nat) → Insn → Prop
  | fullMulSigned {b a : Nat} (hb : b ≤ 1) (ha : a < 16) (hc : extC x = 0) (hD : extD x < 15)
      (hA : extA x < 15) (hB : extB x < 15) :
      Extended interpolates 15 b a 15 4 (.fullMul (extD x) (extA x) (extB x) (b * 16 + a) true)
  | fullMul {b a : Nat} (hb : b ≤ 1) (ha : a < 16) (hc : extC x = 1) (hD : extD x < 15)
      (hA : extA x < 15) (hB : extB x < 15) :
      Extended interpolates 15 b a 15 4 (.fullMul (extD x) (extA x) (extB x) (b * 16 + a) false)
  | compareZero {cond : Cond} (h : (extB x, cond) ∈ zeroConds) (hc : extC x = 0)
      (hD : extD x < 15) (hA : extA x < 15) :
      Extended interpolates 15 15 0 15 4
        (.laneCompare (extD x) ⟨cond, true, extA x, none, extA x⟩)
  | compare {cond : Cond} {signed : Bool} (h : (extC x, cond, signed) ∈ regConds)
      (hD : extD x < 15) (hA : extA x < 15) (hB : extB x < 15) :
      Extended interpolates 15 15 0 15 4
        (.laneCompare (extD x) ⟨cond, signed, extB x, some (extA x), extA x⟩)
  | interpolate (hc : interpolates (extC x)) (hD : extD x < 15) (hA : extA x < 15)
      (hB : extB x < 15) :
      Extended interpolates 15 15 1 15 4 (.interpolate (extD x) (extA x) (extB x))
  | csrRead {d : Nat} (hd : d < 15) : Extended interpolates 15 0 15 d 6 (.csrRead d x)
  | csrWrite {d : Nat} (hd : d < 15) : Extended interpolates 15 1 15 d 6 (.csrWrite d x)

/-- What is listed in any of the five groups. -/
inductive Line (interpolates : Nat → Prop) (c b a d len : Nat) (insn : Insn) : Prop
  | alu (h : Alu x c b a d len insn)
  | tiny (h : Tiny c b a d len insn)
  | memory (h : Memory x c b a d len insn)
  | branch (h : Branch x c b a d len insn)
  | extended (h : Extended x interpolates c b a d len insn)

end Listing

/-- An instruction listed under a word and its extension. -/
def Listed (interpolates : Nat → Prop) (w : Half) (x : Word) (len : Nat) (insn : Insn) : Prop :=
  Listing.Line x interpolates w.fieldC w.fieldB w.fieldA w.fieldD len insn

/-- What the tables make of a word and its extension: the instruction that is listed under them,
or none with a meaning. -/
def Assigned (interpolates : Nat → Prop) (w : Half) (x : Word) (insn : Insn) : Prop :=
  (∃ len, Listed interpolates w x len insn) ∨
    insn = .unknown ∧ ∀ len other, ¬ Listed interpolates w x len other

end TypedCore
