import TypedCore.Proofs.Notation.Printing

/-!
# Reading assembly text

The way back from the tokens of a text to the instruction. Once the blanks are
dropped, the first tokens tell what kind of instruction it is, and the operands
are read one after the other. The reader is not a check: it takes more texts than
are ever printed. What matters is that it takes back every instruction it can be
given (`Insn.readInsn_tokens`).

A text leaves things out: the register whose type gives the lanes of a comparison,
whether an equality is signed, and in a bulk change of types the nibble that no
register takes. `Insn.Readable` says that what is left out follows from the rest,
and `Insn.asRead` is the instruction without that nibble.
-/

namespace TypedCore

namespace Notation

def Token.isBlank : Token → Bool
  | .key .blank => true
  | _ => false

/-- The tokens that mean something. -/
def dense (ts : List Token) : List Token := ts.filter fun t => !t.isBlank

/-! ## Operands

What a reader of an operand returns beside the operand is the rest of the tokens. -/

/-- A number with its sign, if it has one. -/
def readSigned : List Token → Option (Int × List Token)
  | .numeral n :: ts => some (n.value 10, ts)
  | .op .sub :: .numeral n :: ts => some (-(n.value 10), ts)
  | _ => none

/-- A number, and once more in hexadecimal. -/
def readImmediate (ts : List Token) : Option (Int × List Token) :=
  match readSigned ts with
  | some (i, .key .openParen :: .numeral _ :: .key .closeParen :: rest) => some (i, rest)
  | _ => none

def readTiny : List Token → Bool × List Token
  | .key .tiny :: ts => (true, ts)
  | ts => (false, ts)

/-- A displacement: its sign, and then how far. -/
def readDisplacement : List Token → Option (Int × Bool × List Token)
  | .op sign :: ts =>
    let (tiny, ts) := readTiny ts
    (readImmediate ts).map fun (i, rest) => (if sign = .sub then -i else i, tiny, rest)
  | _ => none

/-- What stands between the brackets of a memory reference. -/
def readAddress : List Token → Option (MemRef × List Token)
  | .reg r :: .key .closeBracket :: ts => some (.ofBase r, ts)
  | .reg r :: ts =>
    match readDisplacement ts with
    | some (i, tiny, .key .closeBracket :: rest) =>
      some (⟨some r, some (BitVec.ofInt 32 i), tiny⟩, rest)
    | _ => none
  | ts =>
    match readImmediate ts with
    | some (i, .key .closeBracket :: rest) => some (.ofAddress (BitVec.ofInt 32 i), rest)
    | _ => none

/-- A comparison; lanes are signed if the text says so, or if the other side is zero. -/
def readComparison : List Token → Option (Comparison × List Token)
  | .key .signed :: .reg left :: .cond c :: .reg right :: ts =>
    some (⟨c, true, left, some right, right⟩, ts)
  | .reg left :: .cond c :: .reg right :: ts => some (⟨c, false, left, some right, right⟩, ts)
  | .reg left :: .cond c :: .numeral _ :: ts => some (⟨c, true, left, none, left⟩, ts)
  | _ => none

/-- Where a branch goes, relative to itself. -/
def readTarget : List Token → Option Int
  | .pc .active :: .key .gets :: .pc .active :: ts => (readDisplacement ts).map Prod.fst
  | _ => none

def loadOf? : Key → Option MemOp
  | .mem8 => some (.load .byte false)
  | .mem16 => some (.load .half false)
  | .mem32 => some (.load .word false)
  | .smem8 => some (.load .byte true)
  | .smem16 => some (.load .half true)
  | .memll32 => some .loadLinked
  | _ => none

def storeOf? : Key → Option MemOp
  | .mem8 => some (.store .byte)
  | .mem16 => some (.store .half)
  | .mem32 => some (.store .word)
  | .memsr32 => some .storeConditional
  | _ => none

def unaryOf? : Key → Option UnaryOp
  | .tilde => some .not
  | .bsi => some .signByte
  | .wsi => some .signHalf
  | .float => some .toFloat
  | .int => some .toInt
  | .rsqrt => some .rsqrt
  | .sum => some .sum
  | _ => none

/-- The word whose nibbles stand for these types, the lowest first. -/
def typesWord : List RegType → Word
  | [] => 0
  | t :: ts => typesWord ts <<< 4 ||| t.code.setWidth 32

def readTypes : List Token → List RegType
  | .type t :: .key .comma :: ts => t :: readTypes ts
  | [.type t] => [t]
  | _ => []

/-! ## Instructions -/

/-- A number by itself is loaded; otherwise it is the first operand of a binary operation. -/
def readConstant (rd : Nat) (short : Bool) (ts : List Token) : Option Insn :=
  match readImmediate ts with
  | some (i, []) => some (.loadImm rd (BitVec.ofInt 32 i) short)
  | some (i, [.op op, .reg rb]) => some (.binary op rd (.imm (BitVec.ofInt 32 i) short) rb)
  | _ => none

/-- What is written into a register. -/
def readValue (rd : Nat) : List Token → Option Insn
  | [.pc source] => some (.readPc rd source)
  | .pc .active :: .op .add :: ts =>
    (readImmediate ts).map fun (i, _) => .link rd (BitVec.ofInt 32 i)
  | [.reg ra, .op op, .reg rb] => some (.binary op rd (.reg ra) rb)
  | [.op .sub, .reg ra] => some (.unary .neg rd ra)
  | [.numeral _, .key .slash, .reg ra] => some (.unary .recip rd ra)
  | [.key .type, .reg ra] => some (.getType rd ra)
  | [.key .tilde, .reg ra, .op .and, .reg rb] => some (.andNot rd ra rb)
  | .key .tiny :: .reg rb :: .op .add :: ts => (readSigned ts).map fun (i, _) => .tinyAdd rd rb i
  | .key .tiny :: ts => (readSigned ts).map fun (i, _) => .tinyImm rd i
  | .key .short :: ts => readConstant rd true ts
  | [.key .swizzle, .reg ra, .numeral n] =>
    some (.swizzle rd ra (BitVec.ofNat 8 (n.value 4)))
  | [.key .full, .reg ra, .op .mul, .reg rb, .op shift, .numeral n] =>
    some (.fullMul rd ra rb (n.value 10) (shift = .shiftRightSigned))
  | [.key .interpolate, .reg ra, .reg rb] => some (.interpolate rd ra rb)
  | .key .csr :: .key .openBracket :: ts =>
    (readImmediate ts).map fun (i, _) => .csrRead rd (BitVec.ofInt 32 i)
  | .key k :: .key .openBracket :: ts =>
    match loadOf? k, readAddress ts with
    | some op, some (mem, []) => some (.memory op rd mem)
    | _, _ => none
  | [.key k, .reg ra] => (unaryOf? k).map fun op => .unary op rd ra
  | .numeral n :: ts => readConstant rd false (.numeral n :: ts)
  | .op o :: ts => readConstant rd false (.op o :: ts)
  | ts => (readComparison ts).map fun (cmp, _) => .laneCompare rd cmp

/-- What a program counter is set to. -/
def readJump (target : PcRef) : List Token → Option Insn
  | [.reg rd] => some (.jumpReg target rd)
  | .key .mem32 :: .key .openBracket :: ts =>
    (readAddress ts).map fun (mem, _) => .jumpMem target mem
  | .key .short :: ts =>
    (readImmediate ts).map fun (i, _) => .jumpImm target (BitVec.ofInt 32 i) true
  | ts => (readImmediate ts).map fun (i, _) => .jumpImm target (BitVec.ofInt 32 i) false

/-- A change of types. -/
def readRetype : List Token → Option Insn
  | [.reg rd, .key .gets, .reg ra] => some (.setTypeReg rd ra)
  | [.reg rd, .key .gets, .type t] => some (.setTypeImm rd t)
  | .half h :: .key .gets :: .key .mem32 :: .key .openBracket :: ts =>
    (readAddress ts).map fun (mem, _) => .loadTypesMem h mem
  | .half h :: .key .gets :: ts => some (.loadTypes h (typesWord (readTypes ts)))
  | _ => none

def readCompareBranch (allLanes : Bool) (ts : List Token) : Option Insn :=
  match readComparison ts with
  | some (cmp, rest) => (readTarget rest).map (.branch cmp allLanes)
  | none => none

def readBranch : List Token → Option Insn
  | .key .all :: ts => readCompareBranch true ts
  | .reg r :: .key .openBracket :: .numeral bit :: .key .closeBracket :: .cond _ :: .numeral set ::
      ts =>
    (readTarget ts).map (.bitBranch r (bit.value 10) (set.value 10 = 1))
  | ts => readCompareBranch false ts

/-- What follows the mark of a memory reference at the beginning. -/
def readStore (k : Key) (ts : List Token) : Option Insn :=
  match readAddress ts with
  | some (mem, []) => some (.invalidate mem)
  | some (mem, [.key .gets, .key .type, .half h]) => some (.storeTypesMem h mem)
  | some (mem, [.key .gets, .reg r]) => (storeOf? k).map fun op => .memory op r mem
  | _ => none

/-- The two flags of the accesses before or after a fence. -/
def readOrder : List Token → Nat × List Token
  | .key .rw :: ts => (0, ts)
  | .key .r :: ts => (2, ts)
  | .key .w :: ts => (1, ts)
  | ts => (3, ts)

def readFence (ts : List Token) : Nat :=
  let (before, ts) := readOrder ts
  before + 4 * (readOrder ts.tail).1

def readInterrupt : List Token → Option Cause
  | [.key .fill] => some .fill
  | [.key .breakpoint] => some .breakpoint
  | [.key .syscall] => some .syscall
  | [.key .swi, .numeral n] => Cause.ofSwiLevel? (n.value 10)
  | [.key .sii] => some .unknownInstruction
  | _ => none

/-- An instruction with a meaning. -/
def readInsn : List Token → Option Insn
  | [.key .stm] => some .enterTask
  | [.key .woi] => some .waitForInterrupt
  | .key .fence :: ts => some (.fence (readFence ts))
  | .reg rd :: .key .gets :: ts => readValue rd ts
  | .pc target :: .key .gets :: ts => readJump target ts
  | .key .type :: ts => readRetype ts
  | .key .test :: ts => readBranch ts
  | .key .csr :: .key .openBracket :: ts =>
    match readImmediate ts with
    | some (i, [.key .closeBracket, .key .gets, .reg rd]) =>
      some (.csrWrite rd (BitVec.ofInt 32 i))
    | _ => none
  | .key k :: .key .openBracket :: ts => readStore k ts
  | ts => (readInterrupt ts).map .interrupt

end Notation

/-! ## What the text leaves out -/

/-- Only a displacement from a register is marked as tiny. -/
def MemRef.Readable (mem : MemRef) : Prop := mem.tiny → mem.base.isSome ∧ mem.offset.isSome

/-- The lanes are those of the right side, or of the left side if that is zero; a comparison with
zero is signed, and an equality of registers is not. -/
def Comparison.Readable (cmp : Comparison) : Prop :=
  match cmp.right with
  | none => cmp.signed = true ∧ cmp.typedBy = cmp.left
  | some right => cmp.typedBy = right ∧ (cmp.cond = .eq ∨ cmp.cond = .ne → cmp.signed = false)

/-- What the text leaves out follows from what it says. -/
def Insn.Readable : Insn → Prop
  | interrupt cause => cause ∈
      [.fill, .breakpoint, .syscall, .swi3, .swi4, .swi5, .swi6, .unknownInstruction]
  | fence flags => flags < 16
  | memory op _ mem => op ≠ .load .word true ∧ mem.Readable
  | invalidate mem | jumpMem _ mem | loadTypesMem _ mem | storeTypesMem _ mem => mem.Readable
  | branch cmp .. | laneCompare _ cmp => cmp.Readable
  | _ => True

/-- The instruction as its text has it: of a bulk change of types, only the nibbles that registers
take. -/
def Insn.asRead : Insn → Insn
  | loadTypes half types => loadTypes half (Notation.typesWord (half.types types))
  | insn => insn

namespace Notation

/-! ## Reading back -/

@[simp] theorem dense_nil : dense [] = [] := rfl

@[simp] theorem dense_cons (t : Token) (ts : List Token) :
    dense (t :: ts) = if t.isBlank then dense ts else t :: dense ts := by
  cases h : t.isBlank <;> simp [dense, h]

@[simp] theorem dense_append (ts us : List Token) : dense (ts ++ us) = dense ts ++ dense us :=
  List.filter_append ..

@[simp] theorem dense_assign (ts us : List Token) :
    dense (assign ts us) = dense ts ++ .key .gets :: dense us := by
  simp [assign, Token.isBlank]

@[simp] theorem readImmediate_number (n : Nat) (rest : List Token) :
    readImmediate (dense (number n) ++ rest) = some ((n : Int), rest) := by
  simp [number, Token.isBlank, readImmediate, readSigned]

@[simp] theorem readSigned_signed (i : Int) (rest : List Token) :
    readSigned (dense (signed i) ++ rest) = some (i, rest) := by
  cases i with
  | ofNat n => simp [signed, Token.isBlank, readSigned]
  | negSucc n => simp [signed, Token.isBlank, readSigned]; omega

theorem dense_signed (i : Int) :
    ∃ n, dense (signed i) = [.numeral n] ∨ dense (signed i) = [.op .sub, .numeral n] := by
  cases i with
  | ofNat n => exact ⟨_, .inl rfl⟩
  | negSucc n => exact ⟨_, .inr rfl⟩

theorem readDisplacement_displacement (i : Int) (tiny : Bool) (rest : List Token) :
    readDisplacement (dense (displacement i (mark .tiny tiny)) ++ rest) = some (i, tiny, rest) := by
  obtain ⟨n, hn⟩ : ∃ n, i.natAbs = n := ⟨_, rfl⟩
  have hsign : (if i < 0 then -(n : Int) else n) = i := by
    split <;> omega
  have htiny : readTiny (dense (mark .tiny tiny) ++ (dense (number n) ++ rest)) =
      (tiny, dense (number n) ++ rest) := by
    cases tiny <;> simp [mark, Token.isBlank, readTiny, number]
  simp [displacement, hn, Token.isBlank, readDisplacement, htiny, hsign]

theorem readAddress_address {mem : MemRef} (hreg : ∀ r ∈ mem.registers, r < 15)
    (hmem : mem.isNamed) (hread : mem.Readable) (rest : List Token) :
    readAddress (dense mem.address ++ rest) = some (mem, rest) := by
  obtain ⟨base, offset, tiny⟩ := mem
  cases base with
  | none =>
    obtain rfl : tiny = false := by simpa [MemRef.Readable] using hread
    cases offset with
    | none => simp [MemRef.isNamed] at hmem
    | some addr =>
      have hnumber := readImmediate_number addr.toNat (.key .closeBracket :: rest)
      obtain ⟨n, tail, htail⟩ : ∃ n tail,
          dense (number addr.toNat) ++ .key .closeBracket :: rest = .numeral n :: tail :=
        ⟨_, _, rfl⟩
      rw [htail] at hnumber
      simp [MemRef.address, Token.isBlank, htail, readAddress, hnumber, MemRef.ofAddress]
  | some base =>
    have hbase := hreg base (by simp [MemRef.registers])
    cases offset with
    | none =>
      obtain rfl : tiny = false := by simpa [MemRef.Readable] using hread
      simp [MemRef.address, readAddress, Token.isBlank, reg, MemRef.ofBase, hbase]
    | some offset =>
      have hdisplacement :=
        readDisplacement_displacement offset.toInt tiny (.key .closeBracket :: rest)
      obtain ⟨o, tail, htail⟩ : ∃ o tail, dense (displacement offset.toInt (mark .tiny tiny)) ++
          .key .closeBracket :: rest = .op o :: tail := ⟨_, _, rfl⟩
      rw [htail] at hdisplacement
      simp [MemRef.address, Token.isBlank, reg, htail, readAddress, hdisplacement, hbase]

theorem readAddress_all {mem : MemRef} (hreg : ∀ r ∈ mem.registers, r < 15)
    (hmem : mem.isNamed) (hread : mem.Readable) :
    readAddress (dense mem.address) = some (mem, []) := by
  simpa using readAddress_address hreg hmem hread []

theorem readComparison_tokens {cmp : Comparison} (hreg : ∀ r ∈ cmp.registers, r < 15)
    (hread : cmp.Readable) (rest : List Token) :
    readComparison (dense cmp.tokens ++ rest) = some (cmp, rest) := by
  obtain ⟨cond, signed, left, right, typedBy⟩ := cmp
  have hleft := hreg left (by simp [Comparison.registers])
  cases right with
  | none =>
    obtain ⟨hsigned, htypedBy⟩ := hread
    dsimp only at hsigned htypedBy
    subst hsigned htypedBy
    simp [Comparison.tokens, mark, reg, Token.isBlank, readComparison, hleft]
  | some right =>
    have hright := hreg right (by simp [Comparison.registers])
    obtain ⟨htypedBy, hsigned⟩ := hread
    dsimp only at hsigned htypedBy
    subst htypedBy
    cases signed <;> cases cond <;>
      simp_all [Comparison.tokens, mark, reg, Token.isBlank, readComparison]

/-- How a comparison begins, which tells it from other values. -/
theorem dense_comparison (cmp : Comparison) :
    (∃ r c ts, dense cmp.tokens = .key .signed :: .reg r :: .cond c :: ts) ∨
      ∃ r c ts, dense cmp.tokens = .reg r :: .cond c :: ts := by
  simp only [Comparison.tokens]
  generalize (cmp.signed && cmp.right.isSome && _) = present
  cases present with
  | true => exact .inl ⟨_, _, _, rfl⟩
  | false => exact .inr ⟨_, _, _, rfl⟩

theorem readTarget_branchTarget (offset : Int) :
    readTarget (dense (branchTarget offset)) = some offset := by
  have hread := readDisplacement_displacement offset false []
  rw [List.append_nil, show mark .tiny false = [] from rfl] at hread
  simp [branchTarget, Token.isBlank, readTarget, hread]

theorem readFence_fence :
    ∀ flags < 16, readInsn (dense (fence flags)) = some (.fence flags) := by
  decide +kernel

theorem readTypes_typeList : ∀ ts : List RegType, readTypes (dense (typeList ts)) = ts
  | [] => rfl
  | [t] => rfl
  | t :: u :: ts => by
    simp [typeList, Token.isBlank, readTypes, readTypes_typeList (u :: ts)]

theorem dense_typeList (t : RegType) (ts : List RegType) :
    ∃ us, dense (typeList (t :: ts)) = .type t :: us := by
  cases ts <;> exact ⟨_, rfl⟩

theorem readInterrupt_interrupt {cause : Cause} (h : (Insn.interrupt cause).Readable) :
    readInsn (dense (interrupt cause)) = some (.interrupt cause) := by
  cases cause with
  | fill | breakpoint | syscall | swi3 | swi4 | swi5 | swi6 | unknownInstruction =>
    simp [interrupt, Token.isBlank, readInsn, readInterrupt, Cause.ofSwiLevel?]
  | _ => simp [Insn.Readable] at h

/-- An immediate operand is printed as a signed number, whatever the sign. -/
theorem readValue_immediate (rd : Nat) (op : BinaryOp) (value : Word) (short : Bool) (r : Fin 15) :
    readValue rd (dense (Operand.imm value short).tokens ++ [.op op, .reg r]) =
      some (.binary op rd (.imm value short) r) := by
  have hread : readImmediate (dense (signed value.toInt) ++ .key .openParen ::
      .numeral (.hex 0 value.toNat) :: .key .closeParen :: [.op op, .reg r]) =
      some (value.toInt, [.op op, .reg r]) := by
    simp [readImmediate]
  obtain ⟨n, hn | hn⟩ := dense_signed value.toInt <;> rw [hn] at hread <;> cases short <;>
    simp_all [Operand.tokens, mark, Token.isBlank, readValue, readConstant]

end Notation

open Notation

/-- The reader takes back every instruction, by cases on its form. -/
theorem Insn.readInsn_tokens {insn : Insn} (hvalid : insn.Valid) (hread : insn.Readable)
    (hne : insn ≠ .unknown) : readInsn (dense insn.tokens) = some insn.asRead := by
  obtain ⟨hreg, hmem⟩ := hvalid
  cases insn with
  | unknown => exact absurd rfl hne
  | interrupt cause => exact readInterrupt_interrupt hread
  | fence flags => exact readFence_fence flags hread
  | jumpImm target addr short =>
    cases short <;>
      simp [tokens, mark, number, Token.isBlank, readInsn, readJump, readImmediate, readSigned,
        asRead]
  | loadImm rd value short =>
    simp only [Insn.registers, List.forall_mem_cons] at hreg
    cases short <;>
      simp [tokens, mark, number, Token.isBlank, reg, hreg, readInsn, readValue, readConstant,
        readImmediate, readSigned, asRead]
  | tinyImm rd value =>
    simp only [Insn.registers, List.forall_mem_cons] at hreg
    cases value <;>
      simp [tokens, signed, Token.isBlank, reg, hreg, readInsn, readValue, readSigned, asRead]
    omega
  | unary op rd ra =>
    simp only [Insn.registers, List.forall_mem_cons] at hreg
    cases op <;>
      simp [tokens, UnaryOp.tokens, Token.isBlank, reg, hreg, readInsn, readValue, unaryOf?, asRead]
  | binary op rd lhs rb =>
    simp only [Insn.registers, List.forall_mem_cons] at hreg
    obtain ⟨hd, hb, hlhs⟩ := hreg
    cases lhs with
    | reg ra =>
      have ha := hlhs ra (by simp [Operand.registers])
      simp [tokens, Operand.tokens, Token.isBlank, reg, hd, hb, ha, readInsn, readValue, asRead]
    | imm value short =>
      simp [tokens, Token.isBlank, reg, hd, hb, readInsn, readValue_immediate, asRead]
  | tinyAdd rd rb value =>
    simp only [Insn.registers, List.forall_mem_cons] at hreg
    cases value <;>
      simp [tokens, signed, Token.isBlank, reg, hreg, readInsn, readValue, readSigned, asRead]
    omega
  | loadTypes half types =>
    obtain ⟨t, ts, hts⟩ : ∃ t ts, half.types types = t :: ts := by
      cases half <;> exact ⟨_, _, rfl⟩
    obtain ⟨us, hus⟩ := dense_typeList t ts
    have hread := readTypes_typeList (half.types types)
    rw [hts, hus] at hread
    simp [tokens, hts, hus, Token.isBlank, readInsn, readRetype, hread, asRead]
  | memory op r mem =>
    simp only [Insn.registers, List.forall_mem_cons] at hreg
    have hload := readAddress_all hreg.2 (hmem mem rfl) hread.2
    have hstore := readAddress_address hreg.2 (hmem mem rfl) hread.2
    rcases op with ⟨_ | _ | _, _ | _⟩ | _ | ⟨_ | _ | _⟩ | _
    case load.word.true => exact absurd rfl hread.1
    all_goals
      simp [tokens, MemOp.isStore, MemOp.key, MemRef.tokens, Token.isBlank, reg, hreg, readInsn,
        readValue, readStore, loadOf?, storeOf?, hload, hstore, asRead]
  | invalidate mem =>
    simp [tokens, MemRef.tokens, Token.isBlank, readInsn, readStore,
      readAddress_all hreg (hmem mem rfl) hread, asRead]
  | jumpMem target mem =>
    simp [tokens, MemRef.tokens, Token.isBlank, readInsn, readJump,
      readAddress_all hreg (hmem mem rfl) hread, asRead]
  | loadTypesMem half mem =>
    simp [tokens, MemRef.tokens, Token.isBlank, readInsn, readRetype,
      readAddress_all hreg (hmem mem rfl) hread, asRead]
  | storeTypesMem half mem =>
    simp [tokens, MemRef.tokens, Token.isBlank, readInsn, readStore,
      readAddress_address hreg (hmem mem rfl) hread, asRead]
  | branch cmp allLanes offset =>
    -- The reader goes by the first token, so what a comparison begins with has to be seen first.
    have hcmp := readComparison_tokens hreg hread (dense (branchTarget offset))
    rcases dense_comparison cmp with ⟨r, c, ts, hts⟩ | ⟨r, c, ts, hts⟩ <;> rw [hts] at hcmp <;>
      cases allLanes <;>
      simp_all [tokens, mark, Token.isBlank, readInsn, readBranch, readCompareBranch,
        readTarget_branchTarget, asRead]
  | bitBranch r bit set offset =>
    simp only [Insn.registers, List.forall_mem_cons] at hreg
    cases set <;>
      simp [tokens, Token.isBlank, reg, hreg, readInsn, readBranch, readTarget_branchTarget,
        asRead]
  | laneCompare rd cmp =>
    simp only [Insn.registers, List.forall_mem_cons] at hreg
    have hcmp := readComparison_tokens hreg.2 hread []
    rw [List.append_nil] at hcmp
    rcases dense_comparison cmp with ⟨r, c, ts, hts⟩ | ⟨r, c, ts, hts⟩ <;> rw [hts] at hcmp <;>
      simp [tokens, hts, Token.isBlank, reg, hreg, readInsn, readValue, hcmp, asRead]
  | fullMul rd ra rb shift isSigned =>
    simp only [Insn.registers, List.forall_mem_cons] at hreg
    cases isSigned <;> simp [tokens, Token.isBlank, reg, hreg, readInsn, readValue, asRead]
  | _ =>
    simp only [Insn.registers, List.forall_mem_cons] at hreg
    simp [tokens, number, Token.isBlank, reg, hreg, readInsn, readValue, readJump, readRetype,
      readImmediate, readSigned, asRead]

end TypedCore
