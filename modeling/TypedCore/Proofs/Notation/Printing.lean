import TypedCore.Proofs.Encoding.Operands
import TypedCore.Proofs.Notation.Tokens

/-!
# Instructions as tokens

The assembly text of an instruction as a row of tokens: `Decoded.tokens` follows
the text form by form. The text is what these tokens spell (`Decoded.text_spell`),
and no two words and no two operators among them touch (`Decoded.tokens_spaced`),
which is what makes the row a function of the text.

Registers are tokens of type `Fin 15`; that an instruction names no others is
`Insn.Valid`. The spacing asks for nothing: it is settled by where the blanks and
the brackets stand.
-/

namespace TypedCore

open Notation

namespace Notation

/-! ## Parts of a text -/

abbrev blank : Token := .key .blank

/-- A register by its number. -/
def reg (r : Nat) : Token := .reg (Fin.ofNat 15 r)

theorem reg_chars {r : Nat} (h : r < 15) : (reg r).chars = (regName r).toList := by
  simp [reg, Token.chars, Nat.mod_eq_of_lt h]

/-- A number in decimal, and once more in hexadecimal. -/
def number (n : Nat) : List Token :=
  [.numeral (.dec n), blank, .key .openParen, .numeral (.hex 0 n), .key .closeParen]

/-- A number in decimal with its sign, if it is negative. -/
def signed : Int → List Token
  | .ofNat n => [.numeral (.dec n)]
  | .negSucc n => [.op .sub, .numeral (.dec (n + 1))]

/-- A displacement: its sign, and then how far, with `between` before the number. -/
def displacement (i : Int) (between : List Token) : List Token :=
  .op (if i < 0 then .sub else .add) :: blank :: (between ++ number i.natAbs)

/-- A word that is left out where it does not apply. -/
def mark (k : Key) (present : Bool) : List Token := if present then [.key k, blank] else []

/-- An assignment. -/
def assign (target source : List Token) : List Token :=
  target ++ blank :: .key .gets :: blank :: source

end Notation

/-- What stands between the brackets of a memory reference, and the closing one. -/
def MemRef.address (mem : MemRef) : List Token :=
  match mem.base, mem.offset with
  | some base, some offset =>
    reg base :: blank :: (displacement offset.toInt (mark .tiny mem.tiny) ++ [.key .closeBracket])
  | some base, none => [reg base, .key .closeBracket]
  | none, some addr => number addr.toNat ++ [.key .closeBracket]
  | none, none => []

def MemRef.tokens (mem : MemRef) (mnemonic : Key) : List Token :=
  .key mnemonic :: .key .openBracket :: mem.address

def Comparison.tokens (cmp : Comparison) : List Token :=
  let ordered := cmp.cond != .eq && cmp.cond != .ne
  mark .signed (cmp.signed && cmp.right.isSome && ordered) ++
    [reg cmp.left, blank, .cond cmp.cond, blank, (cmp.right.map reg).getD (.numeral (.dec 0))]

namespace Notation

/-- The end of a branch, from the blank after its condition. -/
def branchTarget (offset : Int) : List Token :=
  blank :: assign [.pc .active] (.pc .active :: blank :: displacement offset [])

/-- The accesses before or after a fence. -/
def order (reads writes : Bool) : List Token :=
  match reads, writes with
  | true, true => [.key .rw]
  | true, false => [.key .r]
  | false, true => [.key .w]
  | false, false => []

def fence (flags : Nat) : List Token :=
  [.key .fence, blank] ++ order (!flags.testBit 0) (!flags.testBit 1) ++ [.key .comma, blank] ++
    order (!flags.testBit 2) (!flags.testBit 3)

def interrupt : Cause → List Token
  | .fill => [.key .fill]
  | .breakpoint => [.key .breakpoint]
  | .syscall => [.key .syscall]
  | .swi3 => [.key .swi, blank, .numeral (.dec 3)]
  | .swi4 => [.key .swi, blank, .numeral (.dec 4)]
  | .swi5 => [.key .swi, blank, .numeral (.dec 5)]
  | .swi6 => [.key .swi, blank, .numeral (.dec 6)]
  | _ => [.key .sii]

end Notation

def UnaryOp.tokens : UnaryOp → List Token
  | neg => [.op .sub]
  | not => [.key .tilde]
  | signByte => [.key .bsi, blank]
  | signHalf => [.key .wsi, blank]
  | toFloat => [.key .float, blank]
  | toInt => [.key .int, blank]
  | recip => [.numeral (.dec 1), blank, .key .slash, blank]
  | rsqrt => [.key .rsqrt, blank]
  | sum => [.key .sum, blank]

def MemOp.key : MemOp → Key
  | load .byte true => .smem8
  | load .half true => .smem16
  | load .byte false | store .byte => .mem8
  | load .half false | store .half => .mem16
  | load .word _ | store .word => .mem32
  | loadLinked => .memll32
  | storeConditional => .memsr32

def Operand.tokens : Operand → List Token
  | reg r => [Notation.reg r]
  | imm value short =>
    mark .short short ++ signed value.toInt ++
      [blank, .key .openParen, .numeral (.hex 0 value.toNat), .key .closeParen]

/-- Types in a row, with commas between them. -/
def Notation.typeList : List RegType → List Token
  | [] => []
  | [t] => [.type t]
  | t :: u :: ts => .type t :: .key .comma :: blank :: typeList (u :: ts)

/-- The types that a word gives half the registers. -/
def RegHalf.types (half : RegHalf) (types : Word) : List RegType :=
  (List.range half.size).map (nibbleType types)

/-! ## Instructions -/

/-- The tokens of an instruction with a meaning. -/
def Insn.tokens : Insn → List Token
  | unknown => []
  | interrupt cause => Notation.interrupt cause
  | enterTask => [.key .stm]
  | waitForInterrupt => [.key .woi]
  | fence flags => Notation.fence flags
  | jumpReg target rd => assign [.pc target] [reg rd]
  | jumpImm target addr short => assign [.pc target] (mark .short short ++ number addr.toNat)
  | readPc rd source => assign [reg rd] [.pc source]
  | loadImm rd value short => assign [reg rd] (mark .short short ++ number value.toNat)
  | tinyImm rd value => assign [reg rd] (mark .tiny true ++ Notation.signed value)
  | link rd offset => assign [reg rd] ([.pc .active, blank, .op .add, blank] ++ number offset.toNat)
  | unary op rd ra => assign [reg rd] (op.tokens ++ [reg ra])
  | setTypeReg rd ra => assign [.key .type, blank, reg rd] [reg ra]
  | getType rd ra => assign [reg rd] [.key .type, blank, reg ra]
  | setTypeImm rd type => assign [.key .type, blank, reg rd] [.type type]
  | binary op rd lhs rhs => assign [reg rd] (lhs.tokens ++ [blank, .op op, blank, reg rhs])
  | andNot rd ra rb => assign [reg rd] [.key .tilde, reg ra, blank, .op .and, blank, reg rb]
  | tinyAdd rd rb value =>
    assign [reg rd] (mark .tiny true ++ [reg rb, blank, .op .add, blank] ++ Notation.signed value)
  | loadTypes half types =>
    assign [.key .type, blank, .half half] (typeList (half.types types))
  | swizzle rd ra pattern =>
    assign [reg rd] [.key .swizzle, blank, reg ra, blank, .numeral (.swizzle pattern)]
  | memory op r mem =>
    if op.isStore then assign (mem.tokens op.key) [reg r] else assign [reg r] (mem.tokens op.key)
  | invalidate mem => mem.tokens .inv32
  | jumpMem target mem => assign [.pc target] (mem.tokens .mem32)
  | loadTypesMem half mem => assign [.key .type, blank, .half half] (mem.tokens .mem32)
  | storeTypesMem half mem => assign (mem.tokens .mem32) [.key .type, blank, .half half]
  | branch cmp allLanes offset =>
    .key .test :: blank :: (mark .all allLanes ++ cmp.tokens ++ branchTarget offset)
  | bitBranch r bit set offset =>
    [.key .test, blank, reg r, .key .openBracket, .numeral (.dec bit), .key .closeBracket, blank,
      .cond .eq, blank, .numeral (.dec (if set then 1 else 0))] ++ branchTarget offset
  | fullMul rd ra rb shift isSigned =>
    assign [reg rd] [.key .full, blank, reg ra, blank, .op .mul, blank, reg rb, blank,
      .op (if isSigned then .shiftRightSigned else .shiftRight), blank, .numeral (.dec shift)]
  | laneCompare rd cmp => assign [reg rd] cmp.tokens
  | interpolate rd ra rb => assign [reg rd] [.key .interpolate, blank, reg ra, blank, reg rb]
  | csrRead rd addr =>
    assign [reg rd] (.key .csr :: .key .openBracket :: (number addr.toNat ++ [.key .closeBracket]))
  | csrWrite rd addr =>
    assign (.key .csr :: .key .openBracket :: (number addr.toNat ++ [.key .closeBracket])) [reg rd]

def Decoded.unknownTokens (d : Decoded) : List Token :=
  [.key .unknown, blank, .key .instruction, blank, .numeral (.hex 4 d.word.toNat)] ++
    match d.len with
    | 2 => []
    | 4 => [blank, .numeral (.hex 4 d.ext.toNat)]
    | _ => [blank, .numeral (.hex 8 d.ext.toNat)]

def Decoded.tokens (d : Decoded) : List Token :=
  match d.insn with
  | .unknown => d.unknownTokens
  | insn => insn.tokens

/-! ## Spelling -/

namespace Notation

@[simp] theorem key_chars (k : Key) : (Token.key k).chars = k.text.toList := rfl

@[simp] theorem pc_chars (p : PcRef) : (Token.pc p).chars = p.name.toList := rfl

@[simp] theorem half_chars (h : RegHalf) : (Token.half h).chars = h.text.toList := rfl

@[simp] theorem type_chars (t : RegType) : (Token.type t).chars = t.name.toList := rfl

@[simp] theorem op_chars (o : BinaryOp) : (Token.op o).chars = o.symbol.toList := rfl

@[simp] theorem cond_chars (c : Cond) : (Token.cond c).chars = c.symbol.toList := rfl

@[simp] theorem dec_chars (n : Nat) : (Token.numeral (.dec n)).chars = (Text.dec n).toList := rfl

@[simp] theorem hex_chars (width n : Nat) :
    (Token.numeral (.hex width n)).chars = '0' :: 'x' :: (Text.hexPadded width n).toList := rfl

@[simp] theorem swizzle_chars (pattern : Byte) :
    (Token.numeral (.swizzle pattern)).chars = (swizzleText pattern).toList := rfl

@[simp] theorem hexPadded_zero (n : Nat) : Text.hexPadded 0 n = Text.hex n := by
  simp [Text.hexPadded, Text.padLeft, String.pushn, Nat.repeat]

theorem number_spell (n : Nat) : spell (number n) = (Text.decHex n).toList := by
  simp [Text.decHex, number, Key.text]

theorem signed_spell (i : Int) : spell (signed i) = (Text.signedDec i).toList := by
  cases i <;> simp [Text.signedDec, signed, BinaryOp.symbol]

theorem assign_spell (target source : List Token) :
    spell (assign target source) = spell target ++ " <- ".toList ++ spell source := by
  simp [assign, Key.text]

theorem mark_spell (k : Key) (present : Bool) :
    spell (mark k present) = (if present then k.text ++ " " else "").toList := by
  cases present <;> simp [mark, Key.text]

@[simp] theorem mark_true (k : Key) : mark k true = [.key k, blank] := rfl

theorem short_spell (short : Bool) : spell (mark .short short) = (shortMark short).toList :=
  mark_spell .short short

theorem order_spell (before after : Bool) : spell (order (!before) (!after)) =
    (if before then "" else "r").toList ++ (if after then "" else "w").toList := by
  cases before <;> cases after <;> simp [order, Key.text]

theorem fence_spell (flags : Nat) : spell (fence flags) = (fenceText flags).toList := by
  simp only [fence, fenceText, spell_append, order_spell, String.toList_append, List.append_assoc]
  rfl

theorem interrupt_spell (cause : Cause) :
    spell (interrupt cause) = (interruptText cause).toList := by
  cases cause <;> rfl

theorem unary_spell (op : UnaryOp) : spell op.tokens = op.mark.toList := by
  cases op <;> rfl

theorem key_mnemonic (op : MemOp) : op.key.text = op.mnemonic := by
  rcases op with ⟨_ | _ | _, _ | _⟩ | _ | ⟨_ | _ | _⟩ | _ <;> rfl

theorem branchTarget_spell (offset : Int) :
    spell (branchTarget offset) = (branchText offset).toList := by
  unfold branchTarget branchText displacement
  split <;> simp [assign_spell, number_spell, PcRef.name, BinaryOp.symbol, Key.text]

end Notation

theorem MemRef.text_spell {mem : MemRef} (hreg : ∀ r ∈ mem.registers, r < 15)
    (hmem : mem.isNamed) (k : Key) :
    ∃ t, mem.text k.text = .ok t ∧ t.toList = spell (mem.tokens k) := by
  have htokens : spell (mem.tokens k) = k.text.toList ++ '[' :: spell mem.address := rfl
  rw [htokens]
  generalize k.text = mnemonic
  obtain ⟨base, offset, tiny⟩ := mem
  cases base with
  | none =>
    cases offset with
    | none => simp [isNamed] at hmem
    | some addr => exact ⟨_, rfl, by simp [address, number_spell, Key.text]⟩
  | some base =>
    have hbase := reg_chars (hreg base (by simp [registers]))
    cases offset with
    | none => exact ⟨_, rfl, by simp [address, hbase, Key.text]⟩
    | some offset =>
      refine ⟨_, rfl, ?_⟩
      simp only [address, displacement, spell_cons, spell_append, hbase, mark_spell, number_spell]
      split <;> cases tiny <;> simp [BinaryOp.symbol, Key.text]

theorem Comparison.text_spell {cmp : Comparison} (hreg : ∀ r ∈ cmp.registers, r < 15) :
    cmp.text.toList = spell cmp.tokens := by
  obtain ⟨cond, signed, left, right, typedBy⟩ := cmp
  have hleft := reg_chars (hreg left (by simp [registers]))
  have hdec : (Text.dec 0).toList = ['0'] := rfl
  cases right with
  | none => simp [tokens, text, hleft, hdec, mark_spell, Key.text]
  | some right =>
    have hright := reg_chars (hreg right (by simp [registers]))
    simp only [tokens, text, spell_append, mark_spell, String.toList_append]
    split <;> simp [hleft, hright, Key.text]

theorem Operand.text_spell {lhs : Operand} (hreg : ∀ r ∈ lhs.registers, r < 15) :
    lhs.text.toList = spell lhs.tokens := by
  cases lhs with
  | reg r => simp [text, tokens, reg_chars (hreg r (by simp [registers]))]
  | imm value short => simp [text, tokens, short_spell, signed_spell, Key.text]

theorem Notation.typeList_spell : ∀ ts : List RegType,
    spell (typeList ts) = (", ".intercalate (ts.map RegType.name)).toList
  | [] => rfl
  | [t] => by simp [typeList]
  | t :: u :: ts => by
    have ih := typeList_spell (u :: ts)
    simp only [List.map_cons] at ih ⊢
    rw [String.intercalate_cons_cons, String.toList_append, ← ih]
    simp [typeList, Key.text]

theorem Decoded.unknown_spell (d : Decoded) : (unknownText d).toList = spell d.unknownTokens := by
  obtain ⟨word, ext, len, insn⟩ := d
  unfold unknownText unknownTokens
  dsimp only
  split <;> simp [Key.text]

/-- The text of an instruction is that of its tokens. -/
theorem Decoded.text_spell {d : Decoded} (hvalid : d.insn.Valid) :
    ∃ t, d.text = .ok t ∧ t.toList = spell d.tokens := by
  obtain ⟨word, ext, len, insn⟩ := d
  obtain ⟨hreg, hmem⟩ := hvalid
  cases insn with
  | unknown => exact ⟨_, rfl, unknown_spell _⟩
  | interrupt cause => exact ⟨_, rfl, (interrupt_spell cause).symm⟩
  | fence flags => exact ⟨_, rfl, (fence_spell flags).symm⟩
  | loadTypes half types =>
    refine ⟨_, rfl, ?_⟩
    simp [tokens, Insn.tokens, assign_spell, typeList_spell, RegHalf.types, Function.comp_def,
      Key.text]
  | memory op r mem =>
    simp only [Insn.registers, List.forall_mem_cons] at hreg
    obtain ⟨ref, href, hspell⟩ := mem.text_spell hreg.2 (hmem mem rfl) op.key
    rw [key_mnemonic] at href
    refine ⟨if op.isStore then ref ++ " <- " ++ regName r else regName r ++ " <- " ++ ref,
      by simp only [text, href]; rfl, ?_⟩
    cases hstore : op.isStore <;>
      simp [tokens, Insn.tokens, hstore, assign_spell, reg_chars hreg.1, hspell]
  | invalidate mem => exact mem.text_spell hreg (hmem mem rfl) .inv32
  | jumpMem target mem =>
    obtain ⟨ref, (href : mem.text "mem32" = _), hspell⟩ :=
      mem.text_spell hreg (hmem mem rfl) .mem32
    refine ⟨_, by simp only [text, href]; rfl, ?_⟩
    simp [tokens, Insn.tokens, assign_spell, hspell]
  | loadTypesMem half mem =>
    obtain ⟨ref, (href : mem.text "mem32" = _), hspell⟩ :=
      mem.text_spell hreg (hmem mem rfl) .mem32
    refine ⟨_, by simp only [text, href]; rfl, ?_⟩
    simp [tokens, Insn.tokens, assign_spell, hspell, Key.text]
  | storeTypesMem half mem =>
    obtain ⟨ref, (href : mem.text "mem32" = _), hspell⟩ :=
      mem.text_spell hreg (hmem mem rfl) .mem32
    refine ⟨_, by simp only [text, href]; rfl, ?_⟩
    simp [tokens, Insn.tokens, assign_spell, hspell, Key.text]
  | binary op rd lhs rhs =>
    simp only [Insn.registers, List.forall_mem_cons] at hreg
    obtain ⟨hd, hb, hlhs⟩ := hreg
    refine ⟨_, rfl, ?_⟩
    simp [tokens, Insn.tokens, assign_spell, lhs.text_spell hlhs, reg_chars, hd, hb, Key.text]
  | branch cmp allLanes offset =>
    refine ⟨_, rfl, ?_⟩
    simp [tokens, Insn.tokens, cmp.text_spell hreg, mark_spell, branchTarget_spell, Key.text]
  | laneCompare rd cmp =>
    simp only [Insn.registers, List.forall_mem_cons] at hreg
    refine ⟨_, rfl, ?_⟩
    simp [tokens, Insn.tokens, assign_spell, reg_chars, hreg, cmp.text_spell hreg.2]
  | bitBranch r bit set offset =>
    have hr := reg_chars (hreg r (by simp [Insn.registers]))
    refine ⟨_, rfl, ?_⟩
    cases set <;>
      simp [tokens, Insn.tokens, hr, branchTarget_spell, Key.text, Cond.symbol] <;> rfl
  | fullMul rd ra rb shift isSigned =>
    simp only [Insn.registers, List.forall_mem_cons] at hreg
    refine ⟨_, rfl, ?_⟩
    cases isSigned <;>
      simp [tokens, Insn.tokens, assign_spell, reg_chars, hreg, BinaryOp.symbol, Key.text]
  | _ =>
    simp only [Insn.registers, List.forall_mem_cons] at hreg
    refine ⟨_, rfl, ?_⟩
    simp [tokens, Insn.tokens, assign_spell, short_spell, number_spell, signed_spell, unary_spell,
      reg_chars, hreg, Key.text, BinaryOp.symbol, PcRef.name]

/-! ## Spacing -/

namespace Notation

variable {t u : Token} {k : Key} {ts us : List Token}

@[simp] theorem spaced_nil : Spaced [] := List.isChain_nil

@[simp] theorem spaced_singleton : Spaced [t] := List.isChain_singleton t

@[simp] theorem spaced_cons_cons :
    Spaced (t :: u :: ts) ↔ t.kind.joins u.kind = false ∧ Spaced (u :: ts) :=
  List.isChain_cons_cons

@[simp] theorem spaced_key (hk : k.kind = .single) : Spaced (.key k :: ts) ↔ Spaced ts := by
  cases ts <;> simp [hk]

@[simp] theorem spaced_append_key (hk : k.kind = .single) :
    Spaced (ts ++ .key k :: us) ↔ Spaced ts ∧ Spaced us := by
  have hus : Spaced (.key k :: us) ↔ Spaced us := spaced_key hk
  unfold Spaced at hus ⊢
  rw [List.isChain_append, hus]
  simp [hk]

@[simp] theorem spaced_assign : Spaced (assign ts us) ↔ Spaced ts ∧ Spaced us := by
  simp +decide [assign]

@[simp] theorem spaced_mark (k : Key) (present : Bool) :
    Spaced (mark k present ++ ts) ↔ Spaced ts := by
  cases present with
  | false => rfl
  | true =>
    have hblank : Spaced ([.key k] ++ blank :: ts) ↔ Spaced [.key k] ∧ Spaced ts :=
      spaced_append_key rfl
    exact hblank.trans (by simp)

@[simp] theorem spaced_number (n : Nat) : Spaced (number n) := by
  simp +decide [number, Token.kind]

@[simp] theorem spaced_signed (i : Int) : Spaced (signed i) := by
  cases i <;> simp +decide [signed, Token.kind]

@[simp] theorem spaced_order (reads writes : Bool) : Spaced (order reads writes) := by
  cases reads <;> cases writes <;> simp [order]

@[simp] theorem spaced_branchTarget (offset : Int) :
    Spaced (ts ++ branchTarget offset) ↔ Spaced ts := by
  simp +decide [branchTarget, displacement, Token.kind]

theorem spaced_cons_branchTarget (offset : Int) : Spaced (t :: branchTarget offset) := by
  have htarget : Spaced ([t] ++ branchTarget offset) ↔ Spaced [t] := spaced_branchTarget offset
  exact htarget.mpr spaced_singleton

theorem interrupt_spaced (cause : Cause) : Spaced (interrupt cause) := by
  cases cause <;> simp +decide [interrupt]

theorem unary_spaced (op : UnaryOp) (r : Nat) : Spaced (op.tokens ++ [reg r]) := by
  cases op <;> simp +decide [UnaryOp.tokens, reg, Token.kind]

theorem typeList_spaced : ∀ ts : List RegType, Spaced (typeList ts)
  | [] => spaced_nil
  | [t] => spaced_singleton
  | t :: u :: ts => by
    have ih := typeList_spaced (u :: ts)
    simp +decide [typeList, Token.kind, ih]

end Notation

theorem MemRef.tokens_spaced (mem : MemRef) (k : Key) : Spaced (mem.tokens k) := by
  obtain ⟨base, offset, tiny⟩ := mem
  have hbracket (k : Key) : k.kind.joins Key.openBracket.kind = false := CharKind.joins_single _
  cases base <;> cases offset <;>
    simp +decide [tokens, address, displacement, reg, Token.kind, hbracket]

theorem Comparison.tokens_spaced (cmp : Comparison) : Spaced cmp.tokens := by
  cases h : cmp.right <;> simp +decide [tokens, h, reg, Token.kind]

theorem Operand.tokens_spaced (lhs : Operand) : Spaced lhs.tokens := by
  cases lhs <;> simp +decide [tokens, Token.kind]

theorem Insn.tokens_spaced (insn : Insn) : Spaced insn.tokens := by
  cases insn with
  | interrupt cause => exact interrupt_spaced cause
  | unary op rd ra => simp [tokens, unary_spaced]
  | loadTypes half types => simp +decide [tokens, typeList_spaced, Token.kind]
  | memory op r mem => cases hstore : op.isStore <;> simp [tokens, hstore, mem.tokens_spaced]
  | _ =>
    simp +decide [tokens, Notation.fence, reg, Operand.tokens_spaced, Comparison.tokens_spaced,
      MemRef.tokens_spaced, spaced_cons_branchTarget, Token.kind]

/-- No two words and no two operators of an instruction touch. -/
theorem Decoded.tokens_spaced (d : Decoded) : Spaced d.tokens := by
  unfold tokens
  split
  · unfold unknownTokens
    split <;> simp +decide [Token.kind]
  · exact Insn.tokens_spaced _

end TypedCore
