import Mathlib.Data.List.Nodup
import Mathlib.Data.List.SplitBy
import TypedCore.Insn.Text

/-!
# Tokens of assembly text

Assembly text is a row of words, operators and single marks. A word is a run of
letters and digits, an operator a run of the characters that operators are made
of, and a blank, a bracket or a comma stands for itself. Where no two words and
no two operators touch, cutting the text wherever the kind of character changes
gives back the tokens it was put together from (`chunks_spell`). Distinct tokens
are spelled differently, so such a row of tokens is determined by its text
(`spell_injective`).

Registers, program counters, types, operators and keywords are finitely many, and
that they are spelled differently is checked on the list of them. Numbers are the
words that begin with a digit; a token keeps the digits, and what number they are
is a question for whoever reads the token.
-/

namespace TypedCore.Notation

/-! ## Characters -/

/-- What a character can be part of. -/
inductive CharKind where
  | word
  | operator
  | single
  deriving DecidableEq

/-- Whether two characters of these kinds that stand side by side belong together. -/
def CharKind.joins : CharKind → CharKind → Bool
  | word, word | operator, operator => true
  | _, _ => false

@[simp] theorem CharKind.single_joins (k : CharKind) : single.joins k = false := by
  cases k <;> rfl

@[simp] theorem CharKind.joins_single (k : CharKind) : k.joins single = false := by
  cases k <;> rfl

theorem CharKind.joins_self {k : CharKind} (h : k ≠ single) : k.joins k = true := by
  cases k <;> trivial

/-- The kind of a character. The dots belong to the names of the register halves. -/
def kind (c : Char) : CharKind :=
  if c.isAlphanum || c ∈ ['$', '_', '.'] then .word
  else if c ∈ ['<', '>', '=', '!', '+', '-', '*', '/', '&', '|', '^', '~'] then .operator
  else .single

/-- Whether two characters that stand side by side belong to one token. -/
def joins (c d : Char) : Bool := (kind c).joins (kind d)

theorem kind_alphanum {c : Char} (h : c.isAlphanum) : kind c = .word := by
  simp [kind, h]

/-! ## Numerals -/

/-- A word that begins with a digit. -/
structure Numeral where
  chars : List Char
  begins : ∃ c ∈ chars.head?, c.isDigit
  words : ∀ c ∈ chars, kind c = .word

namespace Numeral

theorem chars_injective {m n : Numeral} (h : m.chars = n.chars) : m = n := by
  cases m
  cases n
  cases h
  rfl

/-- The number that the digits make in a given base. -/
def value (base : Nat) (n : Numeral) : Nat := base.ofDigitChars n.chars 0

theorem digitChar_isAlphanum : ∀ d < 16, (Nat.digitChar d).isAlphanum := by
  decide

theorem toDigits_isAlphanum {b : Nat} (hb : 1 < b) (hb16 : b ≤ 16) (n : Nat) :
    ∀ c ∈ Nat.toDigits b n, c.isAlphanum := by
  induction n using Nat.strongRecOn with
  | ind n ih =>
    intro c hc
    rcases Nat.lt_or_ge n b with hn | hn
    · rw [Nat.toDigits_of_lt_base hn, List.mem_singleton] at hc
      exact hc ▸ digitChar_isAlphanum n (hn.trans_le hb16)
    · rw [Nat.toDigits_of_base_le hb hn, List.mem_append, List.mem_singleton] at hc
      rcases hc with hc | rfl
      · exact ih (n / b) (Nat.div_lt_self (by omega) hb) c hc
      · exact digitChar_isAlphanum _ ((Nat.mod_lt _ (by omega)).trans_le hb16)

theorem pushn_toList (c : Char) (n : Nat) : ("".pushn c n).toList = List.replicate n c := by
  induction n with
  | zero => simp [String.pushn, Nat.repeat]
  | succ n ih =>
    simp only [String.pushn, Nat.repeat, String.toList_push] at ih ⊢
    rw [ih, List.replicate_succ']

theorem hexPadded_toList (width n : Nat) :
    (Text.hexPadded width n).toList =
      List.replicate (width - (Nat.toDigits 16 n).length) '0' ++ Nat.toDigits 16 n := by
  simp [Text.hexPadded, Text.padLeft, Text.hex, pushn_toList]

/-- A number in decimal. -/
def dec (n : Nat) : Numeral where
  chars := (Text.dec n).toList
  begins := by
    obtain ⟨c, cs, h⟩ := List.exists_cons_of_ne_nil (Nat.toDigits_ne_nil (n := n) (b := 10))
    refine ⟨c, by simp [Text.dec, h], ?_⟩
    exact Nat.isDigit_of_mem_toDigits (b := 10) (n := n) (by decide) (by decide) (by simp [h])
  words c hc := by
    rw [Text.dec, Nat.toList_repr] at hc
    exact kind_alphanum (toDigits_isAlphanum (by decide) (by decide) n c hc)

/-- A number in hexadecimal with at least `width` digits, and the prefix that says so. -/
def hex (width n : Nat) : Numeral where
  chars := '0' :: 'x' :: (Text.hexPadded width n).toList
  begins := ⟨'0', rfl, by decide⟩
  words c hc := by
    simp only [hexPadded_toList, List.mem_cons, List.mem_append, List.mem_replicate] at hc
    rcases hc with rfl | rfl | ⟨-, rfl⟩ | hc
    · decide
    · decide
    · decide
    · exact kind_alphanum (toDigits_isAlphanum (by decide) (by decide) n c hc)

theorem swizzleText_toList (pattern : Byte) : (swizzleText pattern).toList =
    [3, 2, 1, 0].map fun i => Nat.digitChar (pattern.toNat >>> (2 * i) % 4) := by
  have hdigit : ∀ n, (Text.dec (n % 4)).toList = [Nat.digitChar (n % 4)] := fun n => by
    rw [Text.dec, Nat.toList_repr, Nat.toDigits_of_lt_base (by omega)]
  simp [swizzleText, String.join, hdigit]

/-- The source byte of each byte of a swizzle, the highest first. -/
def swizzle (pattern : Byte) : Numeral where
  chars := (swizzleText pattern).toList
  begins := by
    refine ⟨_, by rw [swizzleText_toList]; rfl, ?_⟩
    exact (by decide : ∀ d < 4, (Nat.digitChar d).isDigit) _ (Nat.mod_lt _ (by decide))
  words c hc := by
    rw [swizzleText_toList] at hc
    obtain ⟨i, -, rfl⟩ := List.mem_map.mp hc
    exact kind_alphanum
      (digitChar_isAlphanum _ ((Nat.mod_lt _ (by decide)).trans (by decide : 4 < 16)))

@[simp] theorem value_dec (n : Nat) : (dec n).value 10 = n := by
  change Nat.ofDigitChars 10 n.repr.toList 0 = n
  rw [Nat.toList_repr, Nat.ofDigitChars_toDigits (by decide) (by decide)]

/-- A byte in base 4, two bits a digit. -/
@[simp] theorem value_swizzle (pattern : Byte) :
    BitVec.ofNat 8 ((swizzle pattern).value 4) = pattern := by
  change BitVec.ofNat 8 (Nat.ofDigitChars 4 (swizzleText pattern).toList 0) = pattern
  rw [swizzleText_toList]
  revert pattern
  decide +kernel

end Numeral

/-! ## Tokens -/

/-- The words, operators and marks of the notation that stand for themselves. -/
inductive Key where
  | blank | comma | openBracket | closeBracket | openParen | closeParen
  | gets | tilde | slash
  | fill | breakpoint | syscall | swi | sii | stm | woi | fence | r | w | rw
  | short | tiny | type | test | all | signed | full | swizzle | interpolate | csr
  | unknown | instruction
  | bsi | wsi | float | int | rsqrt | sum
  | mem8 | mem16 | mem32 | smem8 | smem16 | memll32 | memsr32 | inv32
  deriving DecidableEq

namespace Key

/-- Every key, in the order of the constructors. -/
def keys : List Key :=
  [blank, comma, openBracket, closeBracket, openParen, closeParen, gets, tilde, slash, fill,
    breakpoint, syscall, swi, sii, stm, woi, fence, r, w, rw, short, tiny, type, test, all, signed,
    full, swizzle, interpolate, csr, unknown, instruction, bsi, wsi, float, int, rsqrt, sum, mem8,
    mem16, mem32, smem8, smem16, memll32, memsr32, inv32]

theorem mem_keys (k : Key) : k ∈ keys := by
  cases k <;> decide

def text : Key → String
  | blank => " "
  | comma => ","
  | openBracket => "["
  | closeBracket => "]"
  | openParen => "("
  | closeParen => ")"
  | gets => "<-"
  | tilde => "~"
  | slash => "/"
  | fill => "fill"
  | breakpoint => "break"
  | syscall => "syscall"
  | swi => "swi"
  | sii => "sii"
  | stm => "stm"
  | woi => "woi"
  | fence => "fence"
  | r => "r"
  | w => "w"
  | rw => "rw"
  | short => "short"
  | tiny => "tiny"
  | type => "type"
  | test => "if"
  | all => "all"
  | signed => "signed"
  | full => "full"
  | swizzle => "lane_swizzle"
  | interpolate => "interpolate"
  | csr => "csr"
  | unknown => "unknown"
  | instruction => "instruction"
  | bsi => "bsi"
  | wsi => "wsi"
  | float => "float"
  | int => "int"
  | rsqrt => "rsqrt"
  | sum => "sum"
  | mem8 => "mem8"
  | mem16 => "mem16"
  | mem32 => "mem32"
  | smem8 => "smem8"
  | smem16 => "smem16"
  | memll32 => "memll32"
  | memsr32 => "memsr32"
  | inv32 => "inv32"

def kind : Key → CharKind
  | blank | comma | openBracket | closeBracket | openParen | closeParen => .single
  | gets | tilde | slash => .operator
  | _ => .word

end Key

/-- A token of assembly text. -/
inductive Token where
  | reg (r : Fin 15)
  | pc (p : PcRef)
  | half (h : RegHalf)
  | type (t : RegType)
  | op (o : BinaryOp)
  | cond (c : Cond)
  | key (k : Key)
  | numeral (n : Numeral)

namespace Token

def chars : Token → List Char
  | reg r => (regName r).toList
  | pc p => p.name.toList
  | half h => h.text.toList
  | type t => t.name.toList
  | op o => o.symbol.toList
  | cond c => c.symbol.toList
  | key k => k.text.toList
  | numeral n => n.chars

/-- The kind of its characters. -/
def kind : Token → CharKind
  | op _ | cond _ => .operator
  | key k => k.kind
  | _ => .word

@[simp] theorem kind_key (k : Key) : (key k).kind = k.kind := rfl

/-- Every token that is not a numeral. -/
def vocabulary : List Token :=
  (List.finRange 15).map reg ++ [pc .active, pc .task, half .low, half .high] ++
  (List.range 16).map (fun code => type (.ofCode (BitVec.ofNat 4 code))) ++
  [BinaryOp.xor, .or, .and, .add, .sub, .shiftLeft, .shiftRight, .shiftRightSigned, .mul].map op ++
  [Cond.eq, .ne, .lt, .ge, .gt, .le].map cond ++ Key.keys.map key

theorem mem_vocabulary (t : Token) : (∃ n, t = numeral n) ∨ t ∈ vocabulary := by
  cases t with
  | numeral n => exact .inl ⟨n, rfl⟩
  | reg r => simp [vocabulary]
  | type t =>
    have : type t ∈ (List.range 16).map fun code => type (.ofCode (BitVec.ofNat 4 code)) :=
      List.mem_map.mpr ⟨t.code.toNat, by simp [t.code.isLt], by simp⟩
    simp [vocabulary, this]
  | pc p => cases p <;> simp [vocabulary]
  | half h => cases h <;> simp [vocabulary]
  | op o => cases o <;> simp [vocabulary]
  | cond c => cases c <;> simp [vocabulary]
  | key k => simp [vocabulary, k.mem_keys]

theorem vocabulary_chars_nodup : (vocabulary.map chars).Nodup := by
  decide +kernel

theorem vocabulary_no_digit : ∀ t ∈ vocabulary, t.chars.head?.any Char.isDigit = false := by
  decide +kernel

theorem not_isDigit_of_mem_vocabulary {t : Token} (ht : t ∈ vocabulary) {c : Char}
    (hc : c ∈ t.chars.head?) : c.isDigit = false := by
  simpa [Option.mem_def.mp hc] using vocabulary_no_digit t ht

theorem chars_injective {t u : Token} (h : t.chars = u.chars) : t = u := by
  rcases t.mem_vocabulary with ⟨m, rfl⟩ | ht <;> rcases u.mem_vocabulary with ⟨n, rfl⟩ | hu
  · exact congrArg numeral (Numeral.chars_injective h)
  · obtain ⟨c, hc, hdigit⟩ := m.begins
    have := not_isDigit_of_mem_vocabulary hu (c := c) (h ▸ hc)
    simp [hdigit] at this
  · obtain ⟨c, hc, hdigit⟩ := n.begins
    have := not_isDigit_of_mem_vocabulary ht (c := c) (h ▸ hc)
    simp [hdigit] at this
  · exact List.inj_on_of_nodup_map vocabulary_chars_nodup ht hu h

/-- Nothing that stands for itself is longer than a character. -/
structure WellSpelled (t : Token) : Prop where
  ne_nil : t.chars ≠ []
  chars_kind : ∀ c ∈ t.chars, Notation.kind c = t.kind
  length : t.kind = .single → t.chars.length = 1

instance (t : Token) : Decidable t.WellSpelled :=
  decidable_of_iff (t.chars ≠ [] ∧ (t.chars.all fun c => Notation.kind c = t.kind) ∧
      (t.kind = .single → t.chars.length = 1))
    ⟨fun ⟨a, b, c⟩ => ⟨a, by simpa using b, c⟩, fun ⟨a, b, c⟩ => ⟨a, by simpa using b, c⟩⟩

theorem vocabulary_wellSpelled : ∀ t ∈ vocabulary, t.WellSpelled := by
  decide +kernel

theorem wellSpelled (t : Token) : t.WellSpelled := by
  rcases t.mem_vocabulary with ⟨n, rfl⟩ | ht
  · refine ⟨fun h => ?_, n.words, nofun⟩
    obtain ⟨c, hc, -⟩ := n.begins
    simp_all [chars]
  · exact vocabulary_wellSpelled t ht

theorem chars_isChain (t : Token) : t.chars.IsChain fun c d => joins c d = true := by
  obtain ⟨-, hkind, hlength⟩ := t.wellSpelled
  by_cases h : t.kind = .single
  · obtain ⟨c, hc⟩ := List.length_eq_one_iff.mp (hlength h)
    simp [hc]
  · refine (List.pairwise_of_forall_mem_list fun c hc d hd => ?_).isChain
    rw [joins, hkind c hc, hkind d hd]
    exact CharKind.joins_self h

end Token

/-! ## Rows of tokens -/

/-- The text of a row of tokens. -/
def spell (ts : List Token) : List Char := ts.flatMap Token.chars

@[simp] theorem spell_nil : spell [] = [] := rfl

@[simp] theorem spell_cons (t : Token) (ts : List Token) : spell (t :: ts) = t.chars ++ spell ts :=
  rfl

@[simp] theorem spell_append (ts us : List Token) : spell (ts ++ us) = spell ts ++ spell us :=
  List.flatMap_append

/-- No two words and no two operators touch. -/
def Spaced (ts : List Token) : Prop := ts.IsChain fun t u => t.kind.joins u.kind = false

/-- The text, cut wherever the kind of character changes and around every single mark. -/
theorem chunks_spell {ts : List Token} (h : Spaced ts) :
    (spell ts).splitBy joins = ts.map Token.chars := by
  rw [List.splitBy_eq_iff]
  refine ⟨List.flatMap_def, fun hnil => ?_, fun m hm => ?_, ?_⟩
  · obtain ⟨t, -, ht⟩ := List.mem_map.mp hnil
    exact t.wellSpelled.ne_nil ht
  · obtain ⟨t, -, rfl⟩ := List.mem_map.mp hm
    exact t.chars_isChain
  · rw [List.isChain_map]
    refine h.imp fun t u htu => ⟨t.wellSpelled.ne_nil, u.wellSpelled.ne_nil, ?_⟩
    rw [joins, t.wellSpelled.chars_kind _ (List.getLast_mem _),
      u.wellSpelled.chars_kind _ (List.head_mem _), htu]

/-- The text of a row of tokens determines the row. -/
theorem spell_injective {ts us : List Token} (ht : Spaced ts) (hu : Spaced us)
    (h : spell ts = spell us) : ts = us := by
  have hmap : ts.map Token.chars = us.map Token.chars := by
    rw [← chunks_spell ht, ← chunks_spell hu, h]
  exact List.map_injective_iff.mpr (fun _ _ => Token.chars_injective) hmap

end TypedCore.Notation
