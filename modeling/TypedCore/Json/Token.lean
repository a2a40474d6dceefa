/-!
# JSON tokens

A text is cut into tokens one character at a time. Brackets, commas and
colons stand for themselves; a string ends at its closing quote; whatever
else stands between them is a word, which has to be a number or one of the
three literals.

Numbers matter only if they are plain naturals, and strings only if they
are text: an escape can name half a surrogate pair, which no character
has. Both are kept as tokens all the same, so that a reader may pass over
them.
-/

namespace TypedCore.Json

/-- A token. -/
inductive Token where
  | openArray
  | closeArray
  | openObject
  | closeObject
  | comma
  | colon
  | null
  | bool (b : Bool)
  /-- A number; its value, if it is written without sign, fraction and exponent. -/
  | number (natural : Option Nat)
  /-- A string; its text, if its escapes name characters. -/
  | string (text : Option String)
  deriving DecidableEq, Repr

/-! ## Words -/

namespace Number

/-- What follows one or more digits. -/
def afterDigits? : List Char → Option (List Char)
  | c :: rest => if c.isDigit then some (rest.dropWhile Char.isDigit) else none
  | [] => none

/-- What follows the whole part; a leading zero stands alone. -/
def afterWhole? : List Char → Option (List Char)
  | '0' :: rest => some rest
  | cs => afterDigits? cs

/-- What follows the fraction, if there is one. -/
def afterFraction? : List Char → Option (List Char)
  | '.' :: rest => afterDigits? rest
  | cs => some cs

/-- What follows the sign of an exponent, if it has one. -/
def afterSign : List Char → List Char
  | '+' :: rest | '-' :: rest => rest
  | cs => cs

/-- What follows the exponent, if there is one. -/
def afterExponent? : List Char → Option (List Char)
  | 'e' :: rest | 'E' :: rest => afterDigits? (afterSign rest)
  | cs => some cs

def isUnsigned (word : List Char) : Bool :=
  ((afterWhole? word).bind afterFraction?).bind afterExponent? == some []

def isNumber : List Char → Bool
  | '-' :: rest => isUnsigned rest
  | word => isUnsigned word

def ofDigits (digits : List Char) : Nat :=
  digits.foldl (fun n c => 10 * n + (c.toNat - '0'.toNat)) 0

end Number

def Token.ofWord? (word : List Char) : Option Token :=
  if word = "null".toList then some .null
  else if word = "true".toList then some (.bool true)
  else if word = "false".toList then some (.bool false)
  else if Number.isNumber word then
    some (.number (if word.all Char.isDigit then some (Number.ofDigits word) else none))
  else none

/-! ## Strings -/

def hexDigit? (c : Char) : Option Nat :=
  if c.isDigit then some (c.toNat - '0'.toNat)
  else if 'a' ≤ c ∧ c ≤ 'f' then some (c.toNat - 'a'.toNat + 10)
  else if 'A' ≤ c ∧ c ≤ 'F' then some (c.toNat - 'A'.toNat + 10)
  else none

/-- What a one-letter escape stands for. -/
def escaped? : Char → Option Nat
  | '"' => some 0x22
  | '\\' => some 0x5c
  | '/' => some 0x2f
  | 'b' => some 0x08
  | 'f' => some 0x0c
  | 'n' => some 0x0a
  | 'r' => some 0x0d
  | 't' => some 0x09
  | _ => none

/-- The characters that some code units stand for: two surrogates make one
character, and one alone makes none. -/
def charsOfUnits : List Nat → Option (List Char)
  | [] => some []
  | u :: rest =>
    if 0xd800 ≤ u ∧ u < 0xdc00 then
      match rest with
      | v :: rest =>
        if 0xdc00 ≤ v ∧ v < 0xe000 then
          (charsOfUnits rest).map
            (Char.ofNat (0x10000 + (u - 0xd800) * 0x400 + (v - 0xdc00)) :: ·)
        else none
      | [] => none
    else if 0xdc00 ≤ u ∧ u < 0xe000 then none
    else (charsOfUnits rest).map (Char.ofNat u :: ·)

/-! ## Cutting a text into tokens -/

/-- The token that is being read; what it has so far is in reverse. -/
inductive Unfinished where
  | nothing
  | word (chars : List Char)
  | string (units : List Nat)
  /-- A string behind a backslash. -/
  | escape (units : List Nat)
  /-- A string in the middle of a code unit that still lacks some digits. -/
  | unicode (units : List Nat) (value missing : Nat)

/-- The tokens so far, in reverse, and the one being read. -/
structure Scanner where
  tokens : List Token := []
  unfinished : Unfinished := .nothing

namespace Scanner

def push (s : Scanner) (t : Token) : Scanner := ⟨t :: s.tokens, .nothing⟩

/-- Ends the word being read, if there is one. -/
def endWord (s : Scanner) : Option Scanner :=
  match s.unfinished with
  | .word chars => (Token.ofWord? chars.reverse).map s.push
  | _ => some s

def punctuation? : Char → Option Token
  | '[' => some .openArray
  | ']' => some .closeArray
  | '\x7b' => some .openObject
  | '\x7d' => some .closeObject
  | ',' => some .comma
  | ':' => some .colon
  | _ => none

/-- Whether a character only separates tokens. -/
def isBlank (c : Char) : Bool := c == ' ' || c == '\n' || c == '\t' || c == '\r'

/-- Reads a character outside of strings. -/
def stepOutside (s : Scanner) (c : Char) : Option Scanner :=
  if isBlank c then s.endWord
  else if c = '"' then do return { ← s.endWord with unfinished := .string [] }
  else
    match punctuation? c with
    | some t => do return (← s.endWord).push t
    | none =>
      match s.unfinished with
      | .word chars => some { s with unfinished := .word (c :: chars) }
      | _ => some { s with unfinished := .word [c] }

def step (s : Scanner) (c : Char) : Option Scanner :=
  match s.unfinished with
  | .string units =>
    if c = '"' then
      some (s.push (.string ((charsOfUnits units.reverse).map String.ofList)))
    else if c = '\\' then some { s with unfinished := .escape units }
    else if c < ' ' then none
    else some { s with unfinished := .string (c.toNat :: units) }
  | .escape units =>
    if c = 'u' then some { s with unfinished := .unicode units 0 4 }
    else (escaped? c).map fun u => { s with unfinished := .string (u :: units) }
  | .unicode units value missing => do
    let value := 16 * value + (← hexDigit? c)
    return { s with
      unfinished := if missing ≤ 1 then .string (value :: units)
        else .unicode units value (missing - 1) }
  | _ => s.stepOutside c

/-- The tokens, if the text may end here. -/
def finish (s : Scanner) : Option (List Token) :=
  match s.endWord with
  | some ⟨tokens, .nothing⟩ => some tokens.reverse
  | _ => none

end Scanner

def Token.scan (text : String) : Option (List Token) :=
  (text.toList.foldlM Scanner.step {}).bind Scanner.finish

end TypedCore.Json
