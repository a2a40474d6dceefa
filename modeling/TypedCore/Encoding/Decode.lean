import TypedCore.Encoding.Table

/-!
# Decoding

The instruction of a word and its extension: the length rule cuts the
extension to the bits that belong to the instruction, and the row of the
encoding table that the word belongs to reads it.
-/

namespace TypedCore

/-- An instruction together with its encoding. -/
structure Decoded where
  word : Half
  /-- The extension, cut to the length of the instruction. -/
  ext : Word
  /-- Length in bytes. -/
  len : Nat
  insn : Insn
  deriving DecidableEq, Repr

/-- Decodes with the rows of a given table. -/
def decodeWith (rows : List Template) (word : Half) (ext : Word) : Decoded :=
  let len := word.insnLength
  let ext := cutExtension len ext
  let insn :=
    match rows.find? (·.accepts word) with
    | some row => row.build word ext
    | none => .unknown
  ⟨word, ext, len, insn⟩

/-- The instruction of a word and its extension; bits of the extension beyond the
length of the instruction are ignored. -/
def decode (word : Half) (ext : Word) : Decoded := decodeWith Encoding.table word ext

/-- The patterns of the rows that a word belongs to. -/
def matchingPatterns (word : Half) : List String :=
  (Encoding.table.filter (·.accepts word)).map Template.pattern

end TypedCore
