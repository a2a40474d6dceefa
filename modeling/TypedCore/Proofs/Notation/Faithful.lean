import Mathlib.Algebra.Group.Nat.Defs
import TypedCore.Execute
import TypedCore.Proofs.Encoding.Agreement
import TypedCore.Proofs.Notation.Reader

/-!
# Assembly text determines the instruction

Encodings that are printed alike have the same length and behave alike
(`disassemble_determines`): their texts have the same tokens, the reader makes the
same instruction and the same length of both, and up to one nibble that is the
instruction that was decoded.

Two facts about decoded instructions are needed for it, and both are read off the
tables line by line: that what a text leaves out follows from the rest, and that
all encodings of an instruction have one length. The nibble is the highest one of
a bulk change of the types of `$r8` to `$r14`; no register takes it and no text
shows it, so instructions that differ in it are printed alike and do the same. An
encoding without a meaning is printed in hexadecimal, and its length is in the
number of digits.
-/

namespace TypedCore

open Notation

/-! ## Length -/

/-- The length of a load, a store or a jump through memory. -/
def MemRef.length (mem : MemRef) : Nat :=
  match mem.base, mem.offset with
  | none, _ => 6
  | some _, none => 2
  | some _, some _ => if mem.tiny then 2 else 4

/-- The length that all encodings of an instruction have. -/
def Insn.length : Insn → Nat
  | loadImm _ _ short | jumpImm _ _ short | binary _ _ (.imm _ short) _ => if short then 4 else 6
  | loadTypes .. | csrRead .. | csrWrite .. => 6
  | memory _ _ mem | jumpMem _ mem => mem.length
  | swizzle .. | branch .. | bitBranch .. | fullMul .. | laneCompare .. | interpolate .. => 4
  | _ => 2

namespace Listing

variable {x : Word} {interpolates : Nat → Prop} {c b a d len : Nat} {insn : Insn}

theorem Alu.readable (h : Alu x c b a d len insn) : insn.Readable ∧ insn.length = len := by
  cases h with
  | @interrupt d cause h =>
      have hall : ∀ p ∈ interrupts, (Insn.interrupt p.2).Readable := by
        simp [interrupts, Insn.Readable]
      exact ⟨hall _ h, rfl⟩
  | fence hd => exact ⟨hd.trans (by decide), rfl⟩
  | _ => exact ⟨trivial, rfl⟩

theorem Tiny.readable (h : Tiny c b a d len insn) : insn.Readable ∧ insn.length = len := by
  cases h <;> exact ⟨⟨by simp, by simp [MemRef.Readable, tinyRef]⟩, rfl⟩

theorem Memory.readable (h : Memory x c b a d len insn) : insn.Readable ∧ insn.length = len := by
  have hops : ∀ p ∈ memoryOps ++ atomicOps, p.2 ≠ .load .word true := by decide
  cases h with
  | short h => exact ⟨⟨hops _ h, nofun⟩, rfl⟩
  | long h | absolute h => exact ⟨⟨hops _ (List.mem_append_left _ h), nofun⟩, rfl⟩
  | _ => exact ⟨nofun, rfl⟩

theorem regConds_readable {code left right : Nat} {cond : Cond} {signed : Bool}
    (h : (code, cond, signed) ∈ regConds) :
    Comparison.Readable ⟨cond, signed, left, some right, right⟩ := by
  have hall : ∀ p ∈ regConds, p.2.1 = .eq ∨ p.2.1 = .ne → p.2.2 = false := by decide
  exact ⟨rfl, hall _ h⟩

theorem Branch.readable (h : Branch x c b a d len insn) : insn.Readable ∧ insn.length = len := by
  cases h with
  | reg h | regAll h => exact ⟨regConds_readable h, rfl⟩
  | zero | zeroAll => exact ⟨⟨rfl, rfl⟩, rfl⟩
  | bitSet | bitClear => exact ⟨trivial, rfl⟩

theorem Extended.readable (h : Extended x interpolates c b a d len insn) :
    insn.Readable ∧ insn.length = len := by
  cases h with
  | compare h => exact ⟨regConds_readable h, rfl⟩
  | compareZero => exact ⟨⟨rfl, rfl⟩, rfl⟩
  | _ => exact ⟨trivial, rfl⟩

theorem Line.readable (h : Line x interpolates c b a d len insn) :
    insn.Readable ∧ insn.length = len := by
  cases h with
  | alu h => exact h.readable
  | tiny h => exact h.readable
  | memory h => exact h.readable
  | branch h => exact h.readable
  | extended h => exact h.readable

end Listing

theorem decode_readable {w : Half} {x : Word} (h : (decode w x).insn ≠ .unknown) :
    (decode w x).insn.Readable ∧ (decode w x).insn.length = (decode w x).len := by
  obtain ⟨len, hlisted⟩ := (listed_of_decode w x).resolve_left h
  rw [(decode_of_listed hlisted).2]
  exact Listing.Line.readable hlisted

/-! ## Types in bulk -/

namespace Notation

/-- A word holds the types of eight registers. -/
theorem nibbleType_typesWord : ∀ (ts : List RegType) (i : Nat) (hi : i < ts.length), i < 8 →
    nibbleType (typesWord ts) i = ts[i]
  | t :: ts, 0, _, _ => by
    have h : ((typesWord ts <<< 4 ||| t.code.setWidth 32 : Word) >>> (4 * 0)).setWidth 4 =
        t.code := by
      ext j hj
      simp
    simp only [nibbleType, RegType.ofWord, typesWord, h]
    simp
  | t :: ts, i + 1, hi, hi8 => by
    have h : ((typesWord ts <<< 4 ||| t.code.setWidth 32 : Word) >>> (4 * (i + 1))).setWidth 4 =
        (typesWord ts >>> (4 * i)).setWidth 4 := by
      ext j hj
      have hge : t.code.getLsbD (4 * (i + 1) + j) = false := BitVec.getLsbD_of_ge _ _ (by omega)
      have hindex : 4 * (i + 1) + j - 4 = 4 * i + j := by omega
      simp only [BitVec.getElem_setWidth, BitVec.getLsbD_ushiftRight, BitVec.getLsbD_or,
        BitVec.getLsbD_shiftLeft, BitVec.getLsbD_setWidth, hge, hindex, Bool.and_false,
        Bool.or_false]
      simp [show 4 * (i + 1) + j < 32 by omega, show ¬ 4 * (i + 1) + j < 4 by omega]
    have ih := nibbleType_typesWord ts i (by simpa using hi) (by omega)
    simp only [nibbleType, RegType.ofWord, typesWord, h] at ih ⊢
    simpa using ih

end Notation

theorem loadTypes_asRead (regs : RegFile) (half : RegHalf) (types : Word) :
    loadTypes regs half (typesWord (half.types types)) = loadTypes regs half types := by
  have h : ∀ i ∈ List.range half.size,
      nibbleType (typesWord (half.types types)) i = nibbleType types i := by
    intro i hi
    have hlt := List.mem_range.mp hi
    rw [nibbleType_typesWord _ i (by simpa [RegHalf.types] using hlt)
      (by cases half <;> simp [RegHalf.size] at hlt <;> omega)]
    simp [RegHalf.types]
  unfold loadTypes
  congr 1
  exact List.map_congr_left fun i hi => by rw [h i hi]

theorem Insn.asRead_execute (insn : Insn) : insn.asRead.execute = insn.execute := by
  funext s p
  cases insn with
  | loadTypes half types => simp [asRead, execute, loadTypes_asRead]
  | _ => rfl

theorem Insn.asRead_length (insn : Insn) : insn.asRead.length = insn.length := by
  cases insn <;> rfl

/-! ## The text -/

namespace Notation

/-- The length of an encoding without a meaning, by the digits of its extension. The prefix of a
hexadecimal number counts. -/
def readUnknownLength : List Token → Nat
  | [.numeral _] => 2
  | [.numeral _, .numeral ext] => if ext.chars.length = 6 then 4 else 6
  | _ => 0

/-- The instruction and the length of its encoding. -/
def read : List Token → Option (Insn × Nat)
  | .key .unknown :: .key .instruction :: ts => some (.unknown, readUnknownLength ts)
  | ts => (readInsn ts).map fun insn => (insn, insn.length)

theorem hex_length {width n : Nat} (hwidth : 0 < width) (hn : n < 16 ^ width) :
    (Numeral.hex width n).chars.length = width + 2 := by
  have hdigits := (Nat.length_toDigits_le_iff (b := 16) (n := n) (by decide) hwidth).mpr hn
  simp [Numeral.hex, Numeral.hexPadded_toList]
  omega

theorem le_hex_length (width n : Nat) : width + 2 ≤ (Numeral.hex width n).chars.length := by
  simp [Numeral.hex, Numeral.hexPadded_toList]
  omega

theorem read_unknown {w : Half} {x : Word} (h : (decode w x).insn = .unknown) :
    read (dense (decode w x).tokens) = some (.unknown, (decode w x).len) := by
  have htokens : (decode w x).tokens = (decode w x).unknownTokens := by
    unfold Decoded.tokens
    rw [h]
  have hlen : (decode w x).len = w.insnLength := rfl
  have hext : (decode w x).ext = cutExtension w.insnLength x := rfl
  rw [htokens, Decoded.unknownTokens, hlen, hext]
  rcases w.insnLength_cases with hlen | hlen | hlen <;> rw [hlen]
  · simp [Token.isBlank, read, readUnknownLength]
  · have hshort : (cutExtension 4 x).toNat < 16 ^ 4 := by
      simp [cutExtension]
      omega
    simp [Token.isBlank, read, readUnknownLength, hex_length (by decide) hshort]
  · have := le_hex_length 8 (cutExtension 6 x).toNat
    simp [Token.isBlank, read, readUnknownLength]
    omega

theorem read_tokens (w : Half) (x : Word) :
    read (dense (decode w x).tokens) = some ((decode w x).insn.asRead, (decode w x).len) := by
  by_cases h : (decode w x).insn = .unknown
  · rw [read_unknown h, h]
    rfl
  · obtain ⟨hreadable, hlength⟩ := decode_readable h
    have hread := Insn.readInsn_tokens (decode_valid w x) hreadable h
    have htokens : (decode w x).tokens = (decode w x).insn.tokens := by
      unfold Decoded.tokens
      split
      · contradiction
      · rfl
    rw [htokens]
    unfold read
    split
    · rename_i heq
      rw [heq] at hread
      simp [readInsn, readInterrupt] at hread
    · simp [hread, Insn.asRead_length, hlength]

end Notation

/-- Two encodings that are printed alike have the same length and, whatever the state and the
memory, the same effects, the same fault and the same memory after them. -/
theorem disassemble_determines {w₁ w₂ : Half} {x₁ x₂ : Word}
    (h : disassemble w₁ x₁ = disassemble w₂ x₂) :
    (decode w₁ x₁).len = (decode w₂ x₂).len ∧
      ∀ s p, (decode w₁ x₁).insn.execute s p = (decode w₂ x₂).insn.execute s p := by
  obtain ⟨t₁, htext₁, hspell₁⟩ := Decoded.text_spell (decode_valid w₁ x₁)
  obtain ⟨t₂, htext₂, hspell₂⟩ := Decoded.text_spell (decode_valid w₂ x₂)
  unfold disassemble at h
  obtain rfl : t₁ = t₂ := by
    rw [htext₁, htext₂] at h
    exact Except.ok.inj h
  have htokens := spell_injective (decode w₁ x₁).tokens_spaced (decode w₂ x₂).tokens_spaced
    (hspell₁.symm.trans hspell₂)
  have hread := read_tokens w₁ x₁
  rw [htokens, read_tokens w₂ x₂] at hread
  simp only [Option.some.injEq, Prod.mk.injEq] at hread
  refine ⟨hread.2.symm, fun s p => ?_⟩
  rw [← Insn.asRead_execute, ← hread.1, Insn.asRead_execute]

/-- Two bulk loads of types that differ in the nibble that no register takes. -/
theorem disassemble_determines_spareNibble :
    disassemble 0xb0f0 0x01234567 = disassemble 0xb3f1 0xf1234567 ∧
      (decode 0xb0f0 0x01234567).insn ≠ (decode 0xb3f1 0xf1234567).insn ∧
      ∀ s p, (decode 0xb0f0 0x01234567).insn.execute s p =
        (decode 0xb3f1 0xf1234567).insn.execute s p :=
  have htext : disassemble 0xb0f0 0x01234567 = disassemble 0xb3f1 0xf1234567 := by decide +kernel
  ⟨htext, by decide +kernel, (disassemble_determines htext).2⟩

end TypedCore
