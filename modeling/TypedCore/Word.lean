/-!
# Words, halfwords and bytes

The machine moves 32-bit words, fetches 16-bit halfwords and stores 8-bit
bytes. This module names the three widths and gives the conversions that
the encoding and the memory path need: little-endian byte lists, the
nibbles of an instruction word, the two signed readings of an immediate
field (ones' complement and folded displacement) and the even part of an
address.

Everything is phrased on `Nat` and `Int` values of the bit vectors, so a
fact about a field is a fact of arithmetic.
-/

namespace TypedCore

/-- Eight bits. -/
abbrev Byte := BitVec 8

/-- Sixteen bits, the unit of instruction fetch. -/
abbrev Half := BitVec 16

/-- Thirty-two bits, the size of a register and of an address. -/
abbrev Word := BitVec 32

/-! ## Byte order -/

/-- The `n` low bytes of a number, least significant first. -/
def bytesOfNat : Nat → Nat → List Byte
  | 0, _ => []
  | n + 1, v => BitVec.ofNat 8 v :: bytesOfNat n (v / 256)

/-- The number a little-endian byte list spells. -/
def natOfBytes : List Byte → Nat
  | [] => 0
  | b :: bs => b.toNat + 256 * natOfBytes bs

@[simp] theorem length_bytesOfNat (n v : Nat) : (bytesOfNat n v).length = n := by
  induction n generalizing v with
  | zero => rfl
  | succ n ih => simp [bytesOfNat, ih]

/-- Writing `n` bytes keeps the value modulo `2 ^ (8 * n)`. -/
theorem natOfBytes_bytesOfNat (n v : Nat) :
    natOfBytes (bytesOfNat n v) = v % (1 <<< (8 * n)) := by
  induction n generalizing v with
  | zero => simp [bytesOfNat, natOfBytes, Nat.mod_one]
  | succ n ih =>
    simp only [bytesOfNat, natOfBytes, ih, BitVec.toNat_ofNat, Nat.shiftLeft_eq, Nat.one_mul]
    rw [Nat.mul_add, Nat.pow_add, Nat.mul_comm (2 ^ (8 * n)), Nat.mod_mul]

namespace Word

/-- The four bytes of a word, least significant first. -/
def toBytes (w : Word) : List Byte := bytesOfNat 4 w.toNat

/-- The word a little-endian byte list spells, modulo `2 ^ 32`. -/
def ofBytes (bs : List Byte) : Word := BitVec.ofNat 32 (natOfBytes bs)

/-- The address with bit 0 cleared: where an instruction really starts. -/
def even (a : Word) : Word := BitVec.ofNat 32 (a.toNat / 2 * 2)

/-- Displaces an address by a signed byte count, around the end of memory if need be. -/
def displace (a : Word) (d : Int) : Word := a + BitVec.ofInt 32 d

/-- The low halfword, sign-extended: how a 16-bit immediate reads as a word. -/
def signedHalf (w : Word) : Word := (w.setWidth 16).signExtend 32

def signedByte (w : Word) : Word := (w.setWidth 8).signExtend 32

theorem toNat_even (a : Word) : (even a).toNat = a.toNat / 2 * 2 := by
  rw [even, BitVec.toNat_ofNat]
  exact Nat.mod_eq_of_lt (by have := a.isLt; omega)

@[simp] theorem even_even (a : Word) : even (even a) = even a := by
  apply BitVec.eq_of_toNat_eq
  simp only [toNat_even]
  omega

end Word

namespace Half

/-- Bits 0 to 3 of an instruction word. -/
def fieldD (w : Half) : Nat := w.toNat % 16

/-- Bits 4 to 7 of an instruction word. -/
def fieldA (w : Half) : Nat := w.toNat / 16 % 16

/-- Bits 8 to 11 of an instruction word. -/
def fieldB (w : Half) : Nat := w.toNat / 256 % 16

/-- Bits 12 to 15 of an instruction word. -/
def fieldC (w : Half) : Nat := w.toNat / 4096

theorem fieldD_lt (w : Half) : w.fieldD < 16 := by unfold fieldD; omega

theorem fieldA_lt (w : Half) : w.fieldA < 16 := by unfold fieldA; omega

theorem fieldB_lt (w : Half) : w.fieldB < 16 := by unfold fieldB; omega

theorem fieldC_lt (w : Half) : w.fieldC < 16 := by
  unfold fieldC
  have := w.isLt
  omega

/-- The four fields determine the word. -/
theorem toNat_eq_fields (w : Half) :
    w.toNat = w.fieldC * 4096 + w.fieldB * 256 + w.fieldA * 16 + w.fieldD := by
  unfold fieldA fieldB fieldC fieldD
  omega

/-- The byte displacement a branch field stands for: the field is stored halved. -/
def displacement (f : Half) : Int := 2 * f.toInt

/-- The branch field of a byte displacement; an odd one is rounded down. -/
def ofDisplacement (d : Int) : Half := BitVec.ofInt 16 (d / 2)

end Half

/-- Reads the low `bits` of `data` in ones' complement: a field with its top
bit set stands for minus its complement, so all ones is a second zero. -/
def onesComplement (bits data : Nat) : Int :=
  let field := data % (1 <<< bits)
  if field < 1 <<< (bits - 1) then field else -(((1 <<< bits) - 1 - field : Nat) : Int)

/-! ## Access widths -/

/-- The size of a memory access, and of a lane of a vector register. -/
inductive Width where
  | byte
  | half
  | word
  deriving DecidableEq, Repr

namespace Width

def bytes : Width → Nat
  | byte => 1
  | half => 2
  | word => 4

def bits (w : Width) : Nat := 8 * w.bytes

/-- An address is aligned if the size divides it. -/
def isAligned (w : Width) (addr : Word) : Bool := addr.toNat % w.bytes == 0

theorem bytes_pos (w : Width) : 0 < w.bytes := by cases w <;> decide

end Width

end TypedCore
