import Mathlib.Data.Nat.Bitwise
import TypedCore.Proofs.Lanes.Layout

/-!
# Lane arithmetic in fixed-width integers

The lanes of the model are numbers without a width. Hardware has no such
numbers: a lane is cut out of its word by shifts and masks, computed with in a
wider integer, clamped there, and put back by a shift and an OR. This module
carries that computation out with the width of every number in view. A sum or a
difference that does not fit its type, and a shift by the width of its type or
more, is an overflow and has no result; conversions drop the high bits.

How lanes are multiplied is a parameter, since there are two ways: `IntType.mul`
is checked like a sum, and `IntType.wrappingMul` drops the high bits. With the
second, which is what the arithmetic unit does, the result is that of the numbers
without a width: the steps are `FixedWidth.lane_eq`, `FixedWidth.laneValue_eq`,
`FixedWidth.narrow_eq` and `FixedWidth.zip_eq`, the operations
`FixedWidth.arithmetic_eq`, `FixedWidth.shift_eq` and `FixedWidth.fullMul_eq`.
With the first there is one overflow that can happen, of the product of two whole
words (`FixedWidth.binary_checked`).
-/

namespace TypedCore

/-! ## Integer types -/

/-- A type of integers of a fixed width. -/
structure IntType where
  bits : Nat
  signed : Bool

namespace IntType

def u32 : IntType := ⟨32, false⟩

def i32 : IntType := ⟨32, true⟩

def i64 : IntType := ⟨64, true⟩

def u128 : IntType := ⟨128, false⟩

def i128 : IntType := ⟨128, true⟩

variable (t : IntType)

def least : Int := if t.signed then -2 ^ (t.bits - 1) else 0

def greatest : Int := if t.signed then 2 ^ (t.bits - 1) - 1 else 2 ^ t.bits - 1

/-- A result of arithmetic, none if it overflows. -/
def fit (x : Int) : Option Int := if t.least ≤ x ∧ x ≤ t.greatest then some x else none

/-- The number of the type with the same low bits. -/
def wrap (x : Int) : Int := if t.signed then x.bmod (2 ^ t.bits) else x % 2 ^ t.bits

/-- A product, none if it overflows. -/
def mul (x y : Int) : Option Int := t.fit (x * y)

/-- A product of which the low bits are kept. -/
def wrappingMul (x y : Int) : Option Int := some (t.wrap (x * y))

/-- A shift to the left, which drops bits but is none by too large an amount. -/
def shl (x amount : Int) : Option Int :=
  if 0 ≤ amount ∧ amount < t.bits then some (t.wrap (x * 2 ^ amount.toNat)) else none

/-- A shift to the right, of a signed number with copies of its sign bit. -/
def shr (x amount : Int) : Option Int :=
  if 0 ≤ amount ∧ amount < t.bits then some (x / 2 ^ amount.toNat) else none

variable {t} {x k : Int}

theorem fit_of_mem (hlo : t.least ≤ x) (hhi : x ≤ t.greatest) : t.fit x = some x :=
  if_pos ⟨hlo, hhi⟩

theorem fit_of_lt (h : t.greatest < x) : t.fit x = none :=
  if_neg fun hx => Int.not_le.mpr h hx.2

/-- A number of the type is all there in its low bits. -/
theorem wrap_of_mem (hpos : 0 < t.bits) (hlo : t.least ≤ x) (hhi : x ≤ t.greatest) :
    t.wrap x = x := by
  obtain ⟨_ | n, signed⟩ := t
  · exact absurd hpos (Nat.lt_irrefl 0)
  cases signed with
  | true =>
      change -2 ^ n ≤ x at hlo
      change x ≤ 2 ^ n - 1 at hhi
      have hpow : (((2 : Nat) ^ (n + 1) : Nat) : Int) = 2 * 2 ^ n := by
        push_cast
        rw [pow_succ, mul_comm]
      generalize (2 : Int) ^ n = m at *
      exact Int.bmod_eq_of_le (by rw [hpow]; omega) (by rw [hpow]; omega)
  | false =>
      change x ≤ 2 ^ (n + 1) - 1 at hhi
      exact Int.emod_eq_of_lt hlo (Int.lt_of_le_sub_one hhi)

theorem shl_of_lt (h0 : 0 ≤ k) (h : k < t.bits) : t.shl x k = some (t.wrap (x * 2 ^ k.toNat)) :=
  if_pos ⟨h0, h⟩

theorem shr_of_lt (h0 : 0 ≤ k) (h : k < t.bits) : t.shr x k = some (x / 2 ^ k.toNat) :=
  if_pos ⟨h0, h⟩

end IntType

/-- The bits that two unsigned numbers share. -/
def landInt (x y : Int) : Int := (x.toNat &&& y.toNat : Nat)

/-- The bits of two unsigned numbers together. -/
def lorInt (x y : Int) : Int := (x.toNat ||| y.toNat : Nat)

/-! ## The computation -/

namespace FixedWidth

open IntType

variable (l : Layout)

/-- The bits of a lane, as a shift amount. -/
def bits : Int := l.bits

/-- A number with the bits of one lane set. -/
def mask : Option Int := do
  if l.width = .word then return u32.greatest
  u32.fit ((← u32.shl 1 (bits l)) - 1)

/-- Lane `i`, extended by zeros. -/
def lane (v : Int) (i : Nat) : Option Int := do
  let offset ← u32.fit (i * bits l)
  return landInt (← u32.shr v offset) (← mask l)

/-- Lane `i`, extended by its sign. -/
def laneSigned (v : Int) (i : Nat) : Option Int := do
  let amount ← u32.fit (32 - bits l)
  let top ← u32.shl (← lane l v i) amount
  i32.shr (i32.wrap top) amount

def laneValue (v : Int) (i : Nat) : Option Int :=
  match l.overflow with
  | .clampSigned => laneSigned l v i
  | .wrap | .clampUnsigned | .float => lane l v i

/-- The number of 64 bits that is nearest to a given one in the range of a lane. -/
def fitted (wide : Int) : Option Int :=
  match l.overflow with
  | .clampUnsigned => do
    return clamp 0 (← mask l) wide
  | .clampSigned => do
    let power ← i64.shl 1 (← u32.fit (bits l - 1))
    return clamp (← i64.fit (-power)) (← i64.fit (power - 1)) wide
  | .wrap | .float => some wide

/-- The lane that stands for a 64-bit result. -/
def narrow (wide : Int) : Option Int := do
  return landInt (u32.wrap (← fitted l wide)) (← mask l)

/-- A word with lane `i` put into it. -/
def put (f : Nat → Option Int) (word : Int) (i : Nat) : Option Int := do
  let x := landInt (← f i) (← mask l)
  return lorInt word (← u32.shl x (← u32.fit (i * bits l)))

/-- A word put together from lanes. -/
def zip (f : Nat → Option Int) : Option Int := (List.range l.count).foldlM (put l f) 0

/-- A result of 64 bits; a product is what `times` makes of it. -/
def wide (times : Int → Int → Option Int) (op : BinaryOp) (x y : Int) : Option Int :=
  match op with
  | .add => i64.fit (x + y)
  | .sub => i64.fit (x - y)
  | _ => times x y

def arithmetic (times : Int → Int → Option Int) (op : BinaryOp) (a b : Int) : Option Int :=
  zip l fun i => do
    narrow l (← wide times op (← laneValue l a i) (← laneValue l b i))

def shift (op : BinaryOp) (a b : Int) : Option Int :=
  zip l fun i => do
    let amount := landInt (← lane l b i) 31
    match op with
    | .shiftLeft => u32.shl (← lane l a i) amount
    | .shiftRight => u32.shr (← lane l a i) amount
    | _ => return u32.wrap (← i64.shr (← laneSigned l a i) amount)

/-- A binary operation on integer lanes. -/
def binary (times : Int → Int → Option Int) (op : BinaryOp) (a b : Int) : Option Int :=
  match op with
  | .xor => some (a.toNat ^^^ b.toNat : Nat)
  | .or => some (lorInt a b)
  | .and => some (landInt a b)
  | .add | .sub | .mul => arithmetic l times op a b
  | .shiftLeft | .shiftRight | .shiftRightSigned => shift l op a b

/-- A shifted product of 128 bits. -/
def product (signed : Bool) (a b : Int) (amount i : Nat) : Option Int := do
  if signed then
    i128.shr (← i128.fit ((← laneSigned l a i) * (← laneSigned l b i))) amount
  else
    return i128.wrap (← u128.shr (← u128.fit ((← lane l a i) * (← lane l b i))) amount)

def fullMul (a b : Int) (amount : Nat) (signed : Bool) : Option Int :=
  zip l fun i => do
    let x ← product l signed a b amount i
    match l.overflow with
    | .wrap => return u32.wrap x
    | .clampUnsigned | .clampSigned | .float => narrow l (clamp i64.least i64.greatest x)

/-! ## Lanes -/

theorem mask_eq : mask l = some ((l.range : Int) - 1) := by
  obtain ⟨w, o⟩ := l
  cases w with
  | byte | half | word => rfl

theorem landInt_mask {x : Int} (h : 0 ≤ x) : landInt x (l.range - 1) = x % l.range := by
  have hpos := l.range_pos
  have hmask : ((l.range : Int) - 1).toNat = 2 ^ l.bits - 1 := by
    rw [← Layout.range_eq]
    omega
  rw [landInt, hmask, Nat.and_two_pow_sub_one_eq_mod, Layout.range_eq]
  push_cast
  rw [Int.toNat_of_nonneg h]

variable {l} {i : Nat}

theorem offset_eq (h : i < l.count) : u32.fit (i * bits l) = some ((i * l.bits : Nat) : Int) := by
  have hfits := l.lane_fits h
  have hpos := l.bits_pos
  rw [bits, ← Int.natCast_mul]
  exact fit_of_mem (Int.natCast_nonneg _) (by show _ ≤ (2 ^ 32 - 1 : Int); omega)

theorem offset_lt (h : i < l.count) : ((i * l.bits : Nat) : Int) < u32.bits := by
  have hfits := l.lane_fits h
  have hpos := l.bits_pos
  show _ < (32 : Int)
  omega

theorem lane_eq (v : Word) (h : i < l.count) : lane l v.toNat i = some (l.lane v i : Int) := by
  rw [lane, offset_eq h, mask_eq]
  dsimp only [bind, Option.bind, pure]
  rw [shr_of_lt (Int.natCast_nonneg _) (offset_lt h)]
  dsimp only
  rw [landInt_mask l (Int.ediv_nonneg (Int.natCast_nonneg _) (Int.pow_nonneg (by decide))),
    Layout.lane_eq, Layout.range_eq, Int.toNat_natCast]
  push_cast
  rfl

/-- A word read as a signed number. -/
theorem i32_wrap_of_nonneg {x : Int} (h0 : 0 ≤ x) (h : x < 2 ^ 32) :
    i32.wrap x = if x < 2 ^ 31 then x else x - 2 ^ 32 := by
  show Int.bmod x (2 ^ 32) = _
  rw [Int.bmod_def]
  split <;> split <;> omega

/-- A lane that is shifted to the top of a word and back again takes its sign along. -/
theorem signExtend_eq {n : Nat} (hn : n ≤ 32) {x : Nat} (hx : x < 2 ^ n) :
    i32.wrap (u32.wrap (x * 2 ^ (32 - n))) / 2 ^ (32 - n) =
      if 2 * x < 2 ^ n then (x : Int) else x - 2 ^ n := by
  have hpow : (2 : Int) ^ n * 2 ^ (32 - n) = 2 ^ 32 := by
    rw [← Int.pow_add, Nat.add_sub_cancel' hn]
  have hm : (0 : Int) < 2 ^ (32 - n) := Int.pow_pos (by decide)
  have hx : (x : Int) < 2 ^ n := by exact_mod_cast hx
  have hcond : 2 * x < 2 ^ n ↔ (x : Int) * 2 ^ (32 - n) < 2 ^ 31 := by
    rw [← Int.ofNat_lt, ← Int.mul_lt_mul_right hm]
    push_cast
    rw [hpow, Int.mul_assoc]
    omega
  generalize (2 : Int) ^ (32 - n) = m at *
  have htop : (x : Int) * m < 2 ^ 32 := by rw [← hpow]; exact Int.mul_lt_mul_of_pos_right hx hm
  have hnonneg : 0 ≤ (x : Int) * m := Int.mul_nonneg (Int.natCast_nonneg x) (Int.le_of_lt hm)
  have hwrap : u32.wrap (x * m) = x * m := Int.emod_eq_of_lt hnonneg htop
  rw [hwrap, i32_wrap_of_nonneg hnonneg htop, if_congr hcond rfl rfl]
  split
  · exact Int.mul_ediv_cancel _ (Int.ne_of_gt hm)
  · rw [← hpow, ← Int.sub_mul]
    exact Int.mul_ediv_cancel _ (Int.ne_of_gt hm)

theorem laneSigned_eq (v : Word) (h : i < l.count) :
    laneSigned l v.toNat i = some (l.laneSigned v i) := by
  have hlt := l.lane_lt v i
  have hle := l.bits_le
  have hpos := l.bits_pos
  have hbits : 32 - bits l = (32 - l.bits : Nat) := by
    rw [bits]
    omega
  have hfit : u32.fit (32 - bits l) = some ((32 - l.bits : Nat) : Int) := by
    rw [hbits]
    exact fit_of_mem (Int.natCast_nonneg _) (by show _ ≤ (2 ^ 32 - 1 : Int); omega)
  have hamount : ((32 - l.bits : Nat) : Int) < 32 := by omega
  rw [Layout.range_eq] at hlt
  rw [laneSigned, hfit, lane_eq v h]
  dsimp only [bind, Option.bind]
  rw [shl_of_lt (Int.natCast_nonneg _) hamount]
  dsimp only
  rw [shr_of_lt (Int.natCast_nonneg _) hamount, Int.toNat_natCast, signExtend_eq hle hlt,
    Layout.laneSigned, Layout.range_eq]
  push_cast
  rfl

theorem laneValue_eq (v : Word) (h : i < l.count) :
    laneValue l v.toNat i = some (l.laneValue v i) := by
  unfold laneValue Layout.laneValue
  cases l.overflow with
  | clampSigned => exact laneSigned_eq v h
  | wrap | clampUnsigned | float => exact lane_eq v h

/-! ## Fitting and packing -/

theorem wrap_emod {t : IntType} (h : l.bits ≤ t.bits) (x : Int) :
    t.wrap x % l.range = x % l.range := by
  have hdvd : (l.range : Int) ∣ 2 ^ t.bits := l.natCast_range ▸ pow_dvd_pow 2 h
  unfold IntType.wrap
  split
  · rw [← Int.emod_emod_of_dvd _ hdvd, ← Int.emod_emod_of_dvd x hdvd]
    exact congrArg (· % (l.range : Int)) (Int.bmod_emod (m := 2 ^ t.bits))
  · exact Int.emod_emod_of_dvd x hdvd

theorem landInt_wrap (h : l.bits ≤ 32) (x : Int) :
    landInt (u32.wrap x) (l.range - 1) = x % l.range := by
  rw [landInt_mask l (show 0 ≤ u32.wrap x from Int.emod_nonneg x (by decide)), wrap_emod h]

/-- A number that is cut to 32 bits still has the low bits that a lane keeps. -/
theorem exists_wrap (l : Layout) (x : Int) :
    ∃ y : Nat, u32.wrap x = y ∧ ((y % l.range : Nat) : Int) = x % l.range := by
  have hnonneg : 0 ≤ u32.wrap x := Int.emod_nonneg x (by decide)
  refine ⟨(u32.wrap x).toNat, (Int.toNat_of_nonneg hnonneg).symm, ?_⟩
  rw [Int.natCast_emod, Int.toNat_of_nonneg hnonneg, wrap_emod l.bits_le]

theorem fitted_eq (l : Layout) (x : Int) : fitted l x = some (l.fitted x) := by
  unfold fitted Layout.fitted
  rw [mask_eq]
  cases l.overflow with
  | wrap | float => rfl
  | clampUnsigned => rfl
  | clampSigned =>
      have hpos := l.bits_pos
      have hle := l.bits_le
      have hbits : bits l - 1 = (l.bits - 1 : Nat) := by
        rw [bits]
        omega
      have hfit : u32.fit (bits l - 1) = some ((l.bits - 1 : Nat) : Int) := by
        rw [hbits]
        exact fit_of_mem (Int.natCast_nonneg _) (by show _ ≤ (2 ^ 32 - 1 : Int); omega)
      have hhalf := l.half_range_pos
      have htop := l.two_mul_half_range
      have hrange := l.range_le
      have hpower : (1 : Int) * 2 ^ (l.bits - 1) = (l.range / 2 : Nat) := by
        rw [Int.one_mul, Layout.natCast_half_range]
      generalize l.range / 2 = half at *
      have hlo : i64.least = -2 ^ 63 := rfl
      have hhi : i64.greatest = 2 ^ 63 - 1 := rfl
      rw [hfit]
      dsimp only [bind, Option.bind]
      rw [shl_of_lt (Int.natCast_nonneg _) (by show _ < (64 : Int); omega), Int.toNat_natCast,
        hpower, wrap_of_mem (by decide) (by omega) (by omega)]
      dsimp only
      rw [fit_of_mem (by omega) (by omega), fit_of_mem (by omega) (by omega)]
      rfl

theorem narrow_eq (l : Layout) (x : Int) : narrow l x = some (l.narrow x : Int) := by
  rw [Layout.narrow_eq, ← landInt_wrap l.bits_le, narrow, fitted_eq, mask_eq]
  rfl

/-- What a lane keeps of a product does not depend on the clamping to 64 bits that
comes first. -/
theorem narrow_clamp (hf : l.overflow ≠ .float) (hw : l.overflow ≠ .wrap) (x : Int) :
    l.narrow (clamp i64.least i64.greatest x) = l.narrow x := by
  have hrange := l.range_le
  have hpos := l.range_pos
  have hhalf := l.half_range_pos
  have htop := l.two_mul_half_range
  have hlo : i64.least = -2 ^ 63 := rfl
  have hhi : i64.greatest = 2 ^ 63 - 1 := rfl
  refine Int.ofNat_inj.mp ?_
  rw [Layout.narrow_eq, Layout.narrow_eq]
  cases ho : l.overflow with
  | wrap => exact absurd ho hw
  | float => exact absurd ho hf
  | clampUnsigned =>
      rw [Layout.fitted_clampUnsigned ho, Layout.fitted_clampUnsigned ho,
        clamp_clamp (by omega) (by omega) (by omega)]
  | clampSigned =>
      rw [Layout.fitted_clampSigned ho, Layout.fitted_clampSigned ho,
        clamp_clamp (by omega) (by omega) (by omega)]

/-- A lane is put on top of the lanes below it: an OR of bits apart is a sum. -/
theorem put_eq {f : Nat → Option Int} {word y : Nat} (h : i < l.count)
    (hword : word < 2 ^ (i * l.bits)) (hf : f i = some (y : Int)) :
    put l f word i = some ((word + 2 ^ (i * l.bits) * (y % 2 ^ l.bits) : Nat) : Int) := by
  have htop : y % 2 ^ l.bits * 2 ^ (i * l.bits) < 2 ^ 32 := by
    refine Nat.lt_of_lt_of_le (Nat.mul_lt_mul_of_pos_right (Nat.mod_lt y (Nat.two_pow_pos _))
      (Nat.two_pow_pos _)) ?_
    rw [← Nat.pow_add, Nat.add_comm]
    exact Nat.pow_le_pow_right (by decide) (l.lane_fits h)
  have hlane : landInt y (l.range - 1) = (y % 2 ^ l.bits : Nat) := by
    rw [landInt_mask l (Int.natCast_nonneg y), Layout.range_eq]
    push_cast
    rfl
  have hshift : u32.wrap ((y % 2 ^ l.bits : Nat) * 2 ^ (i * l.bits)) =
      (y % 2 ^ l.bits * 2 ^ (i * l.bits) : Nat) := by
    rw [Int.natCast_mul, Int.natCast_pow]
    exact Int.emod_eq_of_lt (by exact_mod_cast Nat.zero_le _) (by exact_mod_cast htop)
  rw [put, hf, mask_eq, offset_eq h]
  dsimp only [bind, Option.bind, pure]
  rw [shl_of_lt (Int.natCast_nonneg _) (offset_lt h), hlane, Int.toNat_natCast, hshift]
  dsimp only
  rw [lorInt, Int.toNat_natCast, Int.toNat_natCast, Nat.lor_comm, Nat.mul_comm,
    ← Nat.two_pow_add_eq_or_of_lt hword, Nat.add_comm]

/-- A word that is put together from the lanes of `g` is the one that is built from them. -/
theorem zip_eq {f : Nat → Option Int} {g : Nat → Nat}
    (h : ∀ i, i < l.count → ∃ y : Nat, f i = some (y : Int) ∧ y % l.range = g i % l.range) :
    zip l f = some ((l.build g).toNat : Int) := by
  rw [Layout.toNat_build]
  -- the lanes so far, of a loop that has come to lane `n`
  suffices hloop : ∀ n, n ≤ l.count → (List.range n).foldlM (put l f) 0 =
      some ((packLanes l.bits ((List.range n).map g) : Nat) : Int) from
    hloop l.count (Nat.le_refl _)
  intro n
  induction n with
  | zero => intro _; rfl
  | succ n ih =>
      intro hn
      obtain ⟨y, hy, hlane⟩ := h n hn
      have hlt := packLanes_lt l.bits ((List.range n).map g)
      rw [List.length_map, List.length_range] at hlt
      rw [Layout.range_eq] at hlane
      rw [List.range_succ, List.foldlM_append, ih (Nat.le_of_succ_le hn), List.map_append,
        List.map_singleton, packLanes_append, List.length_map, List.length_range, ← hlane]
      dsimp only [bind, Option.bind]
      rw [List.foldlM_cons, put_eq hn hlt hy]
      rfl

/-! ## Operations -/

theorem wrap_of_narrow (h : l.overflow = .wrap) {t : IntType} (ht : l.bits ≤ t.bits) (x : Int) :
    l.narrow (t.wrap x) = l.narrow x := by
  refine Int.ofNat_inj.mp ?_
  rw [Layout.narrow_eq, Layout.narrow_eq, Layout.fitted_wrap h, Layout.fitted_wrap h, wrap_emod ht]

/-- Only whole words and floating-point numbers have lanes of 32 bits: lanes that are
clamped are shorter. -/
theorem range_le_of_clamped {type : RegType} (h : type.layout? = some l)
    (hf : l.overflow ≠ .float) : l.overflow = .wrap ∨ l.range ≤ 2 ^ 16 := by
  cases type with
  | int32 | int16x2 | int8x4 =>
      cases h
      exact .inl rfl
  | uint16x2s | sint16x2s | uint8x4s | sint8x4s =>
      cases h
      exact .inr (by decide)
  | fp32 | fp16x2 =>
      cases h
      exact absurd rfl hf
  | reserved _ | mask => cases h

theorem range_le_of_width (h : l.width ≠ .word) : l.range ≤ 2 ^ 16 := by
  rw [Layout.range_eq, Layout.bits]
  cases hw : l.width with
  | word => exact absurd hw h
  | byte | half => decide

/-- A whole word is its one lane. -/
theorem count_of_width (h : l.width = .word) : l.count = 1 := by
  rw [Layout.count, h]
  rfl

theorem natAbs_mul_le {x y : Int} {n : Nat} (hx : x.natAbs ≤ n) (hy : y.natAbs ≤ n) :
    (x * y).natAbs ≤ n * n :=
  Int.natAbs_mul x y ▸ Nat.mul_le_mul hx hy

section Wide

variable {times : Int → Int → Option Int} {x y : Int}
  (hx : -(l.range / 2 : Nat) ≤ x ∧ x < l.range) (hy : -(l.range / 2 : Nat) ≤ y ∧ y < l.range)

include hx hy

theorem wide_add : wide times .add x y = some (x + y) := by
  have hrange := l.range_le
  have hhalf := l.two_mul_half_range
  exact fit_of_mem (by show (-2 ^ 63 : Int) ≤ _; omega) (by show _ ≤ (2 ^ 63 - 1 : Int); omega)

theorem wide_sub : wide times .sub x y = some (x - y) := by
  have hrange := l.range_le
  have hhalf := l.two_mul_half_range
  exact fit_of_mem (by show (-2 ^ 63 : Int) ≤ _; omega) (by show _ ≤ (2 ^ 63 - 1 : Int); omega)

theorem product_mem (h : l.range ≤ 2 ^ 16) : i64.least ≤ x * y ∧ x * y ≤ i64.greatest := by
  have hhalf := l.two_mul_half_range
  have hprod := natAbs_mul_le (x := x) (y := y) (n := 2 ^ 16) (by omega) (by omega)
  have hlo : i64.least = -2 ^ 63 := rfl
  have hhi : i64.greatest = 2 ^ 63 - 1 := rfl
  omega

/-- The products of lanes that are clamped fit 64 bits; of the others only low bits are kept. -/
theorem narrow_product (h : l.overflow = .wrap ∨ l.range ≤ 2 ^ 16) :
    l.narrow (i64.wrap (x * y)) = l.narrow (x * y) := by
  obtain h | h := h
  · exact wrap_of_narrow h (Nat.le_trans l.bits_le (by decide)) _
  · obtain ⟨hlo, hhi⟩ := product_mem hx hy h
    rw [wrap_of_mem (by decide) hlo hhi]

/-- A sum and a difference are exact however lanes are multiplied. -/
theorem narrow_wide (op : BinaryOp) (h : op = .add ∨ op = .sub ∨
      (times x y >>= narrow l) = some (l.narrow (x * y) : Int)) :
    (wide times op x y >>= narrow l) = some (l.narrow (Lane.exact op x y) : Int) := by
  cases op with
  | add =>
      rw [wide_add hx hy]
      exact narrow_eq l (x + y)
  | sub =>
      rw [wide_sub hx hy]
      exact narrow_eq l (x - y)
  | mul | shiftLeft | shiftRight | shiftRightSigned | xor | or | and =>
      rcases h with h | h | h
      · cases h
      · cases h
      · exact h

end Wide

/-- Whether a multiplication gives each lane of two words the product that the lane keeps. -/
def Multiplies (l : Layout) (times : Int → Int → Option Int) (a b : Word) : Prop :=
  ∀ i, i < l.count → (times (l.laneValue a i) (l.laneValue b i) >>= narrow l) =
    some (l.narrow (l.laneValue a i * l.laneValue b i) : Int)

section Products

variable {times : Int → Int → Option Int} {a b : Word}

theorem multiplies_wrapping (h : l.overflow = .wrap ∨ l.range ≤ 2 ^ 16) :
    Multiplies l i64.wrappingMul a b := by
  intro i _
  refine (narrow_eq l _).trans ?_
  rw [narrow_product (l.laneValue_bounds a i) (l.laneValue_bounds b i) h]

theorem multiplies_checked (h : ∀ i, i < l.count →
      i64.least ≤ l.laneValue a i * l.laneValue b i ∧
        l.laneValue a i * l.laneValue b i ≤ i64.greatest) : Multiplies l i64.mul a b := by
  intro i hi
  rw [IntType.mul, fit_of_mem (h i hi).1 (h i hi).2]
  exact narrow_eq l _

theorem arithmetic_eq (op : BinaryOp) (h : op = .add ∨ op = .sub ∨ Multiplies l times a b) :
    arithmetic l times op a.toNat b.toNat =
      some ((l.build fun i => l.narrow
        (Lane.exact op (l.laneValue a i) (l.laneValue b i))).toNat : Int) := by
  refine zip_eq fun i hi => ⟨_, ?_, rfl⟩
  rw [laneValue_eq a hi, laneValue_eq b hi]
  exact narrow_wide (l.laneValue_bounds a i) (l.laneValue_bounds b i) op
    (h.imp_right (·.imp_right fun h => h i hi))

/-- The one product of whole words, if it is checked and does not fit. -/
theorem arithmetic_overflow (hw : l.width = .word)
    (h : i64.greatest < l.laneValue a 0 * l.laneValue b 0) :
    arithmetic l i64.mul .mul a.toNat b.toNat = none := by
  have hcount := count_of_width hw
  have hpos : 0 < l.count := by omega
  unfold arithmetic zip
  rw [hcount, List.range_one, List.foldlM_cons, put, laneValue_eq a hpos, laneValue_eq b hpos]
  dsimp only [bind, Option.bind, wide, IntType.mul]
  rw [fit_of_lt h]

end Products

theorem amount_eq (x : Nat) : landInt x 31 = (x % 32 : Nat) := by
  rw [landInt, Int.toNat_natCast]
  exact congrArg _ (Nat.and_two_pow_sub_one_eq_mod x 5)

theorem shift_eq (l : Layout) (op : BinaryOp) (a b : Word) :
    shift l op a.toNat b.toNat =
      some ((l.build fun i => Lane.shiftLane op l a (l.lane b i) i).toNat : Int) := by
  refine zip_eq fun i hi => ?_
  have hnonneg : 0 ≤ ((l.lane b i % 32 : Nat) : Int) := Int.natCast_nonneg _
  have hamount : ((l.lane b i % 32 : Nat) : Int) < 32 := by omega
  rw [lane_eq b hi]
  dsimp only [bind, Option.bind]
  rw [amount_eq, lane_eq a hi, laneSigned_eq a hi]
  generalize l.lane b i = k at *
  cases op with
  | shiftLeft =>
      obtain ⟨y, hy, hmod⟩ := exists_wrap l (l.lane a i * 2 ^ (k % 32))
      refine ⟨y, (shl_of_lt hnonneg hamount).trans (congrArg some hy), Int.ofNat_inj.mp ?_⟩
      rw [hmod, Lane.shiftLane, Nat.shiftLeft_eq]
      push_cast
      rfl
  | shiftRight =>
      refine ⟨_, (shr_of_lt hnonneg hamount).trans ?_, rfl⟩
      rw [Lane.shiftLane, Nat.shiftRight_eq_div_pow, Int.toNat_natCast]
      push_cast
      rfl
  | shiftRightSigned | add | sub | mul | xor | or | and =>
      obtain ⟨y, hy, hmod⟩ := exists_wrap l (l.laneSigned a i / 2 ^ (k % 32))
      refine ⟨y, ?_, Int.ofNat_inj.mp ?_⟩
      · dsimp only
        rw [shr_of_lt hnonneg (Int.lt_trans hamount (by decide))]
        exact congrArg some hy
      · exact hmod.trans (Lane.shiftRightSigned_emod l a k i).symm

/-- The value of a binary operation, as the fixed-width computation gives it. -/
theorem binary_eq {times : Int → Int → Option Int} {op : BinaryOp} {a b r : TypedWord}
    (hl : a.type.layout? = some l) (hf : l.overflow ≠ .float) (h : Alu.binary op a b = .ok r)
    (htimes : op = .mul → Multiplies l times a.value b.value) :
    binary l times op a.value.toNat b.value.toNat = some (r.value.toNat : Int) := by
  have hshift := shift_eq l op a.value b.value
  cases op with
  | xor | or | and =>
      cases h
      simp [binary, Alu.logic, lorInt, landInt]
  | add =>
      cases (Lane.arithmetic_ok hl hf _ b).symm.trans h
      exact arithmetic_eq .add (.inl rfl)
  | sub =>
      cases (Lane.arithmetic_ok hl hf _ b).symm.trans h
      exact arithmetic_eq .sub (.inr (.inl rfl))
  | mul =>
      cases (Lane.arithmetic_ok hl hf _ b).symm.trans h
      exact arithmetic_eq .mul (.inr (.inr (htimes rfl)))
  | shiftLeft | shiftRight | shiftRightSigned =>
      cases (Lane.shift_ok hl _ b).symm.trans h
      exact hshift

/-- Whole words are multiplied without signs. -/
theorem laneValue_of_wrap (h : l.overflow = .wrap) (v : Word) (i : Nat) :
    l.laneValue v i = l.lane v i := by
  rw [Layout.laneValue, if_neg (by rw [h]; decide)]

/-- With a checked multiplication, the computation ends without a result exactly if the product
of two whole words is greater than all numbers of 64 bits, and else in the same one. -/
theorem binary_checked {op : BinaryOp} {a b r : TypedWord} (hl : a.type.layout? = some l)
    (hf : l.overflow ≠ .float) (h : Alu.binary op a b = .ok r) :
    binary l i64.mul op a.value.toNat b.value.toNat =
      if op = .mul ∧ l.width = .word ∧ i64.greatest < (l.lane a.value 0 * l.lane b.value 0 : Nat)
      then none else some (r.value.toNat : Int) := by
  by_cases hw : l.width = .word
  · have hwrap : l.overflow = .wrap := by
      refine (range_le_of_clamped hl hf).resolve_right ?_
      rw [Layout.range_eq, Layout.bits, hw]
      decide
    have hcount := count_of_width hw
    have hlane : l.laneValue a.value 0 * l.laneValue b.value 0 =
        (l.lane a.value 0 * l.lane b.value 0 : Nat) := by
      rw [laneValue_of_wrap hwrap, laneValue_of_wrap hwrap, Int.natCast_mul]
    split
    · rename_i hover
      obtain ⟨rfl, -, hover⟩ := hover
      exact arithmetic_overflow hw (hlane ▸ hover)
    · rename_i hfits
      refine binary_eq hl hf h fun hop => multiplies_checked fun i hi => ?_
      obtain rfl : i = 0 := by omega
      rw [hlane]
      refine ⟨Int.le_trans (by decide) (Int.natCast_nonneg _), Int.not_lt.mp fun hover => ?_⟩
      exact hfits ⟨hop, hw, hover⟩
  · rw [if_neg fun hover => hw hover.2.1]
    exact binary_eq hl hf h fun _ => multiplies_checked fun i _ =>
      product_mem (l.laneValue_bounds a.value i) (l.laneValue_bounds b.value i)
        (range_le_of_width hw)

/-- A shifted product has room in 128 bits, with a sign and without. -/
theorem product_eq {amount : Nat} (h : amount < 32) (signed : Bool) (a b : Word)
    (hi : i < l.count) :
    product l signed a.toNat b.toNat amount i =
      some (Lane.factor l signed a i * Lane.factor l signed b i / 2 ^ amount) := by
  have hrange := l.range_le
  have hhalf := l.two_mul_half_range
  have hnonneg : 0 ≤ (amount : Int) := Int.natCast_nonneg amount
  have hamount : (amount : Int) < 128 := by omega
  have hlo : i128.least = -2 ^ 127 := rfl
  have hhi : i128.greatest = 2 ^ 127 - 1 := rfl
  unfold product
  cases signed with
  | true =>
      have ha := l.laneSigned_bounds a i
      have hb := l.laneSigned_bounds b i
      have hprod := natAbs_mul_le (x := l.laneSigned a i) (y := l.laneSigned b i)
        (n := 2 ^ 32) (by omega) (by omega)
      rw [laneSigned_eq a hi, laneSigned_eq b hi]
      dsimp only [bind, Option.bind]
      rw [if_pos rfl, fit_of_mem (by omega) (by omega)]
      exact shr_of_lt hnonneg hamount
  | false =>
      have ha := l.lane_lt a i
      have hb := l.lane_lt b i
      have hprod := natAbs_mul_le (x := l.lane a i) (y := l.lane b i)
        (n := 2 ^ 32) (by omega) (by omega)
      have hlo' : u128.least = 0 := rfl
      have hhi' : u128.greatest = 2 ^ 128 - 1 := rfl
      have hmul : 0 ≤ (l.lane a i : Int) * l.lane b i :=
        Int.mul_nonneg (Int.natCast_nonneg _) (Int.natCast_nonneg _)
      have hpow : (0 : Int) < 2 ^ amount := Int.pow_pos (by decide)
      have hquot := Int.ediv_nonneg hmul (Int.le_of_lt hpow)
      have hle := Int.ediv_le_self (2 ^ amount) hmul
      have hwrap : i128.wrap ((l.lane a i : Int) * l.lane b i / 2 ^ amount) =
          l.lane a i * l.lane b i / 2 ^ amount :=
        wrap_of_mem (by decide) (by omega) (by omega)
      rw [lane_eq a hi, lane_eq b hi, if_neg Bool.false_ne_true]
      dsimp only [bind, Option.bind]
      rw [fit_of_mem (by omega) (by omega)]
      dsimp only
      rw [shr_of_lt (t := u128) hnonneg hamount, Int.toNat_natCast]
      exact congrArg some hwrap

/-- The value of a full multiplication, as the fixed-width computation gives it. -/
theorem fullMul_eq {a b r : TypedWord} {amount : Nat} {signed : Bool}
    (hl : a.type.layout? = some l) (hf : l.overflow ≠ .float) (h : amount < 32)
    (hr : Lane.fullMul a b amount signed = .ok r) :
    fullMul l a.value.toNat b.value.toNat amount signed = some (r.value.toNat : Int) := by
  cases (Lane.fullMul_ok hl hf b h signed).symm.trans hr
  refine zip_eq fun i hi => ?_
  rw [product_eq h signed a.value b.value hi]
  dsimp only [bind, Option.bind]
  generalize Lane.factor l signed a.value i * Lane.factor l signed b.value i / 2 ^ amount = x
  cases ho : l.overflow with
  | wrap =>
      obtain ⟨y, hy, hmod⟩ := exists_wrap l x
      refine ⟨y, congrArg some hy, Int.ofNat_inj.mp ?_⟩
      rw [hmod, Nat.mod_eq_of_lt (l.narrow_lt x), Layout.narrow_eq, Layout.fitted_wrap ho]
  | clampUnsigned | clampSigned =>
      refine ⟨_, narrow_eq l _, ?_⟩
      rw [narrow_clamp hf (by rw [ho]; decide)]
  | float => exact absurd ho hf

end FixedWidth

end TypedCore
