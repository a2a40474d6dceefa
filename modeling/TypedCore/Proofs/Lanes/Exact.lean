import TypedCore.Proofs.Lanes.FixedWidth

/-!
# Exact lanes

What the lanes of a result are, in terms of the numbers in the same lanes of
the operands (`Lane.IsResult`): sums, differences and products are exact and
then fitted to the lane (`Layout.Fits`), shifts multiply and divide by a power
of two, and the bitwise operations work bit by bit.

On the way to them one thing can overflow (`Lane.binary_exact`): the product of
two whole words, of which the multiplication drops the high bits. They are none
that the lane keeps, so the fixed-width computation has the same value. A checked
multiplication has none there (`Lane.wordProduct_overflows`).

The full multiplication keeps the double-width product until it is shifted,
and without a shift it is the plain one (`Lane.fullMul_exact`).
-/

namespace TypedCore

namespace Layout

variable (l : Layout)

/-- Lane `i` of a result is a number, reduced to the width of the lane or clamped to
its unsigned or its signed range. -/
def Fits (r : Word) (i : Nat) (x : Int) : Prop :=
  match l.overflow with
  | .wrap | .float => (l.lane r i : Int) = x % 2 ^ l.bits
  | .clampUnsigned => (l.lane r i : Int) = clamp 0 (2 ^ l.bits - 1) x
  | .clampSigned => l.laneSigned r i = clamp (-2 ^ (l.bits - 1)) (2 ^ (l.bits - 1) - 1) x

theorem fits_build (f : Nat → Int) {i : Nat} (h : i < l.count) :
    l.Fits (l.build fun i => l.narrow (f i)) i (f i) := by
  have hpos := l.range_pos
  have hhalf := l.half_range_pos
  have htop := l.two_mul_half_range
  have hlane : (l.lane (l.build fun i => l.narrow (f i)) i : Int) = l.fitted (f i) % l.range := by
    rw [l.lane_build_narrow f h, narrow_eq]
  unfold Fits
  rw [← natCast_range, ← natCast_half_range]
  cases ho : l.overflow with
  | wrap => exact hlane.trans (by rw [fitted_wrap ho])
  | float => exact hlane.trans (by rw [fitted, ho])
  | clampUnsigned =>
      have hbounds := clamp_bounds (by omega : (0 : Int) ≤ l.range - 1) (f i)
      rw [fitted_clampUnsigned ho, Int.emod_eq_of_lt hbounds.1 (by omega)] at hlane
      exact hlane
  | clampSigned =>
      have hbounds := clamp_bounds
        (by omega : -((l.range / 2 : Nat) : Int) ≤ (l.range / 2 : Nat) - 1) (f i)
      rw [fitted_clampSigned ho] at hlane
      exact l.laneSigned_of_emod hbounds.1 (by omega) hlane

end Layout

namespace Lane

/-! ## Binary operations -/

/-- What a binary operation makes of lane `i` of its operands. Lanes of a layout that
clamps to the signed range are added, subtracted and multiplied with their signs;
the amount of a shift counts modulo 32. -/
def IsResult (l : Layout) (op : BinaryOp) (a b r : Word) (i : Nat) : Prop :=
  match op with
  | .add => l.Fits r i (l.laneValue a i + l.laneValue b i)
  | .sub => l.Fits r i (l.laneValue a i - l.laneValue b i)
  | .mul => l.Fits r i (l.laneValue a i * l.laneValue b i)
  | .shiftLeft => l.lane r i = l.lane a i * 2 ^ (l.lane b i % 32) % 2 ^ l.bits
  | .shiftRight => l.lane r i = l.lane a i / 2 ^ (l.lane b i % 32)
  | .shiftRightSigned => l.laneSigned r i = l.laneSigned a i / 2 ^ (l.lane b i % 32)
  | .xor => l.lane r i = l.lane a i ^^^ l.lane b i
  | .or => l.lane r i = l.lane a i ||| l.lane b i
  | .and => l.lane r i = l.lane a i &&& l.lane b i

/-- A quotient is no further from zero than what is divided. -/
theorem ediv_bounds {x m bound : Int} (hm : 1 ≤ m) (hlo : -bound ≤ x) (hhi : x < bound) :
    -bound ≤ x / m ∧ x / m < bound := by
  have hmul : bound * 1 ≤ bound * m := Int.mul_le_mul_of_nonneg_left hm (by omega)
  constructor
  · refine Int.le_ediv_of_mul_le (by omega) ?_
    rw [Int.neg_mul]
    omega
  · exact Int.ediv_lt_of_lt_mul (by omega) (by omega)

section Shifts

variable (l : Layout) (a b : Word) {i : Nat}

theorem shiftLeft_lane (h : i < l.count) :
    IsResult l .shiftLeft a b (l.build fun i => shiftLane .shiftLeft l a (l.lane b i) i) i := by
  rw [IsResult, l.lane_build _ h, shiftLane, Nat.shiftLeft_eq, Layout.range_eq]

theorem shiftRight_lane (h : i < l.count) :
    IsResult l .shiftRight a b (l.build fun i => shiftLane .shiftRight l a (l.lane b i) i) i := by
  rw [IsResult, l.lane_build _ h, shiftLane, Nat.shiftRight_eq_div_pow]
  exact Nat.mod_eq_of_lt (Nat.lt_of_le_of_lt (Nat.div_le_self _ _) (l.lane_lt a i))

theorem shiftRightSigned_lane (h : i < l.count) :
    IsResult l .shiftRightSigned a b
      (l.build fun i => shiftLane .shiftRightSigned l a (l.lane b i) i) i := by
  have hbounds := l.laneSigned_bounds a i
  have hone : (1 : Int) ≤ 2 ^ (l.lane b i % 32) := Int.pow_pos (by decide)
  have hquot := ediv_bounds hone hbounds.1 hbounds.2
  refine l.laneSigned_of_emod hquot.1 hquot.2 ?_
  rw [l.lane_build _ h]
  exact shiftRightSigned_emod l a (l.lane b i) i

end Shifts

/-- A binary operation on integer lanes, with any second operand of a kind that goes
with the first, has a result of the type of the first operand, whose lanes are the
exact ones. The fixed-width computation of them has the same value: no sum, no
difference and no shift overflows, and the multiplication drops no bit that a lane
keeps. Were products checked as well, the computation would end without a result
exactly where two whole words have a product greater than all numbers of 64 bits. -/
theorem binary_exact (op : BinaryOp) (a b : TypedWord) (l : Layout)
    (hl : a.type.layout? = some l) (hf : l.overflow ≠ .float)
    (hkinds : (OperandKinds.ofTypes op a.type b.type).check = .ok ()) :
    ∃ r, Alu.binary op a b = .ok r ∧ Alu.binaryChecked op a b = .ok r ∧ r.type = a.type ∧
      (∀ i, i < l.count → IsResult l op a.value b.value r.value i) ∧
      FixedWidth.binary l IntType.i64.wrappingMul op a.value.toNat b.value.toNat =
        some (r.value.toNat : Int) ∧
      FixedWidth.binary l IntType.i64.mul op a.value.toNat b.value.toNat =
        if op = .mul ∧ l.width = .word ∧
            IntType.i64.greatest < (l.lane a.value 0 * l.lane b.value 0 : Nat)
        then none else some (r.value.toNat : Int) := by
  suffices h : ∃ r, Alu.binary op a b = .ok r ∧ r.type = a.type ∧
      ∀ i, i < l.count → IsResult l op a.value b.value r.value i by
    obtain ⟨r, hr, htype, hlanes⟩ := h
    have hchecked : Alu.binaryChecked op a b = .ok r := by
      rw [Alu.binaryChecked, hkinds]
      exact hr
    have hwrapped := FixedWidth.binary_eq hl hf hr fun _ =>
      FixedWidth.multiplies_wrapping (FixedWidth.range_le_of_clamped hl hf)
    exact ⟨r, hr, hchecked, htype, hlanes, hwrapped, FixedWidth.binary_checked hl hf hr⟩
  cases op with
  | xor => exact ⟨_, rfl, rfl, fun i _ => l.lane_xor _ _ i⟩
  | or => exact ⟨_, rfl, rfl, fun i _ => l.lane_or _ _ i⟩
  | and => exact ⟨_, rfl, rfl, fun i _ => l.lane_and _ _ i⟩
  | add => exact ⟨_, arithmetic_ok hl hf .add b, rfl, fun i hi => l.fits_build _ hi⟩
  | sub => exact ⟨_, arithmetic_ok hl hf .sub b, rfl, fun i hi => l.fits_build _ hi⟩
  | mul => exact ⟨_, arithmetic_ok hl hf .mul b, rfl, fun i hi => l.fits_build _ hi⟩
  | shiftLeft => exact ⟨_, shift_ok hl .shiftLeft b, rfl, fun _ hi => shiftLeft_lane l _ _ hi⟩
  | shiftRight => exact ⟨_, shift_ok hl .shiftRight b, rfl, fun _ hi => shiftRight_lane l _ _ hi⟩
  | shiftRightSigned =>
      exact ⟨_, shift_ok hl .shiftRightSigned b, rfl, fun _ hi => shiftRightSigned_lane l _ _ hi⟩

/-- The sum of the signed bytes of `0x8070ff01` and `0xff20ff01`, two of which are clamped,
and the square of the largest word, which a lane of 32 bits has as one. -/
theorem binary_exact_signedBytes :
    (∃ r, Alu.binary .add ⟨0x8070ff01, .sint8x4s⟩ ⟨0xff20ff01, .sint8x4s⟩ = .ok r ∧
      r = ⟨0x807ffe02, .sint8x4s⟩ ∧
      FixedWidth.binary ⟨.byte, .clampSigned⟩ IntType.i64.mul .add 0x8070ff01 0xff20ff01 =
        some 0x807ffe02) ∧
    ∃ r, Alu.binary .mul ⟨0xffffffff, .int32⟩ ⟨0xffffffff, .int32⟩ = .ok r ∧ r = ⟨1, .int32⟩ ∧
      FixedWidth.binary ⟨.word, .wrap⟩ IntType.i64.wrappingMul .mul 0xffffffff 0xffffffff =
        some 1 := by
  constructor
  · obtain ⟨r, hr, -, -, -, -, hchecked⟩ :=
      binary_exact .add ⟨0x8070ff01, .sint8x4s⟩ ⟨0xff20ff01, .sint8x4s⟩ ⟨.byte, .clampSigned⟩ rfl
        (by decide) rfl
    have hvalue : Alu.binary .add ⟨0x8070ff01, .sint8x4s⟩ ⟨0xff20ff01, .sint8x4s⟩ =
        .ok ⟨0x807ffe02, .sint8x4s⟩ := by
      decide
    cases hr.symm.trans hvalue
    exact ⟨_, hr, rfl, hchecked.trans (if_neg (by decide))⟩
  · obtain ⟨r, hr, -, -, -, hwrapped, -⟩ :=
      binary_exact .mul ⟨0xffffffff, .int32⟩ ⟨0xffffffff, .int32⟩ ⟨.word, .wrap⟩ rfl
        (by decide) rfl
    have hvalue : Alu.binary .mul ⟨0xffffffff, .int32⟩ ⟨0xffffffff, .int32⟩ =
        .ok ⟨1, .int32⟩ := by
      decide
    cases hr.symm.trans hvalue
    exact ⟨_, hr, rfl, hwrapped⟩

/-- The operands of the largest square are of kinds that go together and the operation has a
result, but the product of their lanes is no number of 64 bits. -/
theorem wordProduct_overflows :
    RegType.int32.layout? = some ⟨.word, .wrap⟩ ∧
      (OperandKinds.ofTypes .mul .int32 .int32).check = .ok () ∧
      Alu.binary .mul ⟨0xffffffff, .int32⟩ ⟨0xffffffff, .int32⟩ = .ok ⟨1, .int32⟩ ∧
      Layout.laneValue ⟨.word, .wrap⟩ 0xffffffff 0 = 0xffffffff ∧
      IntType.i64.fit (0xffffffff * 0xffffffff) = none ∧
      FixedWidth.binary ⟨.word, .wrap⟩ IntType.i64.mul .mul 0xffffffff 0xffffffff = none := by
  decide +kernel

/-! ## Full multiplication -/

/-- Without a shift the product is the plain one where a lane is read with its sign or
without it alike, or with the sign that its layout says. -/
theorem narrow_factor_mul {l : Layout} {signed : Bool} (hf : l.overflow ≠ .float)
    (hs : (l.overflow = .clampSigned → signed = true) ∧
      (l.overflow = .clampUnsigned → signed = false)) (a b : Word) (i : Nat) :
    l.narrow (factor l signed a i * factor l signed b i / 2 ^ 0) =
      l.narrow (l.laneValue a i * l.laneValue b i) := by
  have hmod : ∀ v, factor l signed v i % (l.range : Int) = l.lane v i := by
    intro v
    cases signed with
    | true => exact l.laneSigned_emod v i
    | false => exact Int.emod_eq_of_lt (Int.natCast_nonneg _) (Int.ofNat_lt.mpr (l.lane_lt v i))
  rw [Int.pow_zero, Int.ediv_one]
  cases ho : l.overflow with
  | float => exact absurd ho hf
  | wrap =>
      refine Int.ofNat_inj.mp ?_
      rw [l.narrow_eq, l.narrow_eq, Layout.fitted_wrap ho, Layout.fitted_wrap ho, Int.mul_emod,
        hmod, hmod, Layout.laneValue, Layout.laneValue, if_neg (by rw [ho]; decide),
        if_neg (by rw [ho]; decide)]
  | clampUnsigned =>
      rw [Layout.laneValue, Layout.laneValue, if_neg (by rw [ho]; decide),
        if_neg (by rw [ho]; decide), hs.2 ho]
      rfl
  | clampSigned =>
      rw [Layout.laneValue, Layout.laneValue, if_pos ho, if_pos ho, hs.1 ho]
      rfl

/-- The full multiplication of integer lanes, read with their signs or without them: each
lane is the exact product, shifted right and fitted, and no step of the fixed-width
computation overflows. Without a shift it is the plain multiplication, if the lanes
are read as their layout says, or wrap around, or are floating-point numbers. -/
theorem fullMul_exact (a b : TypedWord) (signed : Bool) (l : Layout)
    (hl : a.type.layout? = some l) :
    (l.overflow ≠ .float → ∀ amount, amount < 32 →
      ∃ r, fullMul a b amount signed = .ok r ∧ r.type = a.type ∧
        (∀ i, i < l.count → l.Fits r.value i
          (factor l signed a.value i * factor l signed b.value i / 2 ^ amount)) ∧
        FixedWidth.fullMul l a.value.toNat b.value.toNat amount signed =
          some (r.value.toNat : Int)) ∧
    ((l.overflow = .clampSigned → signed = true) → (l.overflow = .clampUnsigned → signed = false) →
      fullMul a b 0 signed = Alu.binary .mul a b) := by
  constructor
  · intro hf amount hamount
    have hr := fullMul_ok hl hf b hamount signed
    exact ⟨_, hr, rfl, fun i hi => l.fits_build _ hi, FixedWidth.fullMul_eq hl hf hamount hr⟩
  · intro hsigned hunsigned
    by_cases hf : l.overflow = .float
    · show fullMul a b 0 signed = arithmetic .mul a b
      unfold fullMul arithmetic RegType.layout
      rw [hl]
      exact (if_pos hf).trans (if_pos hf).symm
    · show _ = arithmetic .mul a b
      rw [fullMul_ok hl hf b (by decide), arithmetic_ok hl hf]
      refine congrArg (fun v => Except.ok (⟨v, a.type⟩ : TypedWord)) (l.build_congr fun i _ => ?_)
      rw [narrow_factor_mul hf ⟨hsigned, hunsigned⟩]
      rfl

/-- The square of the largest word, without signs and shifted by 31, and the product of
clamped bytes with signs, which is the plain one. -/
theorem fullMul_exact_words_and_bytes :
    (∃ r, fullMul ⟨0xffffffff, .int32⟩ ⟨0xffffffff, .int32⟩ 31 false = .ok r ∧
      Layout.Fits ⟨.word, .wrap⟩ r.value 0 (0xffffffff * 0xffffffff / 2 ^ 31)) ∧
    fullMul ⟨0x8070ff01, .sint8x4s⟩ ⟨0xff20ff01, .sint8x4s⟩ 0 true =
      Alu.binary .mul ⟨0x8070ff01, .sint8x4s⟩ ⟨0xff20ff01, .sint8x4s⟩ := by
  constructor
  · obtain ⟨r, hr, -, hlanes, -⟩ :=
      (fullMul_exact ⟨0xffffffff, .int32⟩ ⟨0xffffffff, .int32⟩ false ⟨.word, .wrap⟩ rfl).1
        (by decide) 31 (by decide)
    exact ⟨r, hr, hlanes 0 (by decide)⟩
  · exact (fullMul_exact ⟨0x8070ff01, .sint8x4s⟩ ⟨0xff20ff01, .sint8x4s⟩ true
      ⟨.byte, .clampSigned⟩ rfl).2 (fun _ => rfl) (by decide)

end Lane

end TypedCore
