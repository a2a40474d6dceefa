import Mathlib.Data.Nat.Bitwise
import TypedCore.Alu

/-!
# Lanes and values

The lanes of a value are the digits of a number: a value is determined by
its lanes (`Layout.eq_of_lanes`), and a value that is built from lanes has
these lanes, each without the bits above its width (`Layout.lane_build`). So
nothing that is computed lane by lane can leak from one lane into the next.

A lane that is fitted to its layout is the nearest number of its range, reduced
to the width of the lane (`Layout.narrow_eq`).
-/

namespace TypedCore

/-! ## Digits -/

theorem packLanes_cons (bits x : Nat) (xs : List Nat) :
    packLanes bits (x :: xs) = x % 2 ^ bits + 2 ^ bits * packLanes bits xs := by
  rw [packLanes, Nat.one_shiftLeft, Nat.shiftLeft_eq, Nat.mul_comm]

theorem packLanes_lt (bits : Nat) (xs : List Nat) :
    packLanes bits xs < 2 ^ (xs.length * bits) := by
  induction xs with
  | nil => simp [packLanes]
  | cons x xs ih =>
      rw [packLanes_cons, List.length_cons, Nat.succ_mul, Nat.add_comm _ bits, Nat.pow_add]
      exact Nat.lt_of_lt_of_le
        (Nat.add_lt_add_right (Nat.mod_lt x (Nat.two_pow_pos bits)) _)
        (by rw [Nat.add_comm, ← Nat.mul_succ]; exact Nat.mul_le_mul_left _ ih)

/-- A digit that is put on top. -/
theorem packLanes_append (bits x : Nat) (xs : List Nat) :
    packLanes bits (xs ++ [x]) =
      packLanes bits xs + 2 ^ (xs.length * bits) * (x % 2 ^ bits) := by
  induction xs with
  | nil => rw [List.nil_append, packLanes_cons, packLanes, List.length_nil]; simp
  | cons y xs ih =>
      rw [List.cons_append, packLanes_cons, packLanes_cons, ih, List.length_cons, Nat.succ_mul,
        Nat.add_comm _ bits, Nat.pow_add, Nat.mul_add, Nat.mul_assoc, Nat.add_assoc]

theorem packLanes_digit (bits : Nat) (xs : List Nat) (i : Nat) :
    packLanes bits xs / 2 ^ (i * bits) % 2 ^ bits = (xs[i]?.getD 0) % 2 ^ bits := by
  induction xs generalizing i with
  | nil => simp [packLanes]
  | cons x xs ih =>
      have hx : x % 2 ^ bits < 2 ^ bits := Nat.mod_lt x (Nat.two_pow_pos bits)
      rw [packLanes_cons]
      cases i with
      | zero => simp
      | succ i =>
          rw [Nat.succ_mul, Nat.add_comm _ bits, Nat.pow_add, ← Nat.div_div_eq_div_mul,
            Nat.add_mul_div_left _ _ (Nat.two_pow_pos bits), Nat.div_eq_of_lt hx, Nat.zero_add, ih,
            List.getElem?_cons_succ]

namespace Layout

variable (l : Layout)

/-! ## Sizes -/

theorem range_eq : l.range = 2 ^ l.bits := Nat.one_shiftLeft l.bits

theorem bits_pos : 0 < l.bits := Nat.mul_pos (by decide) l.width.bytes_pos

theorem count_mul_bits : l.count * l.bits = 32 := by
  unfold count bits Width.bits
  cases l.width with
  | byte | half | word => rfl

theorem bits_le : l.bits ≤ 32 := by
  unfold bits Width.bits
  cases l.width with
  | byte | half | word => decide

theorem range_pos : 0 < l.range := l.range_eq ▸ Nat.two_pow_pos _

theorem range_le : l.range ≤ 2 ^ 32 :=
  l.range_eq ▸ Nat.pow_le_pow_right (by decide) l.bits_le

theorem one_lt_range : 1 < l.range :=
  l.range_eq ▸ Nat.one_lt_two_pow (Nat.pos_iff_ne_zero.mp l.bits_pos)

/-- Half the range: the weight of the sign bit of a lane. -/
theorem two_mul_half_range : 2 * (l.range / 2) = l.range := by
  rw [range_eq, ← Nat.pow_pred_mul l.bits_pos, Nat.mul_div_cancel _ (by decide : 0 < 2),
    Nat.mul_comm]

theorem half_range_eq : l.range / 2 = 2 ^ (l.bits - 1) := by
  rw [range_eq, ← Nat.pow_pred_mul l.bits_pos, Nat.mul_div_cancel _ (by decide : 0 < 2)]

theorem half_range_pos : 0 < l.range / 2 := l.half_range_eq ▸ Nat.two_pow_pos _

theorem natCast_range : (l.range : Int) = 2 ^ l.bits := by
  rw [range_eq]
  push_cast
  rfl

theorem natCast_half_range : ((l.range / 2 : Nat) : Int) = 2 ^ (l.bits - 1) := by
  rw [half_range_eq]
  push_cast
  rfl

/-- A lane starts inside the value and ends inside it. -/
theorem lane_fits {i : Nat} (h : i < l.count) : i * l.bits + l.bits ≤ 32 := by
  rw [← Nat.succ_mul, ← l.count_mul_bits]
  exact Nat.mul_le_mul_right _ h

/-! ## Lanes -/

theorem lane_eq (v : Word) (i : Nat) :
    l.lane v i = v.toNat / 2 ^ (i * l.bits) % 2 ^ l.bits := by
  rw [lane, Nat.shiftRight_eq_div_pow, range_eq]

theorem lane_lt (v : Word) (i : Nat) : l.lane v i < l.range := Nat.mod_lt _ l.range_pos

theorem testBit_lane (v : Word) (i j : Nat) :
    (l.lane v i).testBit j = (decide (j < l.bits) && v.toNat.testBit (i * l.bits + j)) := by
  rw [lane, range_eq, Nat.testBit_mod_two_pow, Nat.testBit_shiftRight]

/-- A value is determined by its lanes. -/
theorem eq_of_lanes {v w : Word} (h : ∀ i, i < l.count → l.lane v i = l.lane w i) : v = w := by
  refine BitVec.eq_of_toNat_eq (Nat.eq_of_testBit_eq fun k => ?_)
  by_cases hk : k < 32
  · -- bit `k` belongs to lane `k / bits`
    have hi : k / l.bits < l.count :=
      Nat.div_lt_of_lt_mul (by rw [Nat.mul_comm, l.count_mul_bits]; exact hk)
    have hj : k % l.bits < l.bits := Nat.mod_lt k l.bits_pos
    have hbit := congrArg (Nat.testBit · (k % l.bits)) (h _ hi)
    simpa only [testBit_lane, hj, decide_true, Bool.true_and, Nat.div_add_mod'] using hbit
  · have hpow : 2 ^ 32 ≤ 2 ^ k := Nat.pow_le_pow_right (by decide) (Nat.le_of_not_lt hk)
    rw [Nat.testBit_eq_false_of_lt (Nat.lt_of_lt_of_le v.isLt hpow),
      Nat.testBit_eq_false_of_lt (Nat.lt_of_lt_of_le w.isLt hpow)]

theorem toNat_build (f : Nat → Nat) :
    (l.build f).toNat = packLanes l.bits ((List.range l.count).map f) := by
  rw [build, pack, BitVec.toNat_ofNat]
  refine Nat.mod_eq_of_lt ?_
  have h := packLanes_lt l.bits ((List.range l.count).map f)
  rwa [List.length_map, List.length_range, l.count_mul_bits] at h

/-- Lane `i` of a value that is built from lanes is lane `i`, and nothing of another one. -/
theorem lane_build (f : Nat → Nat) {i : Nat} (h : i < l.count) :
    l.lane (l.build f) i = f i % l.range := by
  rw [lane_eq, toNat_build, packLanes_digit, range_eq, List.getElem?_map,
    List.getElem?_range h]
  rfl

theorem build_congr {f g : Nat → Nat} (h : ∀ i, i < l.count → f i % l.range = g i % l.range) :
    l.build f = l.build g :=
  l.eq_of_lanes fun i hi => by rw [lane_build l f hi, lane_build l g hi, h i hi]

/-! ## Bitwise operations -/

/-- What works bit by bit on values does so on their lanes, if it makes nothing of two zeros. -/
theorem testBit_lane_of_bitwise {f : Bool → Bool → Bool} (hf : f false false = false)
    {r v w : Word} (h : ∀ k, r.toNat.testBit k = f (v.toNat.testBit k) (w.toNat.testBit k))
    (i j : Nat) :
    (l.lane r i).testBit j = f ((l.lane v i).testBit j) ((l.lane w i).testBit j) := by
  rw [testBit_lane, testBit_lane, testBit_lane, h]
  cases decide (j < l.bits) with
  | false => exact hf.symm
  | true => rfl

theorem lane_xor (v w : Word) (i : Nat) : l.lane (v ^^^ w) i = l.lane v i ^^^ l.lane w i := by
  refine Nat.eq_of_testBit_eq fun j => ?_
  rw [Nat.testBit_xor]
  exact l.testBit_lane_of_bitwise rfl
    (fun k => by rw [BitVec.toNat_xor, Nat.testBit_xor]) i j

theorem lane_or (v w : Word) (i : Nat) : l.lane (v ||| w) i = l.lane v i ||| l.lane w i := by
  refine Nat.eq_of_testBit_eq fun j => ?_
  rw [Nat.testBit_or]
  exact l.testBit_lane_of_bitwise rfl (fun k => by rw [BitVec.toNat_or, Nat.testBit_or]) i j

theorem lane_and (v w : Word) (i : Nat) : l.lane (v &&& w) i = l.lane v i &&& l.lane w i := by
  refine Nat.eq_of_testBit_eq fun j => ?_
  rw [Nat.testBit_and]
  exact l.testBit_lane_of_bitwise rfl (fun k => by rw [BitVec.toNat_and, Nat.testBit_and]) i j

/-- The lanes of a complement are what the lanes lack to the largest number. -/
theorem lane_not (v : Word) {i : Nat} (h : i < l.count) :
    l.lane (~~~v) i = l.range - 1 - l.lane v i := by
  have hfits := l.lane_fits h
  have hlt := l.lane_lt v i
  rw [range_eq] at hlt ⊢
  refine Nat.eq_of_testBit_eq fun j => ?_
  rw [Nat.sub_sub, Nat.add_comm 1, Nat.testBit_two_pow_sub_succ hlt, testBit_lane, testBit_lane]
  by_cases hj : j < l.bits
  · have hk : i * l.bits + j < 32 := Nat.lt_of_lt_of_le (Nat.add_lt_add_left hj _) hfits
    rw [decide_eq_true hj, Bool.true_and, Bool.true_and, Bool.true_and,
      BitVec.testBit_toNat, BitVec.testBit_toNat, BitVec.getLsbD_not, decide_eq_true hk,
      Bool.true_and]
  · rw [decide_eq_false hj]
    rfl

theorem lane_zero (i : Nat) : l.lane 0 i = 0 := by
  rw [lane_eq]
  simp

theorem lane_allOnes {i : Nat} (h : i < l.count) :
    l.lane (BitVec.allOnes 32) i = l.range - 1 := by
  rw [← BitVec.not_zero, lane_not l _ h]
  exact congrArg (l.range - 1 - ·) (l.lane_zero i)

/-! ## Signed lanes -/

theorem laneSigned_bounds (v : Word) (i : Nat) :
    -(l.range / 2 : Nat) ≤ l.laneSigned v i ∧ l.laneSigned v i < (l.range / 2 : Nat) := by
  have hlt := l.lane_lt v i
  have hhalf := l.two_mul_half_range
  unfold laneSigned
  split <;> omega

/-- The two readings of a lane differ by a multiple of the range. -/
theorem laneSigned_emod (v : Word) (i : Nat) :
    l.laneSigned v i % (l.range : Int) = l.lane v i := by
  have hlt := l.lane_lt v i
  unfold laneSigned
  split
  · exact Int.emod_eq_of_lt (by omega) (by omega)
  · rw [Int.sub_emod_right]
    exact Int.emod_eq_of_lt (by omega) (by omega)

/-- The signed reading of a lane that stands for a number of the signed range. -/
theorem laneSigned_of_emod {v : Word} {i : Nat} {x : Int} (hlo : -(l.range / 2 : Nat) ≤ x)
    (hhi : x < (l.range / 2 : Nat)) (h : (l.lane v i : Int) = x % l.range) :
    l.laneSigned v i = x := by
  have hhalf := l.two_mul_half_range
  have hbounds := l.laneSigned_bounds v i
  have hmod : l.laneSigned v i % (l.range : Int) = x % l.range :=
    (l.laneSigned_emod v i).trans h
  have hdvd : (l.range : Int) ∣ l.laneSigned v i - x :=
    Int.dvd_of_emod_eq_zero (Int.emod_eq_emod_iff_emod_sub_eq_zero.mp hmod)
  -- two numbers of one range, a multiple of its length apart
  have hzero := Int.eq_zero_of_dvd_of_natAbs_lt_natAbs hdvd (by omega)
  omega

theorem laneValue_bounds (v : Word) (i : Nat) :
    -(l.range / 2 : Nat) ≤ l.laneValue v i ∧ l.laneValue v i < l.range := by
  have hlt := l.lane_lt v i
  have hsigned := l.laneSigned_bounds v i
  have hhalf := l.two_mul_half_range
  unfold laneValue
  split <;> omega

end Layout

/-! ## Fitting a number to a lane -/

/-- The number of a closed interval that is nearest to a given one. -/
def clamp (lo hi x : Int) : Int := if x < lo then lo else if hi < x then hi else x

theorem clamp_bounds {lo hi : Int} (h : lo ≤ hi) (x : Int) :
    lo ≤ clamp lo hi x ∧ clamp lo hi x ≤ hi := by
  unfold clamp
  split
  · exact ⟨Int.le_refl lo, h⟩
  · split <;> omega

theorem max_min_eq_clamp {lo hi : Int} (h : lo ≤ hi) (x : Int) :
    max lo (min hi x) = clamp lo hi x := by
  unfold clamp
  split
  · omega
  · split <;> omega

/-- Clamping to an interval and then to a smaller one is clamping to the smaller one. -/
theorem clamp_clamp {lo hi lo' hi' : Int} (h : lo ≤ hi) (hlo : lo' ≤ lo) (hhi : hi ≤ hi')
    (x : Int) : clamp lo hi (clamp lo' hi' x) = clamp lo hi x := by
  unfold clamp
  split <;> split <;> (try split) <;> (try split) <;> omega

namespace Layout

variable (l : Layout)

/-- The number that is nearest to a given one in the range of a lane; a lane that
wraps around takes any number. -/
def fitted (x : Int) : Int :=
  match l.overflow with
  | .clampUnsigned => clamp 0 (l.range - 1) x
  | .clampSigned => clamp (-(l.range / 2 : Nat)) ((l.range / 2 : Nat) - 1) x
  | .wrap | .float => x

theorem narrow_eq (x : Int) : (l.narrow x : Int) = l.fitted x % l.range := by
  have hpos := l.range_pos
  have hhalf := l.half_range_pos
  have hfitted : l.narrow x = (l.fitted x % l.range).toNat := by
    unfold narrow fitted
    cases l.overflow with
    | wrap | float => rfl
    | clampUnsigned =>
        dsimp only
        rw [max_min_eq_clamp (by omega)]
    | clampSigned =>
        dsimp only
        rw [max_min_eq_clamp (by omega)]
  rw [hfitted, Int.toNat_of_nonneg (Int.emod_nonneg _ (by omega))]

theorem narrow_lt (x : Int) : l.narrow x < l.range := by
  have hpos := l.range_pos
  have hlt := Int.emod_lt_of_pos (l.fitted x) (by omega : (0 : Int) < l.range)
  rw [← narrow_eq] at hlt
  exact Int.ofNat_lt.mp hlt

/-- The lane of a built value that is fitted from a number. -/
theorem lane_build_narrow (f : Nat → Int) {i : Nat} (h : i < l.count) :
    l.lane (l.build fun i => l.narrow (f i)) i = l.narrow (f i) := by
  rw [lane_build l _ h, Nat.mod_eq_of_lt (l.narrow_lt _)]

variable {l}

theorem fitted_wrap (h : l.overflow = .wrap) (x : Int) : l.fitted x = x := by
  rw [fitted, h]

theorem fitted_clampUnsigned (h : l.overflow = .clampUnsigned) (x : Int) :
    l.fitted x = clamp 0 (l.range - 1) x := by
  rw [fitted, h]

theorem fitted_clampSigned (h : l.overflow = .clampSigned) (x : Int) :
    l.fitted x = clamp (-(l.range / 2 : Nat)) ((l.range / 2 : Nat) - 1) x := by
  rw [fitted, h]

end Layout

/-! ## Operations -/

namespace Lane

variable {a : TypedWord} {l : Layout}

/-- Arithmetic of integer lanes. -/
theorem arithmetic_ok (hl : a.type.layout? = some l) (hf : l.overflow ≠ .float) (op : BinaryOp)
    (b : TypedWord) :
    arithmetic op a b = .ok ⟨l.build fun i =>
      l.narrow (exact op (l.laneValue a.value i) (l.laneValue b.value i)), a.type⟩ := by
  unfold arithmetic RegType.layout
  rw [hl]
  exact if_neg hf

theorem shift_ok (hl : a.type.layout? = some l) (op : BinaryOp) (b : TypedWord) :
    shift op a b =
      .ok ⟨l.build fun i => shiftLane op l a.value (l.lane b.value i) i, a.type⟩ := by
  unfold shift RegType.layout
  rw [hl]
  rfl

theorem natCast_one_shiftLeft (k : Nat) : ((1 <<< k : Nat) : Int) = 2 ^ k := by
  rw [Nat.one_shiftLeft]
  push_cast
  rfl

/-- The low bits of a signed shift to the right are those of the quotient. -/
theorem shiftRightSigned_emod (l : Layout) (a : Word) (k i : Nat) :
    ((shiftLane .shiftRightSigned l a k i % l.range : Nat) : Int) =
      l.laneSigned a i / 2 ^ (k % 32) % l.range := by
  have hpos : (l.range : Int) ≠ 0 := Int.natCast_ne_zero.mpr (Nat.ne_of_gt l.range_pos)
  show (((l.laneSigned a i / (1 <<< (k % 32) : Nat) % l.range).toNat % l.range : Nat) : Int) = _
  rw [natCast_one_shiftLeft, Int.natCast_emod, Int.toNat_of_nonneg (Int.emod_nonneg _ hpos),
    Int.emod_emod]

/-- The reading of the lanes of a full multiplication. -/
def factor (l : Layout) (signed : Bool) (v : Word) (i : Nat) : Int :=
  if signed then l.laneSigned v i else l.lane v i

theorem fullMul_ok (hl : a.type.layout? = some l) (hf : l.overflow ≠ .float) (b : TypedWord)
    {amount : Nat} (h : amount < 32) (signed : Bool) :
    fullMul a b amount signed = .ok ⟨l.build fun i =>
      l.narrow (factor l signed a.value i * factor l signed b.value i / 2 ^ amount), a.type⟩ := by
  unfold fullMul RegType.layout
  rw [hl]
  refine (if_neg hf).trans ?_
  rw [Nat.mod_eq_of_lt h, natCast_one_shiftLeft]
  rfl

end Lane

end TypedCore
