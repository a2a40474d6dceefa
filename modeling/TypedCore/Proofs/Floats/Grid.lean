import Mathlib.Algebra.Order.Field.Power
import Mathlib.Tactic.FieldSimp
import TypedCore.Proofs.Floats.Nearest

/-!
# The values of a format as a grid

Without its sign a pattern stands for a magnitude (`FloatFormat.magnitude`), by
the usual reading of its fields. The magnitudes increase with the patterns,
and go on past the pattern of infinity, where the next power of two would be.
Around each number the grid has a step: the magnitudes from the first
significand of full length on are multiples of it, and those below stay below
that significand (`FloatFormat.magnitude_at`).

So to round to the nearest multiple of the step is to round to the nearest
magnitude (`FloatFormat.nearest_of_step`), which is what `encodeMagnitude` does
(`FloatFormat.encodeMagnitude_nearest`).
-/

namespace TypedCore.FloatFormat

variable (f : FloatFormat)

/-! ## Magnitudes -/

/-- What is added to an exponent before it is stored. -/
def bias : Int := 2 ^ (f.exponentBits - 1) - 1

/-- The magnitude of a pattern without its sign: the fraction of a power of two, and that power
itself if the exponent is not the lowest. -/
def magnitude (n : Nat) : ℚ :=
  let exponent := n / 2 ^ f.fractionBits
  let fraction : ℚ := (n % 2 ^ f.fractionBits : Nat) / 2 ^ f.fractionBits
  if exponent = 0 then fraction * 2 ^ (1 - f.bias) else (1 + fraction) * 2 ^ (exponent - f.bias)

theorem minExponent_eq : f.minExponent = 1 - f.bias - f.fractionBits := by
  unfold minExponent bias
  rw [Nat.one_shiftLeft]
  push_cast
  ring

variable {f} {t r k n : Nat}

theorem magnitude_subnormal (hr : r < 2 ^ f.fractionBits) :
    f.magnitude r = r * 2 ^ f.minExponent := by
  unfold magnitude
  dsimp only
  rw [Nat.div_eq_of_lt hr, Nat.mod_eq_of_lt hr, if_pos rfl, minExponent_eq,
    zpow_sub₀ two_ne_zero (1 - f.bias), zpow_natCast]
  ring

theorem magnitude_normal (hr : r < 2 ^ f.fractionBits) :
    f.magnitude ((t + 1) * 2 ^ f.fractionBits + r) =
      (2 ^ f.fractionBits + r : Nat) * 2 ^ (f.minExponent + t) := by
  have hdiv : ((t + 1) * 2 ^ f.fractionBits + r) / 2 ^ f.fractionBits = t + 1 := by
    rw [Nat.mul_comm, Nat.mul_add_div (Nat.two_pow_pos _), Nat.div_eq_of_lt hr, Nat.add_zero]
  have hmod : ((t + 1) * 2 ^ f.fractionBits + r) % 2 ^ f.fractionBits = r := by
    rw [Nat.mul_comm, Nat.mul_add_mod, Nat.mod_eq_of_lt hr]
  have hexponent : ((t + 1 : Nat) : Int) - f.bias = f.minExponent + t + f.fractionBits := by
    rw [minExponent_eq]
    push_cast
    ring
  unfold magnitude
  dsimp only
  rw [hdiv, hmod, if_neg (Nat.succ_ne_zero t), hexponent,
    zpow_add₀ two_ne_zero _ (f.fractionBits : Int), zpow_natCast]
  push_cast
  field_simp

/-- Significands in steps of one exponent. The one above the largest carries into the next. -/
theorem magnitude_at (hr : r ≤ 2 ^ (f.fractionBits + 1)) (ht : t = 0 ∨ 2 ^ f.fractionBits ≤ r) :
    f.magnitude (t * 2 ^ f.fractionBits + r) = r * 2 ^ (f.minExponent + t) := by
  rw [Nat.pow_succ] at hr
  rcases Nat.lt_or_ge r (2 ^ f.fractionBits) with hlow | hhigh
  · obtain rfl : t = 0 := by omega
    rw [Nat.zero_mul, Nat.zero_add, magnitude_subnormal hlow]
    simp
  · obtain ⟨s, rfl⟩ := Nat.exists_eq_add_of_le hhigh
    rcases Nat.lt_or_ge s (2 ^ f.fractionBits) with hs | hs
    · rw [← Nat.add_assoc, ← Nat.succ_mul, magnitude_normal hs]
    · obtain rfl : s = 2 ^ f.fractionBits := by omega
      rw [← Nat.add_assoc, ← Nat.succ_mul, ← Nat.succ_mul, ← Nat.add_zero (_ * _),
        magnitude_normal (Nat.two_pow_pos _)]
      push_cast
      rw [← add_assoc, zpow_add_one₀ two_ne_zero]
      ring

/-- Every pattern counts steps of its exponent. -/
theorem exists_at (f : FloatFormat) (n : Nat) :
    ∃ t r, n = t * 2 ^ f.fractionBits + r ∧ r < 2 ^ (f.fractionBits + 1) ∧
      (t = 0 ∨ 2 ^ f.fractionBits ≤ r) := by
  have hrest := Nat.mod_lt n (Nat.two_pow_pos f.fractionBits)
  have hn := Nat.div_add_mod n (2 ^ f.fractionBits)
  rw [Nat.mul_comm] at hn
  rw [Nat.pow_succ]
  cases he : n / 2 ^ f.fractionBits with
  | zero =>
      rw [he] at hn
      exact ⟨0, n, by omega, by omega, .inl rfl⟩
  | succ t =>
      rw [he, Nat.succ_mul] at hn
      exact ⟨t, 2 ^ f.fractionBits + n % 2 ^ f.fractionBits, by omega, by omega, .inr (by omega)⟩

theorem strictMono_magnitude (f : FloatFormat) : StrictMono f.magnitude := by
  refine strictMono_nat_of_lt_succ fun n => ?_
  obtain ⟨t, r, rfl, hr, ht⟩ := f.exists_at n
  rw [magnitude_at hr.le ht, Nat.add_assoc, magnitude_at hr (ht.imp_right Nat.le_succ_of_le)]
  exact mul_lt_mul_of_pos_right (Nat.cast_lt.mpr (Nat.lt_succ_self r)) (by positivity)

theorem magnitude_zero (f : FloatFormat) : f.magnitude 0 = 0 := by
  rw [magnitude_subnormal (Nat.two_pow_pos _), Nat.cast_zero, zero_mul]

theorem magnitude_nonneg (f : FloatFormat) (n : Nat) : 0 ≤ f.magnitude n :=
  f.magnitude_zero ▸ (strictMono_magnitude f).monotone n.zero_le

/-! ## Rounding to a step -/

/-- A magnitude is a multiple of a given step, or it is below the significands of full length
that count in that step. -/
theorem magnitude_cases (f : FloatFormat) (t k : Nat) :
    (∃ j : Nat, f.magnitude k = j * 2 ^ (f.minExponent + t)) ∨
      (0 < t ∧ f.magnitude k < (2 ^ f.fractionBits : Nat) * 2 ^ (f.minExponent + t)) := by
  obtain ⟨s, r, rfl, hr, hs⟩ := f.exists_at k
  rcases Nat.lt_or_ge s t with hlt | hge
  · refine .inr ⟨by omega, ?_⟩
    rw [← magnitude_at (by rw [Nat.pow_succ]; omega) (.inr le_rfl)]
    refine strictMono_magnitude f ?_
    rw [Nat.pow_succ] at hr
    have hmul := Nat.mul_le_mul_right (2 ^ f.fractionBits) hlt
    rw [Nat.succ_mul] at hmul
    omega
  · obtain ⟨d, rfl⟩ := Nat.exists_eq_add_of_le hge
    refine .inl ⟨r * 2 ^ d, ?_⟩
    rw [magnitude_at hr.le hs]
    push_cast
    rw [← add_assoc, zpow_add₀ two_ne_zero _ (d : Int), zpow_natCast]
    ring

/-- The nearest count of steps is the nearest magnitude, if the step is the one of the number:
as small as there is, or one in which the number has a significand of full length. -/
theorem nearest_of_step (hbits : 0 < f.fractionBits) {w : ℚ}
    (hw : IsNearest (fun n : Nat => (n : ℚ)) w r) (hr : w ≤ (2 ^ (f.fractionBits + 1) : Nat))
    (ht : t = 0 ∨ ((2 ^ f.fractionBits : Nat) : ℚ) ≤ w) :
    IsNearest f.magnitude (w * 2 ^ (f.minExponent + t)) (t * 2 ^ f.fractionBits + r) := by
  have hunit : (0 : ℚ) < 2 ^ (f.minExponent + t) := by positivity
  have hdist : ∀ x : ℚ, |x * 2 ^ (f.minExponent + t) - w * 2 ^ (f.minExponent + t)| =
      |x - w| * 2 ^ (f.minExponent + t) := by
    intro x
    rw [← sub_mul, abs_mul, abs_of_pos hunit]
  have hpoint : f.magnitude (t * 2 ^ f.fractionBits + r) = r * 2 ^ (f.minExponent + t) :=
    magnitude_at (hw.le_of_le strictMono_natCast hr)
      (ht.imp_right fun h => hw.ge_of_ge strictMono_natCast h)
  -- what is not a multiple of the step is farther away than the least significand of full length
  have hbelow : ∀ k, 0 < t →
      f.magnitude k < (2 ^ f.fractionBits : Nat) * 2 ^ (f.minExponent + t) →
      |(r : ℚ) - w| * 2 ^ (f.minExponent + t) <
        |f.magnitude k - w * 2 ^ (f.minExponent + t)| := by
    intro k htpos hk
    have hfull : ((2 ^ f.fractionBits : Nat) : ℚ) ≤ w := ht.resolve_left (by omega)
    have hleast := mul_le_mul_of_nonneg_right (hw.closest (2 ^ f.fractionBits)) hunit.le
    have hscaled := mul_le_mul_of_nonneg_right hfull hunit.le
    refine lt_of_le_of_lt hleast ?_
    rw [abs_of_nonpos (by linarith : ((2 ^ f.fractionBits : Nat) : ℚ) - w ≤ 0),
      abs_of_neg (by linarith)]
    linarith
  refine ⟨fun k => ?_, fun k hk htie => ?_⟩
  · rw [hpoint, hdist]
    obtain ⟨j, hj⟩ | ⟨htpos, hk⟩ := f.magnitude_cases t k
    · rw [hj, hdist]
      exact mul_le_mul_of_nonneg_right (hw.closest j) hunit.le
    · exact (hbelow k htpos hk).le
  · rw [hpoint, hdist] at htie
    obtain ⟨j, hj⟩ | ⟨htpos, hlow⟩ := f.magnitude_cases t k
    · rw [hj, hdist] at htie
      have hjr : j ≠ r := by
        rintro rfl
        exact hk (strictMono_magnitude f |>.injective (hj.trans hpoint.symm))
      have heven := hw.even j hjr (mul_right_cancel₀ hunit.ne' htie)
      have hpow : 2 ^ f.fractionBits % 2 = 0 :=
        Nat.mod_eq_zero_of_dvd (dvd_pow_self 2 (Nat.pos_iff_ne_zero.mp hbits))
      rw [Nat.add_mod, Nat.mul_mod, hpow, heven, Nat.mul_zero]
    · exact absurd htie (hbelow k htpos hlow).ne'

/-! ## Encoding -/

theorem significand_nearest (m : Nat) (q step : Int) :
    IsNearest (fun n : Nat => (n : ℚ)) (m * 2 ^ (q - step))
      (if step ≤ q then m <<< (q - step).toNat else roundShift m (step - q).toNat) := by
  split
  case isTrue hle =>
    have hvalue : (m : ℚ) * 2 ^ (q - step) = (m <<< (q - step).toNat : Nat) := by
      rw [Nat.shiftLeft_eq]
      push_cast
      rw [← zpow_natCast, Int.toNat_of_nonneg (by omega)]
    rw [hvalue]
    exact .of_point strictMono_natCast _
  case isFalse hlt =>
    have hvalue : (m : ℚ) * 2 ^ (q - step) = m / 2 ^ (step - q).toNat := by
      rw [← zpow_natCast, Int.toNat_of_nonneg (by omega), ← neg_sub, zpow_neg, div_eq_mul_inv]
    rw [hvalue]
    exact roundShift_nearest m _

/-- The rounded magnitude of a number is that of the nearest pattern, or infinity if that pattern
is not below the one of infinity. -/
theorem encodeMagnitude_nearest (hbits : 0 < f.fractionBits) (m : Nat) (q : Int) :
    ∃ n, IsNearest f.magnitude (m * 2 ^ q) n ∧
      f.encodeMagnitude m q = min n f.infinityPattern := by
  unfold encodeMagnitude
  by_cases hm : m = 0
  · refine ⟨0, ?_, by rw [if_pos hm, Nat.zero_min]⟩
    have hpoint := IsNearest.of_point (strictMono_magnitude f) 0
    rw [magnitude_zero] at hpoint
    rwa [hm, Nat.cast_zero, zero_mul]
  obtain ⟨t, ht⟩ : ∃ t : Nat, max (q + (m.log2 - f.fractionBits : Int)) f.minExponent =
      f.minExponent + t := ⟨(max (q + (m.log2 - f.fractionBits : Int)) f.minExponent -
        f.minExponent).toNat, by omega⟩
  have hlow : (2 : ℚ) ^ (m.log2 : Int) ≤ m := by exact_mod_cast Nat.log2_self_le hm
  have hhigh : (m : ℚ) < 2 ^ (m.log2 + 1 : Int) := by exact_mod_cast Nat.lt_log2_self
  have hpos : (0 : ℚ) < 2 ^ (q - (f.minExponent + t)) := by positivity
  dsimp only
  rw [if_neg hm, ht, Nat.shiftLeft_eq, show f.minExponent + t - f.minExponent = t by omega,
    Int.toNat_natCast]
  refine ⟨_, ?_, rfl⟩
  have hnearest :=
    nearest_of_step hbits (significand_nearest m q (f.minExponent + t)) (t := t) ?_ ?_
  · rwa [mul_assoc, ← zpow_add₀ two_ne_zero, sub_add_cancel] at hnearest
  · refine (mul_lt_mul_of_pos_right hhigh hpos).le.trans ?_
    rw [← zpow_add₀ two_ne_zero]
    push_cast
    rw [← zpow_natCast]
    exact zpow_le_zpow_right₀ one_le_two (by push_cast; omega)
  · rcases Nat.eq_zero_or_pos t with rfl | htpos
    · exact .inl rfl
    · right
      refine le_trans ?_ (mul_le_mul_of_nonneg_right hlow hpos.le)
      rw [← zpow_add₀ two_ne_zero]
      push_cast
      rw [← zpow_natCast]
      exact zpow_le_zpow_right₀ one_le_two (by omega)

end TypedCore.FloatFormat
