import Mathlib.Data.Nat.Bitwise
import TypedCore.Float.Single
import TypedCore.Proofs.Floats.Half

/-!
# Conversions by their fields

A single can be narrowed without ever being decoded: the exponent field is
moved, the fraction is cut, and what falls away decides whether to add one,
which carries into the exponent by itself (`HalfFloat.narrow`). A half is
widened in the same way, only that a number below the normal ones is computed as
a product (`HalfFloat.widen`). Both agree with the conversions through exact
values on every pattern, NaNs included (`HalfFloat.narrow_eq`,
`HalfFloat.widen_eq`).
-/

namespace TypedCore

open FloatFormat

namespace HalfFloat

/-- Moves and rounds the exponent and the fraction of a single. -/
def narrowFields (exponent fraction : Nat) : Nat :=
  if exponent = 0xff then
    0x7c00 ||| if fraction = 0 then 0 else 0x200 ||| fraction >>> 13
  else
    let halfExponent : Int := exponent - 112
    if 0x1f ≤ halfExponent then 0x7c00
    else if halfExponent ≤ 0 then
      if halfExponent < -10 then 0
      else roundShift (fraction ||| 0x800000) (14 - halfExponent).toNat
    else
      let base := halfExponent.toNat <<< 10 ||| fraction >>> 13
      let rest := fraction &&& 0x1fff
      if 0x1000 < rest ∨ (rest = 0x1000 ∧ base &&& 1 = 1) then base + 1 else base

/-- Rounds a single to a half. -/
def narrow (x : Word) : Half :=
  .ofNat 16 (x.toNat >>> 16 &&& 0x8000 |||
    narrowFields (x.toNat >>> 23 &&& 0xff) (x.toNat &&& 0x7fffff))

/-- The smallest positive half, as a single. -/
def subnormalUnit : Word := 0x33800000

/-- Puts the fields of a half where those of a single are. -/
def widenFields (sign exponent fraction : Nat) : Word :=
  if exponent = 0 then
    if fraction = 0 then .ofNat 32 sign
    else
      let magnitude := Single.mul (Single.ofInt fraction) subnormalUnit
      if sign = 0 then magnitude else magnitude + 0x80000000#32
  else if exponent = 0x1f then .ofNat 32 (sign ||| 0x7f800000 ||| fraction <<< 13)
  else .ofNat 32 (sign ||| (exponent + 112) <<< 23 ||| fraction <<< 13)

/-- Widens a half. -/
def widen (h : Half) : Word :=
  widenFields (h.toNat >>> 15 <<< 31) (h.toNat >>> 10 &&& 0x1f) (h.toNat &&& 0x3ff)

/-! ## Narrowing -/

section Narrowing

variable {e m n : Nat}

theorem magnitude_single_normal (he : 0 < e) (hm : m < 2 ^ 23) :
    binary32.magnitude (e * 2 ^ 23 + m) = (2 ^ 23 + m : Nat) * 2 ^ (e - 150 : ℤ) := by
  obtain ⟨t, rfl⟩ := Nat.exists_eq_succ_of_ne_zero he.ne'
  refine (magnitude_normal (f := binary32) (t := t) hm).trans ?_
  rw [show binary32.minExponent = -149 by decide]
  congr 2
  push_cast
  ring

/-- The same number in larger steps. -/
theorem magnitude_single_steps {k : Nat} {q : ℤ} (he : 0 < e) (hm : m < 2 ^ 23)
    (hq : (e : ℤ) - 150 = q - k) :
    binary32.magnitude (e * 2 ^ 23 + m) = (2 ^ 23 + m : Nat) / 2 ^ k * 2 ^ q := by
  rw [magnitude_single_normal he hm, hq, zpow_sub₀ two_ne_zero, zpow_natCast]
  ring

theorem roundShift_fraction (m : Nat) :
    roundShift (2 ^ 23 + m) 13 = 2 ^ 10 + m / 2 ^ 13 +
      if 0x1000 < m % 2 ^ 13 ∨ (m % 2 ^ 13 = 0x1000 ∧ m / 2 ^ 13 % 2 = 1) then 1 else 0 := by
  unfold roundShift
  dsimp only
  rw [Nat.shiftRight_eq_div_pow, Nat.one_shiftLeft]
  split <;> split <;> omega

theorem magnitude_single_underflow : binary32.magnitude (102 * 2 ^ 23) = 1 / 2 ^ 25 := by
  refine (magnitude_single_normal (e := 102) (m := 0) (by decide) (by decide)).trans ?_
  norm_num

theorem magnitude_single_overflow : binary32.magnitude (143 * 2 ^ 23) = 65536 := by
  refine (magnitude_single_normal (e := 143) (m := 0) (by decide) (by decide)).trans ?_
  norm_num

/-! ### The four ranges of exponents -/

/-- Too small for half of the smallest step. -/
theorem narrowFields_underflow (he : e < 102) (hm : m < 2 ^ 23)
    (hn : IsNearest binary16.magnitude (binary32.magnitude (e * 2 ^ 23 + m)) n) :
    narrowFields e m = 0 ∧ n = 0 := by
  have hzero : n ≤ 0 := by
    refine hn.le_of_midpoint (strictMono_magnitude _) ?_ fun _ => by decide
    have hlt : binary32.magnitude (e * 2 ^ 23 + m) < binary32.magnitude (102 * 2 ^ 23) :=
      strictMono_magnitude _ (by omega)
    rw [magnitude_single_underflow] at hlt
    rw [magnitude_zero, magnitude_half_smallest]
    linarith
  refine ⟨?_, Nat.le_zero.mp hzero⟩
  unfold narrowFields
  dsimp only
  rw [if_neg (by omega), if_neg (by omega), if_pos (by omega), if_pos (by omega)]

/-- A fraction of the smallest step. -/
theorem narrowFields_subnormal (hlow : 102 ≤ e) (hhigh : e ≤ 112) (hm : m < 2 ^ 23)
    (hn : IsNearest binary16.magnitude (binary32.magnitude (e * 2 ^ 23 + m)) n) :
    narrowFields e m = n ∧ n ≤ 2 ^ 10 := by
  have hround := roundShift_nearest (2 ^ 23 + m) (126 - e)
  have hle : ((2 ^ 23 + m : Nat) : ℚ) / 2 ^ (126 - e) ≤ (2 ^ 10 : Nat) := by
    have hpow : 2 ^ 14 ≤ 2 ^ (126 - e) := Nat.pow_le_pow_right two_pos (by omega)
    rw [div_le_iff₀ (by positivity)]
    exact_mod_cast (show 2 ^ 23 + m ≤ 2 ^ 10 * 2 ^ (126 - e) by omega)
  have hpoint := nearest_of_step (f := binary16) (t := 0) (by decide) hround
    (hle.trans (by norm_num [binary16])) (.inl rfl)
  have hvalue : binary32.magnitude (e * 2 ^ 23 + m) =
      (2 ^ 23 + m : Nat) / 2 ^ (126 - e) * 2 ^ (binary16.minExponent + (0 : Nat)) :=
    magnitude_single_steps (by omega) hm (by rw [show binary16.minExponent = -24 by decide]; omega)
  rw [← hvalue] at hpoint
  have hfields : narrowFields e m = roundShift (2 ^ 23 + m) (126 - e) := by
    have hor : m ||| 0x800000 = 2 ^ 23 + m := by
      rw [Nat.or_comm]
      exact (Nat.two_pow_add_eq_or_of_lt hm 1).symm
    unfold narrowFields
    dsimp only
    rw [if_neg (by omega), if_neg (by omega), if_pos (by omega), if_neg (by omega), hor]
    congr 1
    omega
  obtain rfl := hn.unique (strictMono_magnitude _) hpoint
  rw [Nat.zero_mul, Nat.zero_add]
  exact ⟨hfields, hround.le_of_le strictMono_natCast hle⟩

/-- The base and its carry are those of the significand and the exponent together. -/
theorem narrowFields_base (hlow : 113 ≤ e) (hhigh : e ≤ 142) (hm : m < 2 ^ 23) :
    narrowFields e m = (e - 113) * 2 ^ 10 + roundShift (2 ^ 23 + m) 13 := by
  have hbase : (e - 112) <<< 10 ||| m >>> 13 = (e - 112) * 2 ^ 10 + m / 2 ^ 13 := by
    rw [← Nat.shiftLeft_add_eq_or_of_lt (by rw [Nat.shiftRight_eq_div_pow]; omega),
      Nat.shiftLeft_eq, Nat.shiftRight_eq_div_pow]
  unfold narrowFields
  dsimp only
  rw [if_neg (by omega), if_neg (by omega), if_neg (by omega),
    show ((e : ℤ) - 112).toNat = e - 112 by omega, hbase, Nat.and_one_is_mod,
    show (0x1fff : Nat) = 2 ^ 13 - 1 by decide, Nat.and_two_pow_sub_one_eq_mod,
    roundShift_fraction]
  split <;> split <;> omega

/-- A significand of full length. -/
theorem narrowFields_normal (hlow : 113 ≤ e) (hhigh : e ≤ 142) (hm : m < 2 ^ 23)
    (hn : IsNearest binary16.magnitude (binary32.magnitude (e * 2 ^ 23 + m)) n) :
    narrowFields e m = n ∧ n ≤ 31 * 2 ^ 10 := by
  have hround := roundShift_nearest (2 ^ 23 + m) 13
  have hge : ((2 ^ 10 : Nat) : ℚ) ≤ (2 ^ 23 + m : Nat) / 2 ^ 13 := by
    rw [le_div_iff₀ (by positivity)]
    exact_mod_cast (show 2 ^ 10 * 2 ^ 13 ≤ 2 ^ 23 + m by omega)
  have hle : ((2 ^ 23 + m : Nat) : ℚ) / 2 ^ 13 ≤ (2 ^ 11 : Nat) := by
    rw [div_le_iff₀ (by positivity)]
    exact_mod_cast (show 2 ^ 23 + m ≤ 2 ^ 11 * 2 ^ 13 by omega)
  have hpoint := nearest_of_step (f := binary16) (t := e - 113) (by decide) hround hle (.inr hge)
  have hvalue : binary32.magnitude (e * 2 ^ 23 + m) =
      (2 ^ 23 + m : Nat) / 2 ^ 13 * 2 ^ (binary16.minExponent + (e - 113 : Nat)) :=
    magnitude_single_steps (by omega) hm (by rw [show binary16.minExponent = -24 by decide]; omega)
  rw [← hvalue] at hpoint
  have hr := hround.le_of_le strictMono_natCast hle
  obtain rfl := hn.unique (strictMono_magnitude _) hpoint
  rw [show binary16.fractionBits = 10 by decide]
  exact ⟨narrowFields_base hlow hhigh hm, by omega⟩

/-- Not below the power of two at which halves end. -/
theorem narrowFields_overflow (hlow : 143 ≤ e) (hhigh : e < 0xff)
    (hn : IsNearest binary16.magnitude (binary32.magnitude (e * 2 ^ 23 + m)) n) :
    narrowFields e m = 31 * 2 ^ 10 ∧ 31 * 2 ^ 10 ≤ n := by
  constructor
  · unfold narrowFields
    dsimp only
    rw [if_neg hhigh.ne, if_pos (by omega)]
    rfl
  · refine hn.ge_of_ge (N := 31 * 2 ^ 10) (strictMono_magnitude _) ?_
    have hle : binary32.magnitude (143 * 2 ^ 23) ≤ binary32.magnitude (e * 2 ^ 23 + m) :=
      (strictMono_magnitude _).monotone (by omega)
    rw [magnitude_single_overflow] at hle
    exact magnitude_half_infinity.trans_le hle

/-- On the fields of a number, the nearest pattern or that of infinity. -/
theorem narrowFields_nearest (he : e < 0xff) (hm : m < 2 ^ 23)
    (hn : IsNearest binary16.magnitude (binary32.magnitude (e * 2 ^ 23 + m)) n) :
    narrowFields e m = min n binary16.infinityPattern := by
  rw [show binary16.infinityPattern = 31 * 2 ^ 10 by decide]
  rcases Nat.lt_or_ge e 102 with hunder | hunder
  · obtain ⟨hfields, rfl⟩ := narrowFields_underflow hunder hm hn
    exact hfields.trans (Nat.zero_min _).symm
  rcases Nat.lt_or_ge e 113 with hsub | hsub
  · obtain ⟨hfields, hle⟩ := narrowFields_subnormal hunder (by omega) hm hn
    omega
  rcases Nat.lt_or_ge e 143 with hover | hover
  · obtain ⟨hfields, hle⟩ := narrowFields_normal hsub (by omega) hm hn
    omega
  · obtain ⟨hfields, hge⟩ := narrowFields_overflow hover he hn
    omega

end Narrowing

/-! ### Fields and patterns -/

theorem sign_or {s : Bool} {w n : Nat} (h : n < 2 ^ w) :
    s.toNat * 2 ^ w ||| n = s.toNat * 2 ^ w + n := by
  rw [Nat.mul_comm, Nat.two_pow_add_eq_or_of_lt h]

theorem sign_and (x : Word) :
    x.toNat >>> 16 &&& 0x8000 = (binary32.negative x.toNat).toNat * 2 ^ 15 := by
  rw [show 0x8000 = 2 ^ 15 by decide, Nat.and_two_pow, Nat.testBit_shiftRight,
    Nat.testBit_eq_decide_div_mod_eq]
  rfl

theorem toNat_narrow {x : Word} {n : Nat}
    (hn : narrowFields (binary32.exponent x.toNat) (binary32.fraction x.toNat) = n)
    (hlt : n < 2 ^ 15) :
    (narrow x).toNat = (binary32.negative x.toNat).toNat * binary16.signWeight + n := by
  have hs := (binary32.negative x.toNat).toNat_le
  have hexponent : x.toNat >>> 23 &&& 0xff = binary32.exponent x.toNat := binary32.exponent_and _
  have hfraction : x.toNat &&& 0x7fffff = binary32.fraction x.toNat := binary32.fraction_and _
  rw [narrow, sign_and, hexponent, hfraction, hn, sign_or hlt, BitVec.toNat_ofNat,
    show binary16.signWeight = 2 ^ 15 by decide]
  exact Nat.mod_eq_of_lt (by omega)

/-- Rounding by fields is rounding the exact value. -/
theorem narrow_eq (x : Word) : narrow x = ofSingle x := by
  refine BitVec.eq_of_toNat_eq ?_
  have hm := binary32.fraction_lt x.toNat
  have hunsigned := binary32.unsigned_eq x.toNat
  rcases binary32.datum_cases x.toNat with ⟨hlt, hd⟩ | ⟨hinf, hd⟩ | ⟨hnan, hd⟩
  · obtain ⟨n, hn, hpattern⟩ := toNat_ofSingle_finite hd
    rw [hunsigned] at hn
    have he : binary32.exponent x.toNat < 0xff :=
      Nat.lt_of_le_of_ne (binary32.exponent_le x.toNat) (exponent_of_lt hlt)
    have hfields := narrowFields_nearest he hm hn
    rw [hpattern, toNat_narrow hfields ((Nat.min_le_right _ _).trans_lt (by decide))]
  · obtain ⟨he, hzero⟩ := fields_infinite hinf
    have hfields : narrowFields (binary32.exponent x.toNat) (binary32.fraction x.toNat) =
        binary16.infinityPattern := by
      rw [he, hzero]
      rfl
    rw [toNat_ofSingle_infinite hd, toNat_narrow hfields (by decide)]
  · obtain ⟨he, hne⟩ := fields_nan hnan
    have hfields : narrowFields (binary32.exponent x.toNat) (binary32.fraction x.toNat) =
        0x7e00 ||| (x.toNat % 0x800000) >>> 13 := by
      rw [he, narrowFields, if_pos (by decide), if_neg hne, ← Nat.or_assoc]
      rfl
    rw [toNat_ofSingle_nan hd, toNat_narrow hfields (nan_lt _)]

/-! ## Widening -/

section Widening

variable {h : Half} {s : Bool} {v : ℚ}

theorem sign_shift (h : Half) :
    h.toNat >>> 15 <<< 31 = (binary16.negative h.toNat).toNat * 2 ^ 31 := by
  rw [toNat_negative h.isLt, Nat.shiftLeft_eq, Nat.shiftRight_eq_div_pow]
  rfl

/-- The exponent moves by the difference of the biases, and the fraction to the left. -/
theorem magnitude_widen {e m : Nat} (he : 0 < e) (hm : m < 2 ^ 10) :
    binary32.magnitude ((e + 112) * 2 ^ 23 + m * 2 ^ 13) =
      binary16.magnitude (e * 2 ^ 10 + m) := by
  obtain ⟨t, rfl⟩ := Nat.exists_eq_succ_of_ne_zero he.ne'
  have hhalf := magnitude_normal (f := binary16) (t := t) hm
  rw [show binary16.minExponent = -24 by decide] at hhalf
  refine Eq.trans ?_ hhalf.symm
  rw [magnitude_single_normal (by omega) (by omega),
    show ((t + 1 + 112 : Nat) : ℤ) - 150 = -24 + t - 13 by push_cast; ring,
    zpow_sub₀ two_ne_zero (-24 + t : ℤ)]
  push_cast [binary16]
  ring

/-- A number that is a single is rounded to itself. -/
theorem round_exact {m k : Nat} {q : Int} (s : Bool) (hk : k < binary32.infinityPattern)
    (hmagnitude : binary32.magnitude k = m * 2 ^ q) :
    (Single.round (.finite s m q)).toNat = s.toNat * binary32.signWeight + k := by
  have hlt : binary32.encode (.finite s m q) < 2 ^ 32 := binary32.encode_lt nofun
  rw [Single.round, BitVec.toNat_ofNat, Nat.mod_eq_of_lt hlt,
    encode_exact (by decide) s hk hmagnitude]

theorem value_subnormalUnit : Single.value subnormalUnit = .finite false (2 ^ 23) (-47) := by decide

/-- A number of the smallest steps is their product. -/
theorem mul_subnormalUnit {m k : Nat} (hm : m < 2 ^ 10) (hk : k < binary32.infinityPattern)
    (hmagnitude : binary32.magnitude k = m * 2 ^ (-24 : ℤ)) :
    (Single.mul (Single.ofInt m) subnormalUnit).toNat = k := by
  -- the number of steps is a single
  obtain ⟨i, hi⟩ := binary32.exists_magnitude 149 (m := m)
    (hm.le.trans (Nat.pow_le_pow_right two_pos (by decide)))
  rw [show binary32.minExponent + (149 : Nat) = 0 by decide] at hi
  have hlt : i < binary32.infinityPattern := by
    refine lt_single_infinity (hi.trans_lt ?_)
    rw [zpow_zero, mul_one]
    exact_mod_cast hm.trans (by decide)
  have hdatum : binary32.datum (Single.ofInt m).toNat = .finite false m := by
    have hnonneg : decide ((m : Int) < 0) = false := decide_eq_false (by omega)
    rw [Single.ofInt, FloatValue.ofInt, hnonneg, Int.natAbs_natCast, round_exact false hlt hi,
      datum_pattern_finite false hlt, hi, zpow_zero, mul_one]
  obtain ⟨n, q, hd, hvalue⟩ := decode_of_finite hdatum
  have hproduct : binary32.magnitude k = (n * 2 ^ 23 : Nat) * 2 ^ (q + -47) := by
    rw [hmagnitude, ← hvalue, zpow_add₀ two_ne_zero]
    push_cast
    ring
  rw [Single.mul, value_subnormalUnit, Single.value, hd, FloatValue.mul, round_exact _ hk hproduct,
    Bool.xor_self, Bool.toNat_false, Nat.zero_mul, Nat.zero_add]

/-- Three fields of a single. -/
theorem toNat_fields {e m : Nat} (he : e < 2 ^ 8) (hm : m < 2 ^ 10) :
    (BitVec.ofNat 32 (s.toNat * 2 ^ 31 ||| e <<< 23 ||| m <<< 13)).toNat =
      s.toNat * binary32.signWeight + (e * 2 ^ 23 + m * 2 ^ 13) := by
  have hs := s.toNat_le
  rw [Nat.or_assoc, Nat.shiftLeft_eq m, ← Nat.shiftLeft_add_eq_or_of_lt (by omega),
    Nat.shiftLeft_eq, sign_or (by omega), BitVec.toNat_ofNat,
    show binary32.signWeight = 2 ^ 31 by decide]
  exact Nat.mod_eq_of_lt (by omega)

theorem toNat_widenFields_subnormal {m k : Nat} (hm : m < 2 ^ 10)
    (hk : k < binary32.infinityPattern) (hmagnitude : binary32.magnitude k = m * 2 ^ (-24 : ℤ)) :
    (widenFields (s.toNat * 2 ^ 31) 0 m).toNat = s.toNat * binary32.signWeight + k := by
  have hweight : binary32.signWeight = 2 ^ 31 := by decide
  have hsmall := hk.trans binary32.infinityPattern_lt
  rw [widenFields, if_pos rfl]
  by_cases hzero : m = 0
  · rw [hzero, Nat.cast_zero, zero_mul, ← binary32.magnitude_zero] at hmagnitude
    obtain rfl := (strictMono_magnitude binary32).injective hmagnitude
    rw [if_pos hzero, hweight]
    cases s with
    | true | false => rfl
  · rw [if_neg hzero]
    have hproduct := mul_subnormalUnit hm hk hmagnitude
    dsimp only
    cases s with
    | false => rw [if_pos (by decide), hproduct, Bool.toNat_false, Nat.zero_mul, Nat.zero_add]
    | true =>
        rw [hweight] at hsmall
        rw [if_neg (by decide), BitVec.toNat_add, hproduct, hweight, Bool.toNat_true,
          show (0x80000000#32).toNat = 2 ^ 31 by decide]
        omega

/-- So is widening, which never rounds. -/
theorem widen_eq (h : Half) : widen h = toSingle h := by
  refine BitVec.eq_of_toNat_eq ?_
  have hm : binary16.fraction h.toNat < 2 ^ 10 := binary16.fraction_lt h.toNat
  have hexponent : h.toNat >>> 10 &&& 0x1f = binary16.exponent h.toNat := binary16.exponent_and _
  have hfraction : h.toNat &&& 0x3ff = binary16.fraction h.toNat := binary16.fraction_and _
  rw [widen, sign_shift, hexponent, hfraction]
  rcases binary16.datum_cases h.toNat with ⟨hlt, hd⟩ | ⟨hinf, hd⟩ | ⟨hnan, hd⟩
  · have he : binary16.exponent h.toNat ≠ 0x1f := exponent_of_lt hlt
    have hle : binary16.exponent h.toNat ≤ 0x1f := binary16.exponent_le h.toNat
    have hunsigned := binary16.unsigned_eq h.toNat
    obtain ⟨k, hk, hmagnitude⟩ := exists_magnitude_single hlt
    rw [toNat_toSingle_finite hd hk hmagnitude]
    rw [hunsigned] at hmagnitude
    by_cases hzero : binary16.exponent h.toNat = 0
    · rw [hzero, Nat.zero_mul, Nat.zero_add,
        magnitude_subnormal (binary16.fraction_lt _)] at hmagnitude
      rw [hzero, toNat_widenFields_subnormal hm hk hmagnitude]
    · have hwide := hmagnitude.trans (magnitude_widen (Nat.pos_of_ne_zero hzero) hm).symm
      rw [(strictMono_magnitude binary32).injective hwide, widenFields, if_neg hzero, if_neg he,
        toNat_fields (by omega) hm]
  · obtain ⟨he, hzero⟩ := fields_infinite hinf
    have hfields := toNat_fields (s := binary16.negative h.toNat) (e := 0xff) (m := 0) (by decide)
      (by decide)
    rw [he, hzero, widenFields, if_neg (by decide), if_pos (by decide), toNat_toSingle_infinite hd]
    exact hfields
  · obtain ⟨he, -⟩ := fields_nan hnan
    have hfields := toNat_fields (s := binary16.negative h.toNat) (e := 0xff) (by decide) hm
    rw [he, widenFields, if_neg (by decide), if_pos (by decide), toNat_toSingle_nan hd,
      Nat.shiftLeft_eq (h.toNat % 0x400)]
    exact hfields

end Widening

/-! ## Correct rounding -/

/-- What narrowing makes of a single with a given datum. -/
def Rounds : FloatDatum → Half → Prop
  | .nan s, r => binary16.datum r.toNat = .nan s
  | .infinite s, r => binary16.datum r.toNat = .infinite s
  | .finite s v, r =>
      (65520 ≤ v → binary16.datum r.toNat = .infinite s) ∧
      (v ≤ 1 / 2 ^ 25 → binary16.datum r.toNat = .finite s 0) ∧
      (v < 65520 → ∃ u, Nearest s v r u)

theorem rounds_ofSingle (x : Word) : Rounds (binary32.datum x.toNat) (ofSingle x) := by
  cases hd : binary32.datum x.toNat with
  | nan s => exact datum_ofSingle_nan hd
  | infinite s =>
      show binary16.datum (ofSingle x).toNat = .infinite s
      rw [toNat_ofSingle_infinite hd, datum_pattern_infinite]
  | finite s v => exact ⟨datum_ofSingle_large hd, datum_ofSingle_small hd, ofSingle_nearest hd⟩

/-- Narrowing rounds every single correctly, and widening is exact and undone by narrowing,
through exact values as well as by fields. -/
theorem conversions_round (x : Word) (h : Half) :
    narrow x = ofSingle x ∧ Rounds (binary32.datum x.toNat) (ofSingle x) ∧
      widen h = toSingle h ∧
      ((∀ s, binary16.datum h.toNat ≠ .nan s) →
        binary32.datum (toSingle h).toNat = binary16.datum h.toNat ∧
          ofSingle (toSingle h) = h) :=
  ⟨narrow_eq x, rounds_ofSingle x, widen_eq h, fun hh => ⟨datum_toSingle hh, ofSingle_toSingle hh⟩⟩

/-- A tie goes up to an even significand, and the smallest half comes back. -/
theorem conversions_round_tie :
    narrow 0x3f803000 = 0x3c02 ∧ Rounds (binary32.datum 0x3f803000) 0x3c02 ∧
      widen 0x0001 = 0x33800000 ∧ ofSingle 0x33800000 = 0x0001 := by
  have hnarrow : narrow 0x3f803000 = 0x3c02 := by decide
  have hwiden : widen 0x0001 = 0x33800000 := by decide
  obtain ⟨heq, hrounds, hwide, hback⟩ := conversions_round 0x3f803000 0x0001
  rw [← heq, hnarrow] at hrounds
  rw [← hwide, hwiden] at hback
  refine ⟨hnarrow, hrounds, hwiden, (hback fun s hnan => ?_).2⟩
  rw [datum_finite (by decide)] at hnan
  cases hnan

end HalfFloat

end TypedCore
