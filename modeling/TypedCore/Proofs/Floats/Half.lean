import Mathlib.Tactic.NormNum
import TypedCore.Float.Half
import TypedCore.Proofs.Floats.Datum

/-!
# Halves and singles

Every magnitude of a half is one of a single (`exists_magnitude`), so widening
is exact and narrowing undoes it. Narrowing a single gives the half nearest
to it: which one it is follows from the grid of halves, where the largest
finite magnitude is 65504, the next point 65536 has the pattern of infinity,
and the smallest positive magnitude is `2 ^ -24`.
-/

namespace TypedCore

open FloatFormat

/-! ## Singles hold halves -/

namespace FloatFormat

variable {f : FloatFormat}

/-- A whole number of steps above the smallest that is no longer than a significand is a
magnitude. -/
theorem exists_magnitude (f : FloatFormat) (d : Nat) {m : Nat}
    (hm : m ≤ 2 ^ (f.fractionBits + 1)) :
    ∃ k, f.magnitude k = m * 2 ^ (f.minExponent + d) := by
  induction d generalizing m with
  | zero => exact ⟨m, by simpa using magnitude_at (t := 0) hm (.inl rfl)⟩
  | succ d ih =>
      rcases Nat.le_or_ge (2 ^ f.fractionBits) m with hfull | hshort
      · exact ⟨_, magnitude_at hm (.inr hfull)⟩
      · -- a short significand has room for one more bit
        obtain ⟨k, hk⟩ := ih (m := 2 * m) (by rw [Nat.pow_succ]; omega)
        refine ⟨k, hk.trans ?_⟩
        push_cast
        rw [← add_assoc, zpow_add_one₀ two_ne_zero]
        ring

end FloatFormat

theorem magnitude_half {t r : Nat} (hr : r ≤ 2 ^ 11) (ht : t = 0 ∨ 2 ^ 10 ≤ r) :
    binary16.magnitude (t * 2 ^ 10 + r) = r * 2 ^ ((-24 : ℤ) + t) :=
  magnitude_at hr ht

theorem magnitude_half_largest : binary16.magnitude 0x7bff = 65504 := by
  refine (magnitude_half (t := 29) (r := 2047) (by decide) (.inr (by decide))).trans ?_
  norm_num

theorem magnitude_half_infinity : binary16.magnitude 0x7c00 = 65536 := by
  refine (magnitude_half (t := 29) (r := 2048) (by decide) (.inr (by decide))).trans ?_
  norm_num

theorem magnitude_half_smallest : binary16.magnitude 1 = 1 / 2 ^ 24 := by
  refine (magnitude_half (t := 0) (r := 1) (by decide) (.inl rfl)).trans ?_
  norm_num

/-- Singles go on where halves end. -/
theorem magnitude_single_infinity : 65536 ≤ binary32.magnitude binary32.infinityPattern := by
  have h := magnitude_at (f := binary32) (t := 253) (r := 2 ^ 24) (by decide) (.inr (by decide))
  rw [show binary32.minExponent = -149 by decide] at h
  rw [show binary32.infinityPattern = 253 * 2 ^ binary32.fractionBits + 2 ^ 24 by decide, h]
  norm_num

theorem lt_single_infinity {k : Nat} (hk : binary32.magnitude k < 65536) :
    k < binary32.infinityPattern :=
  (strictMono_magnitude binary32).lt_iff_lt.mp (hk.trans_le magnitude_single_infinity)

theorem exists_magnitude_single {n : Nat} (hn : n < binary16.infinityPattern) :
    ∃ k, k < binary32.infinityPattern ∧ binary32.magnitude k = binary16.magnitude n := by
  obtain ⟨t, r, hpattern, hr, ht⟩ := binary16.exists_at n
  obtain ⟨k, hk⟩ := binary32.exists_magnitude (125 + t) (m := r)
    (hr.le.trans (Nat.pow_le_pow_right two_pos (by decide)))
  have hvalue : binary32.magnitude k = binary16.magnitude n := by
    rw [hk, hpattern, magnitude_at hr.le ht, show binary32.minExponent = -149 by decide,
      show binary16.minExponent = -24 by decide]
    push_cast
    rw [← add_assoc]
    rfl
  have hlt : binary16.magnitude n < 65536 := by
    rw [← magnitude_half_infinity]
    exact strictMono_magnitude binary16 hn
  exact ⟨k, lt_single_infinity (hvalue ▸ hlt), hvalue⟩

/-! ## Signs -/

theorem abs_withSign_sub (s : Bool) (a b : ℚ) : |withSign s a - withSign s b| = |a - b| := by
  cases s with
  | false => rfl
  | true => rw [withSign, withSign, if_pos rfl, if_pos rfl, neg_sub_neg, abs_sub_comm]

theorem abs_withSign_sub_of_ne {s t : Bool} (h : t ≠ s) {a b : ℚ} (ha : 0 ≤ a) (hb : 0 ≤ b) :
    |withSign t a - withSign s b| = a + b := by
  cases s with
  | false =>
      obtain rfl : t = true := by simpa using h
      show |-a - b| = a + b
      rw [abs_of_nonpos (by linarith)]
      ring
  | true =>
      obtain rfl : t = false := by simpa using h
      show |a - -b| = a + b
      rw [sub_neg_eq_add, abs_of_nonneg (by linarith)]

/-! ## Conversions as patterns -/

theorem FloatFormat.encode_lt (f : FloatFormat) {v : FloatValue} (h : v ≠ .nan) :
    f.encode v < 2 * f.signWeight := by
  have hinf := f.infinityPattern_lt
  have hsign : ∀ s : Bool, s.toNat * f.signWeight ≤ f.signWeight := fun s =>
    (Nat.mul_le_mul_right _ s.toNat_le).trans_eq (Nat.one_mul _)
  cases v with
  | nan => exact absurd rfl h
  | infinity s =>
      have hs := hsign s
      show s.toNat * f.signWeight + f.infinityPattern < _
      omega
  | finite s m q =>
      have hs := hsign s
      have hmagnitude : f.encodeMagnitude m q ≤ f.infinityPattern := by
        unfold encodeMagnitude
        split
        · exact Nat.zero_le _
        · exact Nat.min_le_right _ _
      show s.toNat * f.signWeight + f.encodeMagnitude m q < _
      omega

namespace HalfFloat

variable {x : Word} {h : Half} {s : Bool} {v : ℚ} {n : Nat}

theorem toNat_ofSingle (hx : binary32.decode x.toNat ≠ .nan) :
    (ofSingle x).toNat = binary16.encode (binary32.decode x.toNat) := by
  have hlt : binary16.encode (binary32.decode x.toNat) < 2 ^ 16 := binary16.encode_lt hx
  unfold ofSingle
  split
  case h_1 hnan => exact absurd hnan hx
  case h_2 => rw [BitVec.toNat_ofNat, Nat.mod_eq_of_lt hlt]

theorem toNat_toSingle (hh : binary16.decode h.toNat ≠ .nan) :
    (toSingle h).toNat = binary32.encode (binary16.decode h.toNat) := by
  have hlt : binary32.encode (binary16.decode h.toNat) < 2 ^ 32 := binary32.encode_lt hh
  unfold toSingle value
  split
  case h_1 hnan => exact absurd hnan hh
  case h_2 => rw [BitVec.toNat_ofNat, Nat.mod_eq_of_lt hlt]

/-- A half is its sign and its bits below that. -/
theorem half_eq (h : Half) :
    h.toNat = (binary16.negative h.toNat).toNat * binary16.signWeight +
      binary16.unsigned h.toNat :=
  pattern_eq h.isLt

/-! ## Narrowing -/

/-- The payload of a NaN and its mark fit below the sign. -/
theorem nan_lt (bits : Nat) : 0x7e00 ||| (bits % 0x800000) >>> 13 < 2 ^ 15 := by
  refine Nat.or_lt_two_pow (by decide) ?_
  rw [Nat.shiftRight_eq_div_pow]
  omega

/-- A number is narrowed to the pattern of the nearest magnitude, or of infinity. -/
theorem toNat_ofSingle_finite (hx : binary32.datum x.toNat = .finite s v) :
    ∃ n, IsNearest binary16.magnitude v n ∧
      (ofSingle x).toNat =
        s.toNat * binary16.signWeight + min n binary16.infinityPattern := by
  obtain ⟨m, q, hd, rfl⟩ := decode_of_finite hx
  obtain ⟨n, hn, hencode⟩ := encode_finite (f := binary16) (by decide) s m q
  exact ⟨n, hn, by rw [toNat_ofSingle (by rw [hd]; nofun), hd, hencode]⟩

theorem toNat_ofSingle_infinite (hx : binary32.datum x.toNat = .infinite s) :
    (ofSingle x).toNat = s.toNat * binary16.signWeight + binary16.infinityPattern := by
  have hd := decode_of_infinite hx
  rw [toNat_ofSingle (by rw [hd]; nofun), hd, encode]

theorem toNat_ofSingle_nan (hx : binary32.datum x.toNat = .nan s) :
    (ofSingle x).toNat =
      s.toNat * binary16.signWeight + (0x7e00 ||| (x.toNat % 0x800000) >>> 13) := by
  obtain ⟨hd, rfl⟩ := decode_of_nan hx
  have htop : x.toNat / 2 ^ 31 < 2 := Nat.div_lt_of_lt_mul x.isLt
  have hsign : (binary32.negative x.toNat).toNat = x.toNat / 2 ^ 31 := toNat_negative x.isLt
  have hlt := nan_lt x.toNat
  unfold ofSingle
  rw [hd, hsign]
  dsimp only
  rw [BitVec.toNat_ofNat, Nat.shiftLeft_eq, Nat.shiftRight_eq_div_pow _ 31,
    show binary16.signWeight = 2 ^ 15 by decide]
  exact Nat.mod_eq_of_lt (by omega)

/-- A NaN stays one: the highest bit of its fraction is set, whatever is cut off below. -/
theorem datum_ofSingle_nan (hx : binary32.datum x.toNat = .nan s) :
    binary16.datum (ofSingle x).toNat = .nan s := by
  rw [toNat_ofSingle_nan hx]
  exact datum_pattern_nan s (Nat.lt_of_lt_of_le (by decide) Nat.left_le_or) (nan_lt x.toNat)

theorem datum_ofSingle_large (hx : binary32.datum x.toNat = .finite s v) (hv : 65520 ≤ v) :
    binary16.datum (ofSingle x).toNat = .infinite s := by
  obtain ⟨n, hn, hpattern⟩ := toNat_ofSingle_finite hx
  have hge : binary16.infinityPattern ≤ n := by
    refine hn.ge_of_midpoint (N := 0x7bff) (strictMono_magnitude _) ?_ fun _ => by decide
    rw [magnitude_half_largest, magnitude_half_infinity]
    linarith
  rw [hpattern, Nat.min_eq_right hge, datum_pattern_infinite]

theorem datum_ofSingle_small (hx : binary32.datum x.toNat = .finite s v) (hv : v ≤ 1 / 2 ^ 25) :
    binary16.datum (ofSingle x).toNat = .finite s 0 := by
  obtain ⟨n, hn, hpattern⟩ := toNat_ofSingle_finite hx
  have hzero : n ≤ 0 := by
    refine hn.le_of_midpoint (strictMono_magnitude _) ?_ fun _ => by decide
    rw [magnitude_zero, magnitude_half_smallest]
    linarith
  obtain rfl := Nat.le_zero.mp hzero
  rw [hpattern, Nat.zero_min, datum_pattern_finite s (by decide), magnitude_zero]

/-! ### The nearest half -/

/-- The half `r`, of the value `u`, is the nearest one to a number, and a tie is settled by an
even significand. -/
structure Nearest (s : Bool) (v : ℚ) (r : Half) (u : ℚ) : Prop where
  datum : binary16.datum r.toNat = .finite s u
  closest : ∀ (h : Half) t w, binary16.datum h.toNat = .finite t w →
    |withSign s u - withSign s v| ≤ |withSign t w - withSign s v|
  even : ∀ (h : Half) w, binary16.datum h.toNat = .finite s w → h ≠ r → |w - v| = |u - v| →
    binary16.fraction r.toNat % 2 = 0 ∧ binary16.fraction h.toNat % 2 = 1

theorem ofSingle_nearest (hx : binary32.datum x.toNat = .finite s v) (hv : v < 65520) :
    ∃ u, Nearest s v (ofSingle x) u := by
  obtain ⟨n, hn, hpattern⟩ := toNat_ofSingle_finite hx
  have hv0 : 0 ≤ v := (eq_of_datum_finite hx).2.2 ▸ binary32.magnitude_nonneg _
  have hle : n ≤ 0x7bff := by
    refine hn.le_of_midpoint (strictMono_magnitude _) ?_ fun htie => ?_ <;>
      rw [magnitude_half_largest, magnitude_half_infinity] at *
    · linarith
    · linarith
  have hlt : n < binary16.infinityPattern := Nat.lt_of_le_of_lt hle (by decide)
  rw [Nat.min_eq_left hlt.le] at hpattern
  refine ⟨binary16.magnitude n, by rw [hpattern, datum_pattern_finite s hlt], ?_, ?_⟩
  · intro h t w hh
    obtain ⟨-, -, rfl⟩ := eq_of_datum_finite hh
    have hw0 := binary16.magnitude_nonneg (binary16.unsigned h.toNat)
    rw [abs_withSign_sub s]
    rcases eq_or_ne t s with rfl | hts
    · rw [abs_withSign_sub]
      exact hn.closest _
    · -- zero is at least as near as a number of the other sign
      have hzero := hn.closest 0
      rw [magnitude_zero, zero_sub, abs_neg, abs_of_nonneg hv0] at hzero
      rw [abs_withSign_sub_of_ne hts hw0 hv0]
      linarith
  · intro h w hh hne htie
    obtain ⟨-, rfl, rfl⟩ := eq_of_datum_finite hh
    have hindex : binary16.unsigned h.toNat ≠ n := by
      rintro rfl
      exact hne (BitVec.eq_of_toNat_eq ((half_eq h).trans hpattern.symm))
    have heven := hn.even _ hindex htie
    have hodd := hn.odd_of_tie (strictMono_magnitude _) hindex htie
    have hlast : ∀ bits : Nat, binary16.fraction bits % 2 = bits % 2 := fun bits =>
      Nat.mod_mod_of_dvd bits (by decide)
    have hhalf := half_eq h
    rw [show binary16.signWeight = 2 ^ 15 by decide] at hpattern hhalf
    rw [hlast, hlast]
    omega

/-! ## Widening -/

theorem toNat_toSingle_finite {k : Nat} (hh : binary16.datum h.toNat = .finite s v)
    (hk : k < binary32.infinityPattern) (hmagnitude : binary32.magnitude k = v) :
    (toSingle h).toNat = s.toNat * binary32.signWeight + k := by
  obtain ⟨m, q, hd, rfl⟩ := decode_of_finite hh
  rw [toNat_toSingle (by rw [hd]; nofun), hd, encode_exact (by decide) s hk hmagnitude]

theorem toNat_toSingle_infinite (hh : binary16.datum h.toNat = .infinite s) :
    (toSingle h).toNat = s.toNat * binary32.signWeight + binary32.infinityPattern := by
  have hd := decode_of_infinite hh
  rw [toNat_toSingle (by rw [hd]; nofun), hd, encode]

theorem toNat_toSingle_nan (hh : binary16.datum h.toNat = .nan s) :
    (toSingle h).toNat =
      s.toNat * binary32.signWeight + (0x7f800000 + (h.toNat % 0x400) <<< 13) := by
  obtain ⟨hd, rfl⟩ := decode_of_nan hh
  have htop : h.toNat / 2 ^ 15 < 2 := Nat.div_lt_of_lt_mul h.isLt
  have hsign : (binary16.negative h.toNat).toNat = h.toNat / 2 ^ 15 := toNat_negative h.isLt
  unfold toSingle value
  rw [hd, hsign]
  dsimp only
  rw [BitVec.toNat_ofNat, Nat.shiftLeft_eq, Nat.shiftLeft_eq, Nat.shiftRight_eq_div_pow,
    show binary32.signWeight = 2 ^ 31 by decide, Nat.add_assoc]
  exact Nat.mod_eq_of_lt (by omega)

theorem datum_toSingle_finite (hh : binary16.datum h.toNat = .finite s v) :
    binary32.datum (toSingle h).toNat = .finite s v := by
  obtain ⟨hlt, -, hv⟩ := eq_of_datum_finite hh
  obtain ⟨k, hk, hmagnitude⟩ := exists_magnitude_single hlt
  rw [hv] at hmagnitude
  rw [toNat_toSingle_finite hh hk hmagnitude, datum_pattern_finite s hk, hmagnitude]

/-- A half that is a number or an infinity is the same as a single. -/
theorem datum_toSingle (hh : ∀ s, binary16.datum h.toNat ≠ .nan s) :
    binary32.datum (toSingle h).toNat = binary16.datum h.toNat := by
  rcases binary16.datum_cases h.toNat with ⟨-, hd⟩ | ⟨-, hd⟩ | ⟨-, hd⟩
  · rw [hd, datum_toSingle_finite hd]
  · rw [hd, toNat_toSingle_infinite hd, datum_pattern_infinite]
  · exact absurd hd (hh _)

/-- Narrowing undoes widening: the half itself is the nearest one. -/
theorem ofSingle_toSingle (hh : ∀ s, binary16.datum h.toNat ≠ .nan s) :
    ofSingle (toSingle h) = h := by
  refine BitVec.eq_of_toNat_eq ?_
  have hsingle := datum_toSingle hh
  have hpattern := half_eq h
  rcases binary16.datum_cases h.toNat with ⟨hlt, hd⟩ | ⟨hinf, hd⟩ | ⟨-, hd⟩
  · obtain ⟨n, hn, hnarrow⟩ := toNat_ofSingle_finite (hsingle.trans hd)
    obtain rfl := hn.of_eq (strictMono_magnitude _) rfl
    rw [hnarrow, Nat.min_eq_left hlt.le]
    exact hpattern.symm
  · rw [toNat_ofSingle_infinite (hsingle.trans hd), ← hinf]
    exact hpattern.symm
  · exact absurd hd (hh _)

end HalfFloat

end TypedCore
