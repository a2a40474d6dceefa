import Mathlib.Algebra.Order.Field.Rat
import Mathlib.Order.Monotone.Basic
import Mathlib.Tactic.Linarith
import Mathlib.Tactic.Positivity
import Mathlib.Tactic.Ring
import TypedCore.Float.Format

/-!
# Rounding to the nearest point of a grid

The finite values of a format are points of an increasing sequence, counted
from zero. A number is rounded to the index of the point nearest to it, and
halfway between two points to the even index (`IsNearest`). There is only one such
index (`IsNearest.unique`), it is that of the number itself if that is on the
grid, and which side of a midpoint the number is on says which side of that
midpoint the index is on (`IsNearest.le_of_midpoint`, `IsNearest.ge_of_midpoint`).

Shifting a number right is rounding on the grid of whole numbers
(`FloatFormat.roundShift_nearest`).
-/

namespace TypedCore

/-- A point of a grid nearest to a number; if another one is as near, the index is even. -/
structure IsNearest (g : Nat → ℚ) (v : ℚ) (n : Nat) : Prop where
  closest : ∀ k, |g n - v| ≤ |g k - v|
  even : ∀ k, k ≠ n → |g k - v| = |g n - v| → n % 2 = 0

namespace IsNearest

variable {g : Nat → ℚ} {v : ℚ} {n k N : Nat}

/-! ## Midpoints -/

section StrictMono

variable (hg : StrictMono g) (h : IsNearest g v n)

include hg h

theorem le_of_midpoint (hv : 2 * v ≤ g N + g (N + 1)) (hN : 2 * v = g N + g (N + 1) → N % 2 = 0) :
    n ≤ N := by
  by_contra hlt
  have hn : g (N + 1) ≤ g n := hg.monotone (by omega)
  have hstep : g N < g (N + 1) := hg (Nat.lt_succ_self N)
  have hclosest := h.closest N
  rw [abs_of_nonneg (by linarith : 0 ≤ g n - v)] at hclosest
  rcases le_total (g N) v with hbelow | habove
  · -- both points are as far as half the gap, so the number is the midpoint
    rw [abs_of_nonpos (by linarith : g N - v ≤ 0)] at hclosest
    have heven := h.even N (by omega) (by
      rw [abs_of_nonpos (by linarith : g N - v ≤ 0), abs_of_nonneg (by linarith : 0 ≤ g n - v)]
      linarith)
    have hNeven := hN (by linarith)
    have hindex : n = N + 1 := hg.injective (by linarith)
    omega
  · rw [abs_of_nonneg (by linarith : 0 ≤ g N - v)] at hclosest
    linarith

theorem ge_of_midpoint (hv : g N + g (N + 1) ≤ 2 * v)
    (hN : 2 * v = g N + g (N + 1) → N % 2 = 1) : N + 1 ≤ n := by
  by_contra hlt
  have hn : g n ≤ g N := hg.monotone (by omega)
  have hstep : g N < g (N + 1) := hg (Nat.lt_succ_self N)
  have hclosest := h.closest (N + 1)
  rw [abs_of_nonpos (by linarith : g n - v ≤ 0)] at hclosest
  rcases le_total v (g (N + 1)) with habove | hbelow
  · rw [abs_of_nonneg (by linarith : 0 ≤ g (N + 1) - v)] at hclosest
    have heven := h.even (N + 1) (by omega) (by
      rw [abs_of_nonneg (by linarith : 0 ≤ g (N + 1) - v),
        abs_of_nonpos (by linarith : g n - v ≤ 0)]
      linarith)
    have hNodd := hN (by linarith)
    have hindex : n = N := hg.injective (by linarith)
    omega
  · rw [abs_of_nonpos (by linarith : g (N + 1) - v ≤ 0)] at hclosest
    linarith

theorem le_of_le (hv : v ≤ g N) : n ≤ N := by
  have hstep : g N < g (N + 1) := hg (Nat.lt_succ_self N)
  exact h.le_of_midpoint hg (by linarith) fun htie => by linarith

theorem ge_of_ge (hv : g N ≤ v) : N ≤ n := by
  cases N with
  | zero => exact Nat.zero_le n
  | succ N =>
      have hstep : g N < g (N + 1) := hg (Nat.lt_succ_self N)
      exact h.ge_of_midpoint hg (by linarith) fun htie => by linarith

/-- A number on the grid is the point nearest to itself. -/
theorem of_eq (hk : g k = v) : n = k :=
  Nat.le_antisymm (h.le_of_le hg hk.ge) (h.ge_of_ge hg hk.le)

/-- Of two points as near as each other, the number lies halfway between, and they are next
to each other. -/
theorem adjacent (hne : k ≠ n) (htie : |g k - v| = |g n - v|) : k = n + 1 ∨ n = k + 1 := by
  have hbetween : ∀ a b c, a < b → b < c → |g a - v| = |g c - v| → |g b - v| < |g a - v| := by
    intro a b c hab hbc heq
    have hgab := hg hab
    have hgbc := hg hbc
    rcases le_total (g a) v with ha | ha
    · rw [abs_of_nonpos (by linarith : g a - v ≤ 0)] at heq ⊢
      rcases le_total (g c) v with hc | hc
      · rw [abs_of_nonpos (by linarith : g c - v ≤ 0)] at heq
        linarith
      · rw [abs_of_nonneg (by linarith : 0 ≤ g c - v)] at heq
        exact abs_lt.mpr ⟨by linarith, by linarith⟩
    · rw [abs_of_nonneg (by linarith : 0 ≤ g a - v),
        abs_of_nonneg (by linarith : 0 ≤ g c - v)] at heq
      linarith
  by_contra hfar
  rcases Nat.lt_or_gt_of_ne hne with hlt | hgt
  · have hcloser := hbetween k (k + 1) n (by omega) (by omega) htie
    linarith [h.closest (k + 1)]
  · have hcloser := hbetween n (n + 1) k (by omega) (by omega) htie.symm
    linarith [h.closest (n + 1)]

/-- The other index of a tie is odd. -/
theorem odd_of_tie (hne : k ≠ n) (htie : |g k - v| = |g n - v|) : k % 2 = 1 := by
  have heven := h.even k hne htie
  have hadjacent := h.adjacent hg hne htie
  omega

theorem unique (h' : IsNearest g v k) : n = k := by
  by_contra hne
  have htie : |g k - v| = |g n - v| := le_antisymm (h'.closest n) (h.closest k)
  have hodd := h.odd_of_tie hg (Ne.symm hne) htie
  have heven := h'.even n hne htie.symm
  omega

end StrictMono

/-- A point that is the number itself. -/
theorem of_point (hg : StrictMono g) (n : Nat) : IsNearest g (g n) n where
  closest k := by rw [sub_self, abs_zero]; exact abs_nonneg _
  even k hk htie := by
    rw [sub_self, abs_zero, abs_eq_zero, sub_eq_zero] at htie
    exact absurd (hg.injective htie) hk

end IsNearest

/-! ## Whole numbers -/

theorem strictMono_natCast : StrictMono (fun n : Nat => (n : ℚ)) := fun _ _ h => Nat.cast_lt.mpr h

/-- A whole number within one half of a number, even if it is one half away. -/
theorem isNearest_natCast {w : ℚ} {r : Nat} (h : |(r : ℚ) - w| ≤ 1 / 2)
    (heven : |(r : ℚ) - w| = 1 / 2 → r % 2 = 0) : IsNearest (fun n : Nat => (n : ℚ)) w r := by
  -- any other whole number is at least one away from `r`
  have hfar : ∀ k : Nat, k ≠ r → 1 ≤ |(k : ℚ) - r| := by
    intro k hk
    have hne : ((k : ℤ) - r) ≠ 0 := by omega
    exact_mod_cast Int.one_le_abs hne
  have hapart : ∀ k : Nat, k ≠ r → 1 / 2 ≤ |(k : ℚ) - w| := by
    intro k hk
    have hsum := abs_sub_le (k : ℚ) w r
    rw [abs_sub_comm w] at hsum
    linarith [hfar k hk]
  refine ⟨fun k => ?_, fun k hk htie => heven ?_⟩
  · by_cases hk : k = r
    · rw [hk]
    · exact h.trans (hapart k hk)
  · exact le_antisymm h ((hapart k hk).trans htie.le)

/-- A shift to the right rounds to the nearest whole number. -/
theorem FloatFormat.roundShift_nearest (m k : Nat) :
    IsNearest (fun n : Nat => (n : ℚ)) (m / 2 ^ k) (roundShift m k) := by
  have hpos : (0 : ℚ) < 2 ^ k := by positivity
  have hrest : m % 2 ^ k < 2 ^ k := Nat.mod_lt m (Nat.two_pow_pos k)
  have hvalue : (m : ℚ) / 2 ^ k = (m / 2 ^ k : Nat) + (m % 2 ^ k : Nat) / 2 ^ k := by
    have hm : (m : ℚ) = 2 ^ k * (m / 2 ^ k : Nat) + (m % 2 ^ k : Nat) := by
      exact_mod_cast (Nat.div_add_mod m (2 ^ k)).symm
    rw [hm, add_div, mul_div_cancel_left₀ _ hpos.ne']
  unfold roundShift
  simp only [Nat.shiftRight_eq_div_pow, Nat.one_shiftLeft]
  rw [hvalue]
  generalize m / 2 ^ k = kept
  generalize m % 2 ^ k = rest at hrest
  have hlt : (rest : ℚ) / 2 ^ k < 1 := by
    rw [div_lt_one hpos]
    exact_mod_cast hrest
  have hnonneg : (0 : ℚ) ≤ rest / 2 ^ k := by positivity
  -- the comparisons of the bits that fall away, as comparisons of the fraction
  have hle : (rest : ℚ) / 2 ^ k ≤ 1 / 2 ↔ 2 * rest ≤ 2 ^ k := by
    rw [div_le_iff₀ hpos, one_div, ← div_eq_inv_mul, le_div_iff₀ two_pos, mul_comm]
    exact_mod_cast Iff.rfl
  have hge : 1 / 2 ≤ (rest : ℚ) / 2 ^ k ↔ 2 ^ k ≤ 2 * rest := by
    rw [le_div_iff₀ hpos, one_div, ← div_eq_inv_mul, div_le_iff₀ two_pos, mul_comm (rest : ℚ)]
    exact_mod_cast Iff.rfl
  split
  case isTrue hup =>
    have hhalf := hge.mpr (by omega)
    have habs : |((kept + 1 : Nat) : ℚ) - (kept + rest / 2 ^ k)| = 1 - rest / 2 ^ k := by
      push_cast
      rw [abs_of_nonneg (by linarith)]
      ring
    refine isNearest_natCast (by rw [habs]; linarith) fun htie => ?_
    rw [habs] at htie
    have hle' := hle.mp (by linarith)
    omega
  case isFalse hdown =>
    have hhalf := hle.mpr (by omega)
    have habs : |(kept : ℚ) - (kept + rest / 2 ^ k)| = rest / 2 ^ k := by
      rw [sub_add_cancel_left, abs_neg, abs_of_nonneg hnonneg]
    refine isNearest_natCast (by rw [habs]; exact hhalf) fun htie => ?_
    rw [habs] at htie
    have hge' := hge.mp htie.ge
    omega

end TypedCore
