import Mathlib.Order.Compare
import Mathlib.Order.WithBot
import TypedCore.Proofs.Floats.Half
import TypedCore.Proofs.Lanes.Masks

/-!
# What conditions say

A comparison says something about two numbers (`Cond.Relates`), and which numbers
these are depends on the lanes. An integer lane is its bits, or these in two's
complement. A floating-point lane is what its pattern stands for in the format of
its width, and an infinity lies beyond every number (`FloatDatum.number?`). A NaN
is no number, and of it only inequality holds.

Lanes are compared by other means: dyadic numbers are aligned to the smaller of
their exponents, and halves are widened first. That these give the same answers is
`Lane.hit_iff`. It rests on the order of dyadic values being that of the numbers
(`FloatValue.compare?_compares`) and on widening not changing a number.
-/

namespace TypedCore

/-- What a condition says of two numbers. -/
def Cond.Relates {α : Type} [LE α] [LT α] (x y : α) : Cond → Prop
  | eq => x = y
  | ne => x ≠ y
  | lt => x < y
  | ge => x ≥ y
  | gt => x > y
  | le => x ≤ y

theorem Cond.holds_iff {c : Cond} {x y : Int} : c.holds x y = true ↔ c.Relates x y := by
  cases c with
  | eq | ne => simp [holds, Relates]
  | lt | ge | gt | le => exact decide_eq_true_iff

/-- The order of two numbers decides every condition between them. -/
theorem Cond.relates_iff {α : Type} [LinearOrder α] {x y : α} {o : Ordering}
    (h : o.Compares x y) (c : Cond) :
    c.Relates x y ↔ match c with
      | eq => o = .eq
      | ne => o ≠ .eq
      | lt => o = .lt
      | ge => o ≠ .lt
      | gt => o = .gt
      | le => o ≠ .gt := by
  cases c with
  | eq => exact h.eq_eq.symm
  | ne => exact not_congr h.eq_eq.symm
  | lt => exact h.eq_lt.symm
  | ge => exact h.ne_lt.symm
  | gt => exact h.eq_gt.symm
  | le => exact h.ne_gt.symm

/-! ## Numbers -/

/-- The number that a datum stands for, if it is one; infinities are at the ends. -/
def FloatDatum.number? : FloatDatum → Option (WithBot (WithTop ℚ))
  | nan _ => none
  | infinite negative => some (if negative then ⊥ else ⊤)
  | finite negative magnitude => some ((withSign negative magnitude : ℚ) : WithTop ℚ)

namespace FloatValue

/-- The number that a dyadic value is. -/
def number? : FloatValue → Option (WithBot (WithTop ℚ))
  | nan => none
  | infinity negative => some (if negative then ⊥ else ⊤)
  | finite negative m q => some ((withSign negative (m * 2 ^ q) : ℚ) : WithTop ℚ)

/-- Steps of a size are what they measure. -/
theorem units_mul {step q : Int} (h : step ≤ q) (negative : Bool) (m : Nat) :
    (units negative m q step : ℚ) * 2 ^ step = withSign negative (m * 2 ^ q) := by
  have hsteps : ((m <<< (q - step).toNat : Nat) : ℚ) * 2 ^ step = m * 2 ^ q := by
    have hpow : (2 : ℚ) ^ (q - step).toNat * 2 ^ step = 2 ^ q := by
      rw [← zpow_natCast, ← zpow_add₀ two_ne_zero, Int.toNat_of_nonneg (by omega),
        Int.sub_add_cancel]
    rw [Nat.shiftLeft_eq, Nat.cast_mul, Nat.cast_pow, Nat.cast_two, mul_assoc, hpow]
  unfold units withSign
  cases negative with
  | false => exact hsteps
  | true =>
      rw [if_pos rfl, if_pos rfl, Int.cast_neg, neg_mul]
      exact congrArg _ hsteps

theorem compares_units (u v step : Int) :
    (compare u v).Compares (((u * 2 ^ step : ℚ) : WithTop ℚ) : WithBot (WithTop ℚ))
      ((v * 2 ^ step : ℚ) : WithTop ℚ) := by
  have hmono : StrictMono fun u : Int =>
      (((u * 2 ^ step : ℚ) : WithTop ℚ) : WithBot (WithTop ℚ)) := by
    intro a b hab
    have hpos : (0 : ℚ) < 2 ^ step := zpow_pos two_pos step
    exact WithBot.coe_lt_coe.mpr
      (WithTop.coe_lt_coe.mpr (mul_lt_mul_of_pos_right (Int.cast_lt.mpr hab) hpos))
  exact hmono.compares.mpr (compare_iff u v |>.mp rfl)

/-- Two values are in the order of their numbers, if both are numbers. -/
theorem compare?_compares {v w : FloatValue} {x y : WithBot (WithTop ℚ)}
    (hv : v.number? = some x) (hw : w.number? = some y) :
    ∃ o, v.compare? w = some o ∧ o.Compares x y := by
  cases v with
  | nan => cases hv
  | infinity s =>
      obtain rfl := Option.some.inj hv
      cases w with
      | nan => cases hw
      | infinity t =>
          obtain rfl := Option.some.inj hw
          refine ⟨_, rfl, ?_⟩
          cases s <;> cases t
          · exact rfl
          · exact WithBot.bot_lt_coe _
          · exact WithBot.bot_lt_coe _
          · exact rfl
      | finite t n r =>
          obtain rfl := Option.some.inj hw
          refine ⟨_, rfl, ?_⟩
          cases s with
          | false => exact WithBot.coe_lt_coe.mpr (WithTop.coe_lt_top _)
          | true => exact WithBot.bot_lt_coe _
  | finite s m q =>
      obtain rfl := Option.some.inj hv
      cases w with
      | nan => cases hw
      | infinity t =>
          obtain rfl := Option.some.inj hw
          refine ⟨_, rfl, ?_⟩
          cases t with
          | false => exact WithBot.coe_lt_coe.mpr (WithTop.coe_lt_top _)
          | true => exact WithBot.bot_lt_coe _
      | finite t n r =>
          obtain rfl := Option.some.inj hw
          refine ⟨_, rfl, ?_⟩
          rw [← units_mul (min_le_left q r), ← units_mul (min_le_right q r)]
          exact compares_units _ _ _

theorem compare?_nan {v w : FloatValue} (h : v.number? = none ∨ w.number? = none) :
    v.compare? w = none := by
  cases v with
  | nan => rfl
  | infinity s | finite s m q =>
      cases w with
      | nan => rfl
      | infinity t | finite t n r => simp [number?] at h

end FloatValue

theorem FloatFormat.number?_datum (f : FloatFormat) (bits : Nat) :
    (f.datum bits).number? = (f.decode bits).number? := by
  rw [datum_decode]
  cases f.decode bits with
  | nan | infinity s | finite s m q => rfl

/-- A half and the single it is widened to stand for the same number. -/
theorem HalfFloat.number?_toSingle (h : Half) :
    (Single.value (toSingle h)).number? = (FloatFormat.binary16.datum h.toNat).number? := by
  have hsingle := FloatFormat.binary32.number?_datum (toSingle h).toNat
  rcases FloatFormat.binary16.datum_cases h.toNat with ⟨-, hd⟩ | ⟨-, hd⟩ | ⟨hnan, hd⟩
  · rw [datum_toSingle (by rw [hd]; nofun)] at hsingle
    exact hsingle.symm
  · rw [datum_toSingle (by rw [hd]; nofun)] at hsingle
    exact hsingle.symm
  · rw [toSingle_nan hnan, hd]
    rfl

/-! ## Lanes -/

/-- What a floating-point lane stands for. -/
def Layout.datum (l : Layout) (v : Word) (i : Nat) : FloatDatum :=
  if l.width = .word then FloatFormat.binary32.datum (l.lane v i)
  else FloatFormat.binary16.datum (l.lane v i)

theorem Layout.number?_single (l : Layout) (v : Word) (i : Nat) :
    (Single.value (l.single v i)).number? = (l.datum v i).number? := by
  have hlane := l.lane_lt v i
  unfold single datum
  split
  · have hlt : l.lane v i < 2 ^ 32 := Nat.lt_of_lt_of_le hlane l.range_le
    rw [FloatFormat.number?_datum]
    unfold Single.value
    rw [BitVec.toNat_ofNat, Nat.mod_eq_of_lt hlt]
  · rename_i hwidth
    have hlt : l.lane v i < 2 ^ 16 := by
      refine Nat.lt_of_lt_of_le hlane ?_
      rw [range_eq, bits]
      cases hw : l.width with
      | word => exact absurd hw hwidth
      | half | byte => decide
    rw [HalfFloat.number?_toSingle, BitVec.toNat_ofNat, Nat.mod_eq_of_lt hlt]

/-- A condition between singles is one between their numbers, and nothing is equal to a NaN. -/
theorem Single.holds_iff {c : Cond} {x y : Word} :
    holds c x y = true ↔
      match (value x).number?, (value y).number? with
      | some v, some w => c.Relates v w
      | _, _ => c = .ne := by
  unfold holds
  cases hv : (value x).number? with
  | none =>
      rw [FloatValue.compare?_nan (.inl hv)]
      cases c <;> simp
  | some v =>
      cases hw : (value y).number? with
      | none =>
          rw [FloatValue.compare?_nan (.inr hw)]
          cases c <;> simp
      | some w =>
          obtain ⟨o, ho, hcompares⟩ := FloatValue.compare?_compares hv hw
          rw [ho]
          dsimp only
          rw [Cond.relates_iff hcompares]
          cases c <;> simp

namespace Lane

/-- What a condition says of two lanes, by the numbers that they are. -/
def Relates (l : Layout) (cond : Cond) (signed : Bool) (left right : Word) (i : Nat) : Prop :=
  if l.overflow = .float then
    match (l.datum left i).number?, (l.datum right i).number? with
    | some x, some y => cond.Relates x y
    | _, _ => cond = .ne
  else if signed then cond.Relates (l.laneSigned left i) (l.laneSigned right i)
  else cond.Relates (l.lane left i) (l.lane right i)

/-- A comparison gives the answer that the numbers in its lanes ask for. -/
theorem hit_iff {l : Layout} {cond : Cond} {signed : Bool} {left right : Word} {i : Nat} :
    hit l cond signed left right i = true ↔ Relates l cond signed left right i := by
  unfold hit Relates
  split
  · rw [← l.number?_single, ← l.number?_single]
    exact Single.holds_iff
  · cases signed with
    | true => exact Cond.holds_iff
    | false =>
        rw [if_neg Bool.false_ne_true, if_neg Bool.false_ne_true, Cond.holds_iff]
        cases cond with
        | eq | ne => simp [Cond.Relates]
        | lt | ge | gt | le => simp [Cond.Relates]

end Lane

end TypedCore
