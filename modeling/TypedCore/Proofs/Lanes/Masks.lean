import TypedCore.Lane.Compare
import TypedCore.Proofs.Lanes.Layout

/-!
# Branches and masks

A branch and a lane mask read the same answers: one for each lane
(`Lane.hit`, `Lane.compare_eq`). The mask has the lanes of these answers
(`Lane.mask_ok`), so a branch on any lane asks whether it has a bit set and a
branch on all lanes whether it has a bit clear.

A condition and its complement have opposite answers in every lane of
integers, so their masks are complements of each other. Of the orderings of
floating-point lanes this is not true: a NaN makes all of them fail
(`Lane.hit_nan`). Equality and its complement are opposite even then.
-/

namespace TypedCore

/-! ## Complementary conditions -/

namespace Cond

/-- The condition that holds of the integers of which another one does not. -/
def complement : Cond → Cond
  | eq => ne
  | ne => eq
  | lt => ge
  | ge => lt
  | gt => le
  | le => gt

theorem holds_complement (c : Cond) (x y : Int) : c.complement.holds x y = !c.holds x y := by
  cases c with
  | eq | ne => simp [complement, holds, bne]
  | lt | ge => simp [complement, holds, ← decide_not]
  | gt | le => simp [complement, holds, ← decide_not]

end Cond

/-! ## NaN lanes -/

namespace Layout

variable (l : Layout)

/-- A floating-point lane as a single. -/
def single (v : Word) (i : Nat) : Word :=
  if l.width = .word then BitVec.ofNat 32 (l.lane v i)
  else HalfFloat.toSingle (BitVec.ofNat 16 (l.lane v i))

theorem singles_eq (v : Word) : l.singles v = (List.range l.count).map (l.single v) := by
  rw [singles, lanes, List.map_map]
  rfl

/-- Whether a lane has the pattern of a NaN: below the sign, all bits of the
exponent and some bit of the fraction are set. -/
def IsNaN (v : Word) (i : Nat) : Prop :=
  match l.width with
  | .word => 0x7f800000 < l.lane v i % 0x80000000
  | .half | .byte => 0x7c00 < l.lane v i % 0x8000

end Layout

/-- A pattern above that of infinity, its sign apart, stands for no number. -/
theorem FloatFormat.decode_nan (f : FloatFormat) {bits : Nat}
    (h : f.infinityPattern < bits % f.signWeight) : f.decode bits = .nan := by
  have hfraction := Nat.mod_lt bits (Nat.two_pow_pos f.fractionBits)
  have hexponent := Nat.mod_lt (bits / 2 ^ f.fractionBits) (Nat.two_pow_pos f.exponentBits)
  unfold infinityPattern signWeight at h
  unfold decode
  simp only [Nat.shiftRight_eq_div_pow, Nat.shiftLeft_eq, Nat.one_mul] at h ⊢
  rw [Nat.add_comm, Nat.pow_add, Nat.mod_mul, Nat.mul_comm] at h
  generalize bits % 2 ^ f.fractionBits = fraction at *
  generalize bits / 2 ^ f.fractionBits % 2 ^ f.exponentBits = exponent at *
  generalize 2 ^ f.exponentBits = exponents at *
  have hlast : exponent = exponents - 1 := by
    by_contra hne
    have hle := Nat.mul_le_mul_left (2 ^ f.fractionBits) (by omega : exponent + 1 ≤ exponents - 1)
    rw [Nat.mul_succ] at hle
    omega
  rw [if_pos hlast, if_neg (by rintro rfl; rw [hlast] at h; omega)]

theorem Single.value_nan {x : Word} (h : 0x7f800000 < x.toNat % 0x80000000) :
    Single.value x = .nan :=
  FloatFormat.binary32.decode_nan h

theorem HalfFloat.value_nan {x : Half} (h : 0x7c00 < x.toNat % 0x8000) :
    HalfFloat.value x = .nan :=
  FloatFormat.binary16.decode_nan h

/-- A half that is not a number is widened to a single that is none. -/
theorem HalfFloat.toSingle_nan {x : Half} (h : 0x7c00 < x.toNat % 0x8000) :
    Single.value (HalfFloat.toSingle x) = .nan := by
  have hx := x.isLt
  rw [HalfFloat.toSingle, HalfFloat.value_nan h]
  refine Single.value_nan ?_
  simp only [BitVec.toNat_ofNat, Nat.shiftLeft_eq, Nat.shiftRight_eq_div_pow]
  omega

theorem Layout.IsNaN.single {l : Layout} {v : Word} {i : Nat} (h : l.IsNaN v i) :
    Single.value (l.single v i) = .nan := by
  have hlt := l.lane_lt v i
  unfold Layout.single
  unfold Layout.IsNaN at h
  split at h
  case h_1 hw =>
    rw [if_pos hw]
    refine Single.value_nan ?_
    rwa [BitVec.toNat_ofNat, Nat.mod_eq_of_lt (Nat.lt_of_lt_of_le hlt l.range_le)]
  all_goals
    rename_i hw
    have hrange : l.range ≤ 2 ^ 16 := by
      rw [Layout.range_eq, Layout.bits, hw]
      decide
    rw [if_neg (by rw [hw]; decide)]
    refine HalfFloat.toSingle_nan ?_
    rwa [BitVec.toNat_ofNat, Nat.mod_eq_of_lt (Nat.lt_of_lt_of_le hlt hrange)]

theorem Single.holds_nan {c : Cond} {x y : Word} (heq : c ≠ .eq) (hne : c ≠ .ne)
    (h : Single.value x = .nan ∨ Single.value y = .nan) : Single.holds c x y = false := by
  have hnone : (Single.value x).compare? (Single.value y) = none := by
    obtain h | h := h
    · rw [h, FloatValue.compare?]
    · rw [h]
      cases Single.value x with
      | nan | infinity | finite => rfl
  unfold Single.holds
  rw [hnone]
  cases c with
  | ne => exact absurd rfl hne
  | eq | lt | ge | gt | le => rfl

theorem Single.holds_ne (x y : Word) : Single.holds .ne x y = !Single.holds .eq x y := by
  unfold Single.holds
  cases (Single.value x).compare? (Single.value y) with
  | none => rfl
  | some o => rfl

/-! ## The answers -/

namespace Lane

/-- The answer of a comparison in one lane. -/
def hit (l : Layout) (cond : Cond) (signed : Bool) (left right : Word) (i : Nat) : Bool :=
  if l.overflow = .float then Single.holds cond (l.single left i) (l.single right i)
  else if signed then cond.holds (l.laneSigned left i) (l.laneSigned right i)
  else cond.holds (l.lane left i) (l.lane right i)

section Answers

variable (l : Layout) (cond : Cond) (signed : Bool) (left right : Word)

theorem compare_eq :
    compare l cond signed left right =
      (List.range l.count).map (hit l cond signed left right) := by
  unfold compare hit
  split
  · rw [Layout.singles_eq, Layout.singles_eq, List.zipWith_map, List.zipWith_self]
  · rfl

/-- Integers, and equality of whatever lanes, have complementary conditions. -/
theorem hit_complement (h : l.overflow ≠ .float ∨ cond = .eq ∨ cond = .ne) (i : Nat) :
    hit l cond.complement signed left right i = !hit l cond signed left right i := by
  unfold hit
  split
  case isTrue hf =>
    obtain h | rfl | rfl := h
    · exact absurd hf h
    · exact Single.holds_ne _ _
    · rw [Single.holds_ne, Bool.not_not]
      rfl
  case isFalse =>
    cases signed with
    | true => exact Cond.holds_complement _ _ _
    | false => exact Cond.holds_complement _ _ _

variable {l cond} in
/-- No ordering holds in a lane where one of the operands is not a number. -/
theorem hit_nan (hf : l.overflow = .float) (heq : cond ≠ .eq) (hne : cond ≠ .ne) {i : Nat}
    (h : l.IsNaN left i ∨ l.IsNaN right i) : hit l cond signed left right i = false := by
  rw [hit, if_pos hf]
  exact Single.holds_nan heq hne (h.imp Layout.IsNaN.single Layout.IsNaN.single)

/-! ## The mask -/

/-- The lanes of the answers, all ones for a true one. -/
def maskValue : Word :=
  l.build fun i => if hit l cond signed left right i then l.range - 1 else 0

variable {i : Nat}

theorem lane_maskValue (h : i < l.count) :
    l.lane (maskValue l cond signed left right) i =
      if hit l cond signed left right i then l.range - 1 else 0 := by
  have hpos := l.range_pos
  rw [maskValue, l.lane_build _ h]
  split
  · exact Nat.mod_eq_of_lt (Nat.sub_lt hpos Nat.one_pos)
  · exact Nat.zero_mod _

theorem lane_maskValue_eq_zero (h : i < l.count) :
    l.lane (maskValue l cond signed left right) i = 0 ↔
      hit l cond signed left right i = false := by
  have hrange := l.one_lt_range
  rw [lane_maskValue l cond signed left right h]
  cases hit l cond signed left right i with
  | true => simp; omega
  | false => simp

theorem lane_maskValue_eq_full (h : i < l.count) :
    l.lane (maskValue l cond signed left right) i = l.range - 1 ↔
      hit l cond signed left right i = true := by
  have hrange := l.one_lt_range
  rw [lane_maskValue l cond signed left right h]
  cases hit l cond signed left right i with
  | true => simp
  | false => simp; omega

/-- The mask of a condition has a bit set if the condition holds in some lane. -/
theorem any_iff :
    (compare l cond signed left right).any id = true ↔
      maskValue l cond signed left right ≠ 0 := by
  rw [compare_eq, List.any_map, List.any_eq_true]
  constructor
  · rintro ⟨i, hi, hhit⟩ hzero
    have hlane := (lane_maskValue_eq_full l cond signed left right (List.mem_range.mp hi)).mpr hhit
    rw [hzero, l.lane_zero] at hlane
    have hrange := l.one_lt_range
    omega
  · intro hne
    by_contra hnone
    refine hne (l.eq_of_lanes fun i hi => ?_)
    rw [l.lane_zero, lane_maskValue_eq_zero l cond signed left right hi]
    exact Bool.eq_false_iff.mpr fun hhit => hnone ⟨i, List.mem_range.mpr hi, hhit⟩

/-- The mask of a condition has all bits set if the condition holds in every lane. -/
theorem all_iff :
    (compare l cond signed left right).all id = true ↔
      maskValue l cond signed left right = BitVec.allOnes 32 := by
  rw [compare_eq, List.all_map, List.all_eq_true]
  constructor
  · intro hall
    refine l.eq_of_lanes fun i hi => ?_
    rw [l.lane_allOnes hi, lane_maskValue_eq_full l cond signed left right hi]
    exact hall i (List.mem_range.mpr hi)
  · intro hones i hi
    have hi := List.mem_range.mp hi
    exact (lane_maskValue_eq_full l cond signed left right hi).mp (hones ▸ l.lane_allOnes hi)

theorem maskValue_complement (h : l.overflow ≠ .float ∨ cond = .eq ∨ cond = .ne) :
    maskValue l cond.complement signed left right =
      ~~~maskValue l cond signed left right := by
  refine l.eq_of_lanes fun i hi => ?_
  rw [Layout.lane_not l _ hi, lane_maskValue l _ signed left right hi,
    lane_maskValue l _ signed left right hi, hit_complement l cond signed left right h]
  cases hit l cond signed left right i with
  | true => exact (Nat.sub_self _).symm
  | false => rfl

end Answers

/-! ## Branches follow masks -/

section Branches

variable {type : RegType} {l : Layout} {cond : Cond} {signed : Bool} {left right : Word}

theorem mask_ok (h : type.layout? = some l) :
    mask type cond signed left right =
      .ok ⟨maskValue l cond signed left right, maskType l.width⟩ := by
  unfold mask RegType.layout
  rw [h]
  dsimp only [bind, Except.bind, pure, Except.pure]
  rw [compare_eq, List.map_map]
  rfl

theorem holds_any (h : type.layout? = some l) :
    holds type cond signed false left right =
      .ok (decide (maskValue l cond signed left right ≠ 0)) := by
  unfold holds RegType.layout
  rw [h]
  refine congrArg Except.ok (Bool.eq_iff_iff.mpr ?_)
  rw [decide_eq_true_iff]
  exact any_iff l cond signed left right

theorem holds_all (h : type.layout? = some l) :
    holds type cond signed true left right =
      .ok (decide (maskValue l cond signed left right = BitVec.allOnes 32)) := by
  unfold holds RegType.layout
  rw [h]
  refine congrArg Except.ok (Bool.eq_iff_iff.mpr ?_)
  rw [decide_eq_true_iff]
  exact all_iff l cond signed left right

theorem mask_error (h : type.layout? = none) :
    mask type cond signed left right = .error .type := by
  unfold mask RegType.layout
  rw [h]
  rfl

theorem holds_error (h : type.layout? = none) (allLanes : Bool) :
    holds type cond signed allLanes left right = .error .type := by
  unfold holds RegType.layout
  rw [h]
  rfl

/-- A branch reads the mask of its condition: some bit of it is set for a branch on
any lane, all bits are for a branch on all lanes, and a type has either both or
neither. Complementary conditions have complementary masks and opposite branches,
and no ordering holds in a lane with a NaN. -/
theorem branches_read_mask (type : RegType) (cond : Cond) (signed : Bool) (left right : Word) :
    (mask type cond signed left right = .error .type ↔ type.layout? = none) ∧
    (∀ allLanes, holds type cond signed allLanes left right = .error .type ↔
      type.layout? = none) ∧
    ∀ l, type.layout? = some l → ∃ m,
      mask type cond signed left right = .ok m ∧
      holds type cond signed false left right = .ok (decide (m.value ≠ 0)) ∧
      holds type cond signed true left right = .ok (decide (m.value = BitVec.allOnes 32)) ∧
      (l.overflow ≠ .float ∨ cond = .eq ∨ cond = .ne →
        mask type cond.complement signed left right = .ok ⟨~~~m.value, m.type⟩ ∧
        ∃ taken, holds type cond signed false left right = .ok taken ∧
          holds type cond.complement signed true left right = .ok !taken) ∧
      (l.overflow = .float → cond ≠ .eq → cond ≠ .ne →
        ∀ i, i < l.count → l.IsNaN left i ∨ l.IsNaN right i → l.lane m.value i = 0) := by
  refine ⟨⟨fun herr => ?_, mask_error⟩, fun allLanes => ⟨fun herr => ?_, (holds_error · _)⟩,
    fun l hl => ⟨_, mask_ok hl, holds_any hl, holds_all hl, fun hc => ?_,
      fun hf heq hne i hi hnan => ?_⟩⟩
  · cases hl : type.layout? with
    | none => rfl
    | some l => simp [mask_ok hl] at herr
  · cases hl : type.layout? with
    | none => rfl
    | some l =>
        cases allLanes with
        | true => simp [holds_all hl] at herr
        | false => simp [holds_any hl] at herr
  · refine ⟨?_, _, holds_any hl, ?_⟩
    · rw [mask_ok hl, maskValue_complement l cond signed left right hc]
    · -- all bits of the complement are set if no bit of the mask is
      rw [holds_all hl, maskValue_complement l cond signed left right hc, ← decide_not]
      refine congrArg Except.ok (decide_eq_decide.mpr ?_)
      rw [not_not, ← BitVec.not_zero, BitVec.not_inj]
      rfl
  · exact (lane_maskValue_eq_zero l cond signed left right hi).mpr
      (hit_nan signed left right hf heq hne hnan)

/-- Of the bytes of `0x01ff0580` and `0x02000580` the upper two are different; the
half in lane 1 of `0x7e003c00` is a NaN. -/
theorem branches_read_mask_bytes_and_halves :
    (mask .int8x4 .ge true 0x01ff0580 0x02000580 = .ok ⟨0x0000ffff, .int8x4⟩ ∧
      ∃ taken, holds .int8x4 .lt true false 0x01ff0580 0x02000580 = .ok taken ∧
        holds .int8x4 .ge true true 0x01ff0580 0x02000580 = .ok !taken) ∧
    ∃ m, mask .fp16x2 .le false 0x7e003c00 0x3c003c00 = .ok m ∧
      Layout.lane ⟨.half, .float⟩ m.value 1 = 0 := by
  constructor
  · obtain ⟨m, hm, -, -, hcomp, -⟩ :=
      (branches_read_mask .int8x4 .lt true 0x01ff0580 0x02000580).2.2 ⟨.byte, .wrap⟩ rfl
    obtain ⟨hmask, hbranch⟩ := hcomp (.inl (by decide))
    have hvalue : mask .int8x4 .lt true 0x01ff0580 0x02000580 = .ok ⟨0xffff0000, .int8x4⟩ := by
      decide
    cases hm.symm.trans hvalue
    exact ⟨hmask, hbranch⟩
  · obtain ⟨m, hm, -, -, -, hnan⟩ :=
      (branches_read_mask .fp16x2 .le false 0x7e003c00 0x3c003c00).2.2 ⟨.half, .float⟩ rfl
    refine ⟨m, hm, hnan rfl (by decide) (by decide) 1 (by decide) (.inl ?_)⟩
    show 0x7c00 < Layout.lane ⟨.half, .float⟩ 0x7e003c00 1 % 0x8000
    decide

end Branches

end Lane

end TypedCore
