import TypedCore.Proofs.Floats.Grid

/-!
# What a pattern stands for

The reading of a bit pattern as the standard has it: a sign, and an infinity, a
number or none of these (`FloatFormat.datum`). With the sign taken off, patterns
below that of infinity stand for the magnitudes of the grid, and those above it
for no number (`FloatFormat.datum_cases`).

`FloatFormat.decode` gives the same reading with the number as a dyadic one
(`FloatFormat.datum_decode`), and `FloatFormat.encode` gives the pattern of the
nearest magnitude, with the sign of the number (`FloatFormat.encode_finite`).
-/

namespace TypedCore

/-- What a pattern stands for: a number is given by its sign and its magnitude. -/
inductive FloatDatum where
  | nan (negative : Bool)
  | infinite (negative : Bool)
  | finite (negative : Bool) (magnitude : ℚ)
  deriving DecidableEq

/-- The number with a sign and a magnitude. -/
def withSign (negative : Bool) (magnitude : ℚ) : ℚ := if negative then -magnitude else magnitude

namespace FloatFormat

variable (f : FloatFormat)

/-- The highest bit. -/
def negative (bits : Nat) : Bool := bits / f.signWeight % 2 == 1

/-- The bits of a pattern below its sign. -/
def unsigned (bits : Nat) : Nat := bits % f.signWeight

def fraction (bits : Nat) : Nat := bits % 2 ^ f.fractionBits

def exponent (bits : Nat) : Nat := bits / 2 ^ f.fractionBits % 2 ^ f.exponentBits

def datum (bits : Nat) : FloatDatum :=
  if f.exponent bits = 2 ^ f.exponentBits - 1 then
    if f.fraction bits = 0 then .infinite (f.negative bits) else .nan (f.negative bits)
  else .finite (f.negative bits) (f.magnitude (f.unsigned bits))

/-! ## Fields -/

theorem signWeight_eq : f.signWeight = 2 ^ f.fractionBits * 2 ^ f.exponentBits := by
  rw [signWeight, Nat.one_shiftLeft, Nat.pow_add, Nat.mul_comm]

theorem infinityPattern_eq :
    f.infinityPattern = (2 ^ f.exponentBits - 1) * 2 ^ f.fractionBits := by
  rw [infinityPattern, Nat.one_shiftLeft, Nat.shiftLeft_eq]

theorem infinityPattern_lt : f.infinityPattern < f.signWeight := by
  rw [infinityPattern_eq, signWeight_eq, Nat.mul_comm]
  exact Nat.mul_lt_mul_of_pos_left (Nat.sub_lt (Nat.two_pow_pos _) Nat.one_pos) (Nat.two_pow_pos _)

/-- The fields below the sign. -/
theorem unsigned_eq (bits : Nat) :
    f.unsigned bits = f.exponent bits * 2 ^ f.fractionBits + f.fraction bits := by
  rw [unsigned, signWeight_eq, Nat.mod_mul, Nat.mul_comm, Nat.add_comm]
  rfl

theorem fraction_lt (bits : Nat) : f.fraction bits < 2 ^ f.fractionBits :=
  Nat.mod_lt _ (Nat.two_pow_pos _)

theorem exponent_le (bits : Nat) : f.exponent bits ≤ 2 ^ f.exponentBits - 1 :=
  Nat.le_sub_one_of_lt (Nat.mod_lt _ (Nat.two_pow_pos _))

/-- Shifting and masking cut the exponent out. -/
theorem exponent_and (bits : Nat) :
    bits >>> f.fractionBits &&& (2 ^ f.exponentBits - 1) = f.exponent bits := by
  rw [Nat.and_two_pow_sub_one_eq_mod, Nat.shiftRight_eq_div_pow, exponent]

theorem fraction_and (bits : Nat) : bits &&& (2 ^ f.fractionBits - 1) = f.fraction bits := by
  rw [Nat.and_two_pow_sub_one_eq_mod, fraction]

variable {f} {bits n : Nat}

/-- The exponent of a pattern below that of infinity is not the highest. -/
theorem exponent_of_lt (h : f.unsigned bits < f.infinityPattern) :
    f.exponent bits ≠ 2 ^ f.exponentBits - 1 := by
  intro he
  rw [unsigned_eq, infinityPattern_eq, he] at h
  omega

theorem exponent_of_ge (h : f.infinityPattern ≤ f.unsigned bits) :
    f.exponent bits = 2 ^ f.exponentBits - 1 := by
  have hfraction := f.fraction_lt bits
  by_contra hne
  have hlt : f.exponent bits + 1 ≤ 2 ^ f.exponentBits - 1 := by
    have := f.exponent_le bits
    omega
  have hmul := Nat.mul_le_mul_right (2 ^ f.fractionBits) hlt
  rw [Nat.succ_mul] at hmul
  rw [unsigned_eq, infinityPattern_eq] at h
  omega

theorem fields_infinite (h : f.unsigned bits = f.infinityPattern) :
    f.exponent bits = 2 ^ f.exponentBits - 1 ∧ f.fraction bits = 0 := by
  have he := exponent_of_ge h.ge
  rw [unsigned_eq, infinityPattern_eq, he] at h
  exact ⟨he, by omega⟩

theorem fields_nan (h : f.infinityPattern < f.unsigned bits) :
    f.exponent bits = 2 ^ f.exponentBits - 1 ∧ f.fraction bits ≠ 0 := by
  have he := exponent_of_ge h.le
  rw [unsigned_eq, infinityPattern_eq, he] at h
  exact ⟨he, by omega⟩

/-! ## Data by patterns -/

theorem datum_finite (h : f.unsigned bits < f.infinityPattern) :
    f.datum bits = .finite (f.negative bits) (f.magnitude (f.unsigned bits)) := by
  rw [datum, if_neg (exponent_of_lt h)]

theorem datum_infinite (h : f.unsigned bits = f.infinityPattern) :
    f.datum bits = .infinite (f.negative bits) := by
  obtain ⟨he, hfraction⟩ := fields_infinite h
  rw [datum, if_pos he, if_pos hfraction]

theorem datum_nan (h : f.infinityPattern < f.unsigned bits) :
    f.datum bits = .nan (f.negative bits) := by
  obtain ⟨he, hfraction⟩ := fields_nan h
  rw [datum, if_pos he, if_neg hfraction]

/-- The three kinds of patterns. -/
theorem datum_cases (f : FloatFormat) (bits : Nat) :
    (f.unsigned bits < f.infinityPattern ∧
      f.datum bits = .finite (f.negative bits) (f.magnitude (f.unsigned bits))) ∨
    (f.unsigned bits = f.infinityPattern ∧ f.datum bits = .infinite (f.negative bits)) ∨
    (f.infinityPattern < f.unsigned bits ∧ f.datum bits = .nan (f.negative bits)) := by
  rcases Nat.lt_trichotomy (f.unsigned bits) f.infinityPattern with h | h | h
  · exact .inl ⟨h, datum_finite h⟩
  · exact .inr (.inl ⟨h, datum_infinite h⟩)
  · exact .inr (.inr ⟨h, datum_nan h⟩)

theorem eq_of_datum_finite {s : Bool} {v : ℚ} (h : f.datum bits = .finite s v) :
    f.unsigned bits < f.infinityPattern ∧ f.negative bits = s ∧
      f.magnitude (f.unsigned bits) = v := by
  rcases f.datum_cases bits with ⟨hlt, hd⟩ | ⟨-, hd⟩ | ⟨-, hd⟩
  · obtain ⟨hs, hv⟩ := FloatDatum.finite.inj (hd.symm.trans h)
    exact ⟨hlt, hs, hv⟩
  · cases hd.symm.trans h
  · cases hd.symm.trans h

/-! ## Decoding -/

/-- Decoding gives the datum of a pattern, with the magnitude as a dyadic number. -/
theorem datum_decode (f : FloatFormat) (bits : Nat) :
    f.datum bits = match f.decode bits with
      | .nan => .nan (f.negative bits)
      | .infinity s => .infinite s
      | .finite s m q => .finite s (m * 2 ^ q) := by
  have hfraction := f.fraction_lt bits
  unfold decode
  simp only [Nat.one_shiftLeft, Nat.shiftRight_eq_div_pow]
  change f.datum bits = match (if f.exponent bits = 2 ^ f.exponentBits - 1 then
      if f.fraction bits = 0 then .infinity (f.negative bits) else .nan
    else if f.exponent bits = 0 then .finite (f.negative bits) (f.fraction bits) f.minExponent
    else .finite (f.negative bits) (2 ^ f.fractionBits + f.fraction bits)
      (f.minExponent + (f.exponent bits - 1 : Nat)) : FloatValue) with
    | .nan => .nan (f.negative bits)
    | .infinity s => .infinite s
    | .finite s m q => .finite s (m * 2 ^ q)
  unfold datum
  by_cases hlast : f.exponent bits = 2 ^ f.exponentBits - 1
  · rw [if_pos hlast, if_pos hlast]
    by_cases hzero : f.fraction bits = 0
    · rw [if_pos hzero, if_pos hzero]
    · rw [if_neg hzero, if_neg hzero]
  · rw [if_neg hlast, if_neg hlast, unsigned_eq]
    by_cases hzero : f.exponent bits = 0
    · rw [if_pos hzero, hzero, Nat.zero_mul, Nat.zero_add, magnitude_subnormal hfraction]
    · obtain ⟨t, ht⟩ := Nat.exists_eq_succ_of_ne_zero hzero
      rw [if_neg hzero, ht, magnitude_normal hfraction]
      rfl

theorem decode_of_finite {s : Bool} {v : ℚ} (h : f.datum bits = .finite s v) :
    ∃ m q, f.decode bits = .finite s m q ∧ m * 2 ^ q = v := by
  rw [datum_decode] at h
  cases hd : f.decode bits with
  | nan => rw [hd] at h; cases h
  | infinity t => rw [hd] at h; cases h
  | finite t m q =>
      rw [hd] at h
      obtain ⟨rfl, hv⟩ := FloatDatum.finite.inj h
      exact ⟨m, q, rfl, hv⟩

theorem decode_of_infinite {s : Bool} (h : f.datum bits = .infinite s) :
    f.decode bits = .infinity s := by
  rw [datum_decode] at h
  cases hd : f.decode bits with
  | nan => rw [hd] at h; cases h
  | finite t m q => rw [hd] at h; cases h
  | infinity t =>
      rw [hd] at h
      rw [FloatDatum.infinite.inj h]

theorem decode_of_nan {s : Bool} (h : f.datum bits = .nan s) :
    f.decode bits = .nan ∧ f.negative bits = s := by
  rw [datum_decode] at h
  cases hd : f.decode bits with
  | infinity t => rw [hd] at h; cases h
  | finite t m q => rw [hd] at h; cases h
  | nan =>
      rw [hd] at h
      exact ⟨rfl, FloatDatum.nan.inj h⟩

/-! ## Encoding -/

theorem negative_pattern (s : Bool) (h : n < f.signWeight) :
    f.negative (s.toNat * f.signWeight + n) = s := by
  rw [negative, Nat.mul_comm, Nat.mul_add_div (Nat.zero_lt_of_lt h), Nat.div_eq_of_lt h]
  cases s with
  | true | false => rfl

theorem unsigned_pattern (s : Bool) (h : n < f.signWeight) :
    f.unsigned (s.toNat * f.signWeight + n) = n := by
  rw [unsigned, Nat.mul_comm, Nat.mul_add_mod, Nat.mod_eq_of_lt h]

theorem datum_pattern_finite (s : Bool) (h : n < f.infinityPattern) :
    f.datum (s.toNat * f.signWeight + n) = .finite s (f.magnitude n) := by
  have hlt := h.trans f.infinityPattern_lt
  rw [datum_finite (by rwa [unsigned_pattern s hlt]), negative_pattern s hlt,
    unsigned_pattern s hlt]

theorem datum_pattern_infinite (f : FloatFormat) (s : Bool) :
    f.datum (s.toNat * f.signWeight + f.infinityPattern) = .infinite s := by
  rw [datum_infinite (unsigned_pattern s f.infinityPattern_lt),
    negative_pattern s f.infinityPattern_lt]

theorem datum_pattern_nan (s : Bool) (hinf : f.infinityPattern < n) (h : n < f.signWeight) :
    f.datum (s.toNat * f.signWeight + n) = .nan s := by
  rw [datum_nan (by rwa [unsigned_pattern s h]), negative_pattern s h]

/-- Nothing is above the sign. -/
theorem toNat_negative (h : bits < 2 * f.signWeight) :
    (f.negative bits).toNat = bits / f.signWeight := by
  have htop : bits / f.signWeight < 2 := Nat.div_lt_of_lt_mul (by omega)
  unfold negative
  generalize bits / f.signWeight = top at htop
  match top, htop with
  | 0, _ | 1, _ => rfl

/-- A pattern is its sign and its bits below that. -/
theorem pattern_eq (h : bits < 2 * f.signWeight) :
    bits = (f.negative bits).toNat * f.signWeight + f.unsigned bits := by
  rw [toNat_negative h, Nat.mul_comm]
  exact (Nat.div_add_mod bits f.signWeight).symm

/-- A number is encoded as the pattern of the nearest magnitude, or of infinity, with its sign. -/
theorem encode_finite (hbits : 0 < f.fractionBits) (s : Bool) (m : Nat) (q : Int) :
    ∃ n, IsNearest f.magnitude (m * 2 ^ q) n ∧
      f.encode (.finite s m q) = s.toNat * f.signWeight + min n f.infinityPattern := by
  obtain ⟨n, hn, hencode⟩ := encodeMagnitude_nearest hbits m q
  exact ⟨n, hn, by rw [encode, hencode]⟩

/-- A magnitude of the format is kept. -/
theorem encode_exact (hbits : 0 < f.fractionBits) (s : Bool) {m : Nat} {q : Int}
    (hn : n < f.infinityPattern) (hmagnitude : f.magnitude n = m * 2 ^ q) :
    f.encode (.finite s m q) = s.toNat * f.signWeight + n := by
  obtain ⟨k, hk, hencode⟩ := encode_finite hbits s m q
  obtain rfl := hk.of_eq (strictMono_magnitude f) hmagnitude
  rw [hencode, Nat.min_eq_left hn.le]

end FloatFormat

end TypedCore
