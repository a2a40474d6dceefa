import TypedCore.Encoding.Decode

/-!
# The order of the rows

Decoding takes the first row that a word belongs to. Any two rows of the table
ask for something different in one of the nibbles (`table_apart`), so the first
row is the only one, and the order in which the rows stand is of no account.
-/

namespace TypedCore

/-! ## Rows that exclude each other -/

/-- Whether no nibble fits both of two patterns. -/
def NibblePattern.apart : NibblePattern → NibblePattern → Bool
  | exactly m, exactly n => m != n
  | exactly n, operand | operand, exactly n => n == 15
  | _, _ => false

theorem NibblePattern.ne_accepts_of_apart {p q : NibblePattern} {n : Nat} (h : p.apart q = true)
    (hp : p.accepts n = true) : q.accepts n = false := by
  cases p <;> cases q <;> simp_all [apart, accepts]

namespace Template

/-- Whether two rows differ in a nibble. -/
def apart (t u : Template) : Bool :=
  t.fieldC.apart u.fieldC || t.fieldB.apart u.fieldB || t.fieldA.apart u.fieldA ||
    t.fieldD.apart u.fieldD

theorem apart_comm {t u : Template} (h : t.apart u = true) : u.apart t = true := by
  have hcomm : ∀ p q : NibblePattern, p.apart q = q.apart p := by
    intro p q
    cases p <;> cases q <;> simp [NibblePattern.apart, bne_comm]
  unfold apart at h ⊢
  rw [hcomm u.fieldC, hcomm u.fieldB, hcomm u.fieldA, hcomm u.fieldD]
  exact h

variable {t u : Template} {rows : List Template} {w : Half}

theorem not_accepts_of_apart (h : t.apart u = true) (ht : t.accepts w = true) :
    u.accepts w = false := by
  unfold apart at h
  unfold accepts at ht ⊢
  simp only [Bool.and_eq_true] at ht
  obtain ⟨⟨⟨hC, hB⟩, hA⟩, hD⟩ := ht
  simp only [Bool.or_eq_true] at h
  rcases h with ((h | h) | h) | h
  · simp [NibblePattern.ne_accepts_of_apart h hC]
  · simp [NibblePattern.ne_accepts_of_apart h hB]
  · simp [NibblePattern.ne_accepts_of_apart h hA]
  · simp [NibblePattern.ne_accepts_of_apart h hD]

/-- Among rows that exclude each other, the first that fits is any that fits. -/
theorem find?_accepts (hrows : rows.Pairwise fun t u => t.apart u = true) (ht : t ∈ rows)
    (ha : t.accepts w = true) : rows.find? (·.accepts w) = some t := by
  induction rows with
  | nil => cases ht
  | cons u us ih =>
      obtain ⟨hu, hus⟩ := List.pairwise_cons.mp hrows
      rcases List.mem_cons.mp ht with rfl | ht
      · exact List.find?_cons_of_pos ha
      · have hno : u.accepts w = false := not_accepts_of_apart (apart_comm (hu t ht)) ha
        rw [List.find?_cons_of_neg (by simp [hno])]
        exact ih hus ht

end Template

/-! ## The table -/

/-- No word belongs to two rows. -/
theorem Encoding.table_apart : table.Pairwise fun t u => t.apart u = true := by
  decide +kernel

variable {w : Half} {x : Word}

/-- A word that belongs to a row is read by it. -/
theorem decode_row {t : Template} (ht : t ∈ Encoding.table) (ha : t.accepts w = true) :
    (decode w x).insn = t.build w (cutExtension w.insnLength x) := by
  unfold decode decodeWith
  rw [Template.find?_accepts Encoding.table_apart ht ha]

/-- Decoding is the same with the rows in any order. -/
theorem decodeWith_perm {rows : List Template} (hrows : rows.Perm Encoding.table) :
    decodeWith rows w x = decode w x := by
  have hfind : rows.find? (·.accepts w) = Encoding.table.find? (·.accepts w) := by
    cases htable : Encoding.table.find? (·.accepts w) with
    | none =>
        rw [List.find?_eq_none] at htable ⊢
        intro t ht
        exact htable t (hrows.mem_iff.mp ht)
    | some t =>
        have ht : t ∈ rows := hrows.mem_iff.mpr (List.mem_of_find?_eq_some htable)
        have ha : t.accepts w = true := by simpa using List.find?_some htable
        have hapart := (hrows.pairwise_iff Template.apart_comm).mpr Encoding.table_apart
        exact Template.find?_accepts hapart ht ha
  unfold decode decodeWith
  rw [hfind]

end TypedCore
