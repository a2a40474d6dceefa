import TypedCore.Proofs.Execution.Outcome

/-!
# The marked registers

Every register write marks the register if it changed it, and an instruction
starts without marks. After a step the marks are therefore at least at the
registers that changed. That they are at no others needs one more fact: nothing
writes a register twice. A second write could put the first value back, and the
mark would stay.

`State.Marks` is the invariant, and a write of a register that still has its old
contents keeps it (`Marks.writeReg`). Effects write distinct registers, an
access to a status register comes without other writes, and the reaction to a
cause comes in the place of all effects, so every write of a step is of that
kind.
-/

namespace TypedCore

/-- The marks stand at the registers whose contents are no longer the old ones. -/
def State.Marks (s : State) (old : RegFile) : Prop :=
  ∀ i, s.dirty.getLsbD i = true ↔ i < 15 ∧ s.regs.read i ≠ old.read i

/-! ## Writes -/

namespace State

variable {s t : State} {old : RegFile} {i : Nat} {r : TypedWord}

theorem writeReg_read (hw : s.writeReg i r = .ok t) (j : Nat) :
    t.regs.read j = if i = j then r else s.regs.read j := by
  unfold writeReg RegFile.write at hw
  split at hw
  · rename_i hi
    obtain rfl := Except.ok.inj hw
    rw [RegFile.read_set]
    by_cases hij : i = j
    · rw [if_pos ⟨hij, hij ▸ hi⟩, if_pos hij]
    · rw [if_neg fun h => hij h.1, if_neg hij]
  · cases hw

/-- A write marks its register if it changed it, and takes no mark away. -/
theorem writeReg_marks (hw : s.writeReg i r = .ok t) (j : Nat) :
    t.dirty.getLsbD j = true ↔
      s.dirty.getLsbD j = true ∨ i = j ∧ i < 15 ∧ s.regs.read i ≠ r := by
  unfold writeReg RegFile.write at hw
  split at hw
  · rename_i hi
    obtain rfl := Except.ok.inj hw
    by_cases hsame : s.regs.read i = r
    · simp [hsame]
    · have hchanged : (s.regs.read i != r) = true := by simpa using hsame
      have hbit : (1#16 <<< i).getLsbD j = true ↔ i = j := by
        rw [BitVec.getLsbD_shiftLeft, BitVec.getLsbD_one]
        grind
      simp only [hchanged, if_true, BitVec.getLsbD_or, Bool.or_eq_true, hbit]
      simp [hsame, hi]
  · cases hw

end State

namespace State.Marks

variable {s t : State} {old : RegFile} {i : Nat} {r : TypedWord}

theorem unmarked (hregs : s.regs = old) (hdirty : s.dirty = 0) : s.Marks old := by
  intro i
  rw [hregs, hdirty]
  simp

/-- Only registers and marks count. -/
theorem congr (h : s.Marks old) (hregs : t.regs = s.regs) (hdirty : t.dirty = s.dirty) :
    t.Marks old := by
  intro i
  rw [hregs, hdirty]
  exact h i

theorem writeReg (h : s.Marks old) (hfresh : s.regs.read i = old.read i)
    (hw : s.writeReg i r = .ok t) : t.Marks old := by
  intro j
  rw [writeReg_marks hw, writeReg_read hw, h j]
  by_cases hij : i = j
  · -- The register has its old contents, so it had no mark yet.
    subst hij
    rw [if_pos rfl, hfresh]
    constructor
    · rintro (⟨-, hold⟩ | ⟨-, hi, hne⟩)
      · exact absurd rfl hold
      · exact ⟨hi, hne.symm⟩
    · rintro ⟨hi, hne⟩
      exact .inr ⟨rfl, hi, hne.symm⟩
  · rw [if_neg hij]
    exact ⟨fun hmark => hmark.resolve_right fun hwritten => hij hwritten.1, .inl⟩

/-- Distinct registers that all have their old contents may be written one after the other. -/
theorem writeRegs {writes : List (Nat × TypedWord)} (h : s.Marks old)
    (honce : (writes.map Prod.fst).Nodup)
    (hfresh : ∀ w ∈ writes, s.regs.read w.1 = old.read w.1)
    (hw : writes.foldlM (fun s (w : Nat × TypedWord) => s.writeReg w.1 w.2) s = .ok t) :
    t.Marks old := by
  induction writes generalizing s with
  | nil =>
      obtain rfl := Except.ok.inj hw
      exact h
  | cons w ws ih =>
      rw [List.foldlM_cons] at hw
      rw [List.map_cons, List.nodup_cons] at honce
      obtain ⟨hnew, hrest⟩ := honce
      cases hone : s.writeReg w.1 w.2 with
      | error e => rw [hone] at hw; cases hw
      | ok u =>
          rw [hone] at hw
          have hu : u.Marks old := h.writeReg (hfresh w (.head ws)) hone
          refine ih hu hrest ?_ hw
          intro x hx
          have hne : w.1 ≠ x.1 := by
            intro heq
            exact hnew (heq ▸ List.mem_map_of_mem hx)
          rw [writeReg_read hone, if_neg hne]
          exact hfresh x (.tail w hx)

end State.Marks

/-! ## Effects and reactions -/

namespace Effects

variable {e : Effects} {s t : State} {p q : Platform} {old : RegFile}

theorem settle_marks (hm : s.Marks old) (hregs : s.regs = old)
    (honce : (e.writes.map Prod.fst).Nodup) (h : e.settle s = .ok t) : t.Marks old := by
  unfold settle at h
  cases hw : e.writes.foldlM (fun s (w : Nat × TypedWord) => s.writeReg w.1 w.2) s with
  | error fault => rw [hw] at h; cases h
  | ok u =>
      rw [hw] at h
      obtain rfl := Except.ok.inj h
      have hu : u.Marks old := hm.writeRegs honce (fun w _ => by rw [hregs]) hw
      refine hu.congr ?_ ?_
      · cases e.nextPc with
        | none => rfl
        | some pc => unfold State.setNextPc; cases u.mode <;> rfl
      · cases e.nextPc with
        | none => rfl
        | some pc => unfold State.setNextPc; cases u.mode <;> rfl

/-- A read of a status register is a single write, and it finds the registers as they were. -/
theorem apply_marks {insn : Insn} {b : State} (hm : s.Marks old) (hregs : s.regs = old)
    (hasks : insn.Asks b e) (hc : e.cause.isRaised = false) (h : e.apply s p = .ok (t, q)) :
    t.Marks old := by
  obtain ⟨u, hsettle, h⟩ := apply_ok hc h
  have hu : u.Marks old := settle_marks hm hregs hasks.writes_nodup hsettle
  cases hcsr : e.csr with
  | none =>
      rw [hcsr] at h
      obtain ⟨rfl, -⟩ := h
      exact hu
  | some access =>
      rw [hcsr] at h
      obtain rfl := hasks.csr_alone hcsr
      obtain rfl : s = u := Except.ok.inj hsettle
      cases access with
      | read rd addr =>
          obtain ⟨-, v, -, hwrite⟩ := CsrAccess.apply_read h
          have hread : { s with latch := s.latch.afterRead addr }.Marks old := hm.congr rfl rfl
          exact hread.writeReg (by rw [hregs]) hwrite
      | write addr value =>
          obtain ⟨rfl, -⟩ := CsrAccess.apply_write h
          exact hm.congr rfl rfl

end Effects

theorem State.respond_marks {σ : Type} {s : State} {old : RegFile} (hm : s.Marks old)
    (hregs : s.regs = old) (environment : Environment) (p : Platform) (host : Host σ) (h : σ) :
    (s.respond environment p host h).state.Marks old := by
  obtain ⟨nextTpc, nextMode, ht | ⟨r, hw⟩⟩ := respond_writes s environment p host h
  all_goals have hshadow : { s with nextTpc, nextMode }.Marks old := hm.congr rfl rfl
  · rw [ht]
    exact hshadow
  · exact hshadow.writeReg (by rw [← hregs]) hw

theorem Core.Ends.dirty {c d : Core} {halt x : Option Halt} (h : c.Ends halt x d) :
    d.state.dirty = c.state.dirty := by
  cases h with
  | halted halt => rfl
  | exited halt bus hexit => rfl
  | interrupted s hexit hpending hs =>
      rw [State.takeInterrupt_eq hs]
      rfl
  | wentOn hexit hs => rfl

/-! ## Steps -/

namespace Machine

variable {σ : Type} (m : Machine) (host : Host σ) (h : σ)

theorem begun_marks : m.begun.Marks m.state.regs := .unmarked rfl rfl

/-- What the step of a machine leaves is marked where it differs from what it began with. -/
theorem step_marks : (m.step host h).machine.state.Marks m.state.regs := by
  have hbegun := m.begun_marks
  cases m.step_goes host h with
  | unbuilt e ha hl =>
      rw [hl.state]
      exact hbegun
  | refused effects p e ha hc happly hl =>
      rw [hl.state]
      exact hbegun
  | raised effects p ha hc hf =>
      have hraised : (m.raisedState effects).Marks m.state.regs := hbegun.congr rfl rfl
      have hreacted := State.respond_marks hraised rfl m.environment p host h
      obtain ⟨⟨-, hstate⟩ | hstate, -⟩ := step_reacted ha hc host h
      · rw [hstate]
        exact hreacted
      · rw [hstate]
        exact hreacted.congr rfl rfl
  | retired effects p s q ha hc happly hr =>
      obtain ⟨x, d, hends, hl⟩ := hr
      rw [hl.state]
      rcases attempt_asks ha with ⟨fault, hfault, rfl⟩ | ⟨insn, -, -, hasks⟩
      · have hcause : fault.cause.isRaised = false := hc
        rcases Platform.fetch_fault (Prod.ext hfault rfl) with hraised | hraised <;>
          rw [hraised] at hcause <;> cases hcause
      · exact (Effects.apply_marks hbegun rfl hasks hc happly).congr hends.regs hends.dirty

/-- However a step ends, its marks are at exactly the registers whose value or type it
changed. The unused sixteenth mark is never set. -/
theorem dirty_exact (i : Nat) :
    (m.step host h).machine.state.dirty.getLsbD i = true ↔
      i < 15 ∧ (m.step host h).machine.state.regs.read i ≠ m.state.regs.read i :=
  m.step_marks host h i

end Machine

end TypedCore
