import TypedCore.Proofs.Execution.Marks

/-!
# Steps that complete

Effects that raise no cause and ask for no status register can always be applied:
the registers they write exist. A step that completes such effects leaves in each
register what they write there, and the memory and the devices that the
instruction left (`Machine.step_completed`).

No register is written twice, so which write is the last one to a register does
not matter, and the registers can be looked up in the list of writes.
-/

namespace TypedCore

/-- After several writes a register has what was written to it. -/
theorem State.writeRegs_read {writes : List (Nat × TypedWord)} {s t : State}
    (honce : (writes.map Prod.fst).Nodup)
    (hw : writes.foldlM (fun s (w : Nat × TypedWord) => s.writeReg w.1 w.2) s = .ok t) (i : Nat) :
    t.regs.read i = (writes.lookup i).getD (s.regs.read i) := by
  induction writes generalizing s with
  | nil =>
      obtain rfl := Except.ok.inj hw
      rfl
  | cons w ws ih =>
      rw [List.foldlM_cons] at hw
      rw [List.map_cons, List.nodup_cons] at honce
      obtain ⟨hnew, hrest⟩ := honce
      cases hone : s.writeReg w.1 w.2 with
      | error e => rw [hone] at hw; cases hw
      | ok u =>
          rw [hone] at hw
          rw [ih hrest hw, writeReg_read hone, List.lookup_cons]
          by_cases hi : w.1 = i
          · subst hi
            have hnone : ws.lookup w.1 = none := by
              rw [List.lookup_eq_none_iff]
              intro x hx
              have hne : w.1 ≠ x.1 := fun heq => hnew (heq ▸ List.mem_map_of_mem hx)
              simpa using hne
            simp [hnone]
          · simp [hi, beq_eq_false_iff_ne.mpr (Ne.symm hi)]

namespace Effects

variable {e : Effects} {s t : State} {p q : Platform}

theorem lookup_write (rd : Nat) (r : TypedWord) (i : Nat) :
    (write rd r).writes.lookup i = if i = rd then some r else none := by
  rw [write, List.lookup_cons, List.lookup_nil]
  by_cases hi : i = rd
  · rw [if_pos hi, beq_iff_eq.mpr hi]
  · rw [if_neg hi, beq_eq_false_iff_ne.mpr hi]

theorem settle_read (honce : (e.writes.map Prod.fst).Nodup) (h : e.settle s = .ok t) (i : Nat) :
    t.regs.read i = (e.writes.lookup i).getD (s.regs.read i) := by
  unfold settle at h
  cases hw : e.writes.foldlM (fun s (w : Nat × TypedWord) => s.writeReg w.1 w.2) s with
  | error fault => rw [hw] at h; cases h
  | ok u =>
      rw [hw] at h
      obtain rfl := Except.ok.inj h
      rw [← State.writeRegs_read honce hw i]
      cases e.nextPc with
      | none => rfl
      | some pc => unfold State.setNextPc; cases hm : u.mode <;> rfl

end Effects

/-- Without a reaction, only a device ends the run. -/
theorem Core.Ends.halt_eq {c d : Core} {x : Option Halt} (h : c.Ends none x d) :
    x = c.platform.bus.takeExit.1 := by
  cases h with
  | exited halt bus hexit => exact (congrArg Prod.fst hexit).symm
  | interrupted s hexit hpending hs => exact hexit.symm
  | wentOn hexit hs => exact hexit.symm

namespace Machine

variable {σ : Type} {m : Machine} {effects : Effects} {p : Platform}

/-- A step whose effects raise no cause and ask for no status register applies them all. -/
theorem step_completed (ha : m.attempt = .ok (effects, p))
    (hc : effects.cause.isRaised = false) (hcsr : effects.csr = none) (host : Host σ) (h : σ) :
    (m.step host h).result = .ok p.bus.takeExit.1 ∧
      (∀ i, (m.step host h).machine.state.regs.read i =
        (effects.writes.lookup i).getD (m.state.regs.read i)) ∧
      p.SameContents (m.step host h).machine.platform := by
  have hwrites : (∀ w ∈ effects.writes, w.1 < 15) ∧ (effects.writes.map Prod.fst).Nodup := by
    rcases attempt_asks ha with ⟨fault, -, rfl⟩ | ⟨insn, -, -, hasks⟩
    · exact ⟨nofun, .nil⟩
    · exact ⟨hasks.writes_lt, hasks.writes_nodup⟩
  obtain ⟨t, ht⟩ := Effects.settle_ok hwrites.1 m.begun
  have happly : effects.apply m.begun p = .ok (t, p) := by
    rw [Effects.apply_quiet hc, ht, hcsr]
    rfl
  obtain ⟨halt, c, hends, hl⟩ := step_retired ha hc happly host h
  refine ⟨by rw [hl.result, hends.halt_eq], fun i => ?_, ?_⟩
  · rw [hl.state, hends.regs]
    exact Effects.settle_read hwrites.2 ht i
  · rw [hl.platform]
    exact hends.sameContents

end Machine

end TypedCore
