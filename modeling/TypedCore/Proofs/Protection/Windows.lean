import TypedCore.Platform

/-!
# What a window reaches

A window is defined by quotients and remainders; hardware would mask. The two
agree: `physical?_eq` says a relocation in masks, and `Window.Reaches` is the
set of addresses it comes to.

What makes the set useful is that it is a set of whole pages. An aligned access
lies in one page, so if its first byte is relocated, all of its bytes are, to
consecutive addresses (`physical?_add`). An access that is let through therefore
stays in the set.
-/

namespace TypedCore

/-! ## Masks -/

namespace Word

/-- The bits of an address that count. -/
def addressMask : Word := 0x0fffffff

/-- The bits of an address that tell its page. -/
def pageMask : Word := ~~~1023

variable (v : Word)

theorem toNat_and_address : (v &&& addressMask).toNat = v.low28 := by
  rw [BitVec.toNat_and]
  exact Nat.and_two_pow_sub_one_eq_mod v.toNat 28

theorem toNat_and_page : (v &&& pageMask).toNat = v.toNat / 1024 * 1024 := by
  have hbits : ∀ i : Fin 32, pageMask.getLsbD i = decide (10 ≤ i.val) := by decide
  have hshift : v &&& pageMask = v >>> 10 <<< 10 := by
    apply BitVec.eq_of_getLsbD_eq
    intro i hi
    rw [BitVec.getLsbD_and, hbits ⟨i, hi⟩, BitVec.getLsbD_shiftLeft, BitVec.getLsbD_ushiftRight]
    by_cases h : 10 ≤ i
    · simp [h, hi, show ¬ i < 10 by omega]
    · simp [h, show i < 10 by omega]
  have hlt := v.isLt
  rw [hshift, BitVec.toNat_shiftLeft, BitVec.toNat_ushiftRight, Nat.shiftLeft_eq,
    Nat.shiftRight_eq_div_pow]
  omega

theorem low28_lt : v.low28 < 0x10000000 := Nat.mod_lt _ (by decide)

end Word

/-! ## Windows -/

namespace Window

variable (w : Window)

/-- Whether the page of an address is not above the one of the limit. -/
def Admits (v : Word) : Prop :=
  v &&& Word.addressMask &&& Word.pageMask ≤ w.limit &&& Word.addressMask &&& Word.pageMask

instance (v : Word) : Decidable (w.Admits v) :=
  inferInstanceAs (Decidable (_ ≤ _))

/-- An address moved up by the pages of the base, round the end of memory. -/
def relocate (v : Word) : Word :=
  ((v &&& Word.addressMask) + (w.base &&& Word.addressMask &&& Word.pageMask)) &&& Word.addressMask

/-- The window in masks. -/
theorem physical?_eq (v : Word) :
    w.physical? v = if w.Admits v then some (w.relocate v) else none := by
  have hadmits : w.Admits v ↔ ¬ w.limit.low28 / 1024 < v.low28 / 1024 := by
    rw [Admits, BitVec.le_def, Word.toNat_and_page, Word.toNat_and_page, Word.toNat_and_address,
      Word.toNat_and_address]
    omega
  have hrelocate : w.relocate v =
      BitVec.ofNat 32 ((v.low28 + w.base.low28 / 1024 * 1024) % 0x10000000) := by
    apply BitVec.eq_of_toNat_eq
    have hv := v.low28_lt
    have hbase := w.base.low28_lt
    rw [relocate, Word.toNat_and_address, Word.low28, BitVec.toNat_add, Word.toNat_and_page,
      Word.toNat_and_address, Word.toNat_and_address, BitVec.toNat_ofNat]
    omega
  unfold physical?
  by_cases h : w.Admits v
  · rw [if_pos h, if_neg (hadmits.mp h), hrelocate]
  · rw [if_neg h, if_pos (Classical.not_not.mp fun hn => h (hadmits.mpr hn))]

/-- The physical addresses that some address is relocated to. -/
def Reaches (a : Nat) : Prop := ∃ v, w.Admits v ∧ (w.relocate v).toNat = a

variable {w}

theorem reaches_of_physical? {v a : Word} (h : w.physical? v = some a) : w.Reaches a.toNat := by
  rw [physical?_eq] at h
  split at h
  · rename_i hadmits
    exact ⟨v, hadmits, congrArg BitVec.toNat (Option.some.inj h)⟩
  · cases h

/-- An aligned access lies in one page, and so does what it is relocated to. -/
theorem physical?_add {v a : Word} {width : Width} {i : Nat} (hv : width.isAligned v)
    (hi : i < width.bytes) (h : w.physical? v = some a) :
    ∃ b, w.physical? (v + BitVec.ofNat 32 i) = some b ∧ b.toNat = a.toNat + i := by
  have hoffset : (v + BitVec.ofNat 32 i).low28 = v.low28 + i ∧ v.low28 % 1024 + i < 1024 := by
    have hlt := v.isLt
    have hrem : v.toNat % width.bytes = 0 := by simpa [Width.isAligned] using hv
    rw [Word.low28, Word.low28, BitVec.toNat_add, BitVec.toNat_ofNat]
    cases width <;> simp only [Width.bytes] at hi hrem <;> omega
  obtain ⟨hlow, hpage⟩ := hoffset
  have hv28 := v.low28_lt
  have hbase := w.base.low28_lt
  unfold physical? at h ⊢
  split at h
  · cases h
  · rename_i hlimit
    obtain rfl := Option.some.inj h
    refine ⟨_, if_neg (by omega), ?_⟩
    rw [hlow, BitVec.toNat_ofNat, BitVec.toNat_ofNat]
    omega

/-- A window that moves nothing reaches no page above its limit. -/
theorem Reaches.page_le {limit : Word} {a : Nat} (h : Reaches ⟨0, limit⟩ a) :
    a / 1024 ≤ limit.low28 / 1024 := by
  obtain ⟨v, hadmits, rfl⟩ := h
  have hsome := physical?_eq ⟨0, limit⟩ v
  rw [if_pos hadmits] at hsome
  unfold physical? at hsome
  split at hsome
  · cases hsome
  · rename_i hlimit
    have hv := v.low28_lt
    rw [← Option.some.inj hsome, BitVec.toNat_ofNat]
    have hzero : (0 : Word).low28 = 0 := rfl
    dsimp only at hlimit ⊢
    omega

end Window

/-! ## The two windows -/

/-- The two windows of the windowed model. -/
structure Windows where
  inst : Window
  data : Window

namespace Windows

variable (w : Windows)

/-- The window that an access of task mode goes through. -/
def through (access : Access) : Window := if access = .fetch then w.inst else w.data

/-- The physical addresses that task mode can reach, by fetches or by data accesses. -/
def Reaches (a : Nat) : Prop := w.inst.Reaches a ∨ w.data.Reaches a

/-- The windows after a write of a status register. Only four registers belong to them. -/
def write (addr value : Word) : Windows :=
  match addr.toNat with
  | 0x80 => { w with inst := { w.inst with base := value } }
  | 0x81 => { w with inst := { w.inst with limit := value } }
  | 0x82 => { w with data := { w.data with base := value } }
  | 0x83 => { w with data := { w.data with limit := value } }
  | _ => w

variable {w}

theorem reaches_through {access : Access} {a : Nat} (h : (w.through access).Reaches a) :
    w.Reaches a := by
  unfold through at h
  split at h
  · exact .inl h
  · exact .inr h

end Windows

namespace Platform

def windows (p : Platform) : Windows := ⟨p.inst, p.data⟩

def withWindows (p : Platform) (w : Windows) : Platform := { p with inst := w.inst, data := w.data }

theorem physical_task {p : Platform} (hm : p.model = .windowed) (addr : Word) (access : Access) :
    p.physical .task addr access =
      match (p.windows.through access).physical? addr with
      | some a => .ok a
      | none => .error ⟨access.violation, addr⟩ := by
  unfold physical
  rw [hm]
  rfl

end Platform

end TypedCore
