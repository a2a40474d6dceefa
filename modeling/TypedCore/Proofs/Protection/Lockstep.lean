import TypedCore.Proofs.Memory.OneRam
import TypedCore.Proofs.Protection.Ownership

/-!
# Two platforms in lockstep

Take two platforms with the same windows, each with one memory, which agree
wherever the windows reach. Task mode cannot tell them apart: an access that goes
through a window is let through or refused alike, it finds the same bytes or
leaves the same bytes, and what it writes lies where the data window reaches.

`Platform.Moved` is what an access makes of such a pair, and `Lockstep` adds that
it had the same result on both sides. It is established for one load and one
store; fetching and executing an instruction are a few of these after each other.
-/

namespace TypedCore

/-! ## Memories -/

/-- Two memories at one place that agree on a set of physical addresses. -/
structure Ram.AgreeOn (S : Nat → Prop) (r₁ r₂ : Ram) : Prop where
  base : r₁.base = r₂.base
  size : r₁.size = r₂.size
  bytes : ∀ j < r₁.size, S (r₁.base.toNat + j) → r₁.byte j = r₂.byte j

/-- A memory that changed at a set of physical addresses at most. -/
structure Ram.ChangedIn (S : Nat → Prop) (r r' : Ram) : Prop where
  base : r'.base = r.base
  size : r'.size = r.size
  bytes : ∀ j, ¬ S (r.base.toNat + j) → r'.byte j = r.byte j

namespace Ram

variable {S : Nat → Prop} {r r' r'' r₁ r₂ : Ram}

theorem AgreeOn.covers (h : r₁.AgreeOn S r₂) (addr : Word) (len : Nat) :
    r₁.Covers addr len ↔ r₂.Covers addr len := by
  unfold Covers
  rw [h.base, h.size]

theorem AgreeOn.setBytes (h : r₁.AgreeOn S r₂) (i : Nat) (data : List Byte) :
    (r₁.setBytes i data).AgreeOn S (r₂.setBytes i data) where
  base := by rw [base_setBytes, base_setBytes, h.base]
  size := by rw [size_setBytes, size_setBytes, h.size]
  bytes := by
    intro j hj hs
    rw [size_setBytes] at hj
    rw [base_setBytes] at hs
    rw [byte_setBytes, byte_setBytes, h.bytes j hj hs]

theorem ChangedIn.refl (r : Ram) : r.ChangedIn S r := ⟨rfl, rfl, fun _ _ => rfl⟩

theorem ChangedIn.trans (h₁ : r.ChangedIn S r') (h₂ : r'.ChangedIn S r'') : r.ChangedIn S r'' where
  base := h₂.base.trans h₁.base
  size := h₂.size.trans h₁.size
  bytes := by
    intro j hj
    have hj' : ¬ S (r'.base.toNat + j) := by rwa [h₁.base]
    exact (h₂.bytes j hj').trans (h₁.bytes j hj)

theorem ChangedIn.setBytes {addr : Word} {data : List Byte} (hc : r.Covers addr data.length)
    (h : ∀ k < data.length, S (addr.toNat + k)) :
    r.ChangedIn S (r.setBytes (addr.toNat - r.base.toNat) data) where
  base := base_setBytes r _ data
  size := size_setBytes r _ data
  bytes := by
    obtain ⟨hbase, -⟩ := hc
    intro j hj
    rw [byte_setBytes]
    refine if_neg ?_
    rintro ⟨hlow, hhigh⟩
    have hin := h (r.base.toNat + j - addr.toNat) (by omega)
    rw [show addr.toNat + (r.base.toNat + j - addr.toNat) = r.base.toNat + j by omega] at hin
    exact hj hin

end Ram

/-! ## Platforms -/

namespace Platform

/-- Two platforms on the windowed model, with the same windows and one memory each, where the
memories agree on a set. -/
structure Alike (S : Nat → Prop) (p₁ p₂ : Platform) : Prop where
  model₁ : p₁.model = .windowed
  model₂ : p₂.model = .windowed
  windows : p₁.windows = p₂.windows
  rams : ∃ r₁ r₂, p₁.bus.devices = [.ram r₁] ∧ p₂.bus.devices = [.ram r₂] ∧ r₁.AgreeOn S r₂

/-- A platform with one memory, which changed on a set at most. -/
def ChangedIn (S : Nat → Prop) (p q : Platform) : Prop :=
  ∃ r r', p.bus.devices = [.ram r] ∧ q.bus.devices = [.ram r'] ∧ r.ChangedIn S r'

theorem ChangedIn.trans {S : Nat → Prop} {p q r : Platform} (h₁ : p.ChangedIn S q)
    (h₂ : q.ChangedIn S r) : p.ChangedIn S r := by
  obtain ⟨m, m', hp, hq, hm⟩ := h₁
  obtain ⟨n, n', hq', hr, hn⟩ := h₂
  obtain rfl : m' = n := by
    rw [hq] at hq'
    cases hq'
    rfl
  exact ⟨m, n', hp, hr, hm.trans hn⟩

/-- Two platforms that agreed wherever the windows reach, and still do after each changed
within the data window. -/
structure Moved (w : Windows) (p₁ p₂ q₁ q₂ : Platform) : Prop where
  alike : q₁.Alike w.Reaches q₂
  windows : q₁.windows = p₁.windows
  changed₁ : p₁.ChangedIn w.data.Reaches q₁
  changed₂ : p₂.ChangedIn w.data.Reaches q₂

namespace Moved

variable {w : Windows} {p₁ p₂ q₁ q₂ s₁ s₂ : Platform}

theorem refl (h : p₁.Alike w.Reaches p₂) : Moved w p₁ p₂ p₁ p₂ := by
  obtain ⟨r₁, r₂, hr₁, hr₂, -⟩ := h.rams
  exact ⟨h, rfl, ⟨r₁, r₁, hr₁, hr₁, .refl r₁⟩, ⟨r₂, r₂, hr₂, hr₂, .refl r₂⟩⟩

theorem trans (h₁ : Moved w p₁ p₂ q₁ q₂) (h₂ : Moved w q₁ q₂ s₁ s₂) : Moved w p₁ p₂ s₁ s₂ where
  alike := h₂.alike
  windows := h₂.windows.trans h₁.windows
  changed₁ := h₁.changed₁.trans h₂.changed₁
  changed₂ := h₁.changed₂.trans h₂.changed₂

/-- The note of the last device matters to neither side. -/
theorem usedLast (h : p₁.Alike w.Reaches p₂) (i j : Nat) :
    Moved w p₁ p₂ (p₁.usedLast i) (p₂.usedLast j) := by
  have hm := refl h
  exact ⟨⟨h.model₁, h.model₂, h.windows, h.rams⟩, rfl, hm.changed₁, hm.changed₂⟩

end Moved

end Platform

/-- One computation on two platforms: it has the same result and moves them alike. -/
def Lockstep {α : Type} (w : Windows) (p₁ p₂ : Platform) (o₁ o₂ : α × Platform) : Prop :=
  ∃ a q₁ q₂, o₁ = (a, q₁) ∧ o₂ = (a, q₂) ∧ Platform.Moved w p₁ p₂ q₁ q₂

/-! ## Accesses -/

namespace Platform

variable {w : Windows} {p p₁ p₂ q₁ q₂ : Platform} {addr a : Word} {width : Width} {access : Access}
  {r : Ram} {i : Nat}

/-- Every byte of an access that a window lets through lies where the window reaches. -/
theorem reaches_add {v : Window} (haligned : width.isAligned addr = true)
    (ha : v.physical? addr = some a) (hi : i < width.bytes) : v.Reaches (a.toNat + i) := by
  obtain ⟨b, hb, hadd⟩ := Window.physical?_add haligned hi ha
  rw [← hadd]
  exact Window.reaches_of_physical? hb

/-- A read of memory changes nothing. -/
theorem load_ram (hr : p.bus.devices = [.ram r]) (mode : Mode) (addr : Word) (width : Width)
    (access : Access) :
    ∃ i, (p.load mode addr width access).2 = p.usedLast i := by
  have hread : ∀ a, ∃ i, (p.bus.read a width).2 = p.bus.usedLast i := by
    intro a
    unfold Bus.read
    rw [Bus.readBytes_ram hr]
    by_cases hc : r.Covers a width.bytes
    · exact ⟨0, by rw [if_pos hc]⟩
    · exact ⟨p.bus.last, by rw [if_neg hc]; rfl⟩
  unfold load
  split
  · split
    · exact ⟨p.bus.last, rfl⟩
    · rename_i a _
      obtain ⟨i, hi⟩ := hread a
      split <;> rename_i bus hbus <;>
        exact ⟨i, by rw [show bus = p.bus.usedLast i from hi ▸ (congrArg Prod.snd hbus).symm]; rfl⟩
  · exact ⟨p.bus.last, rfl⟩

/-- Reading where the memories agree gives the same bytes. -/
theorem read_alike (h : p₁.Alike w.Reaches p₂)
    (ha : ∀ i < width.bytes, w.Reaches (a.toNat + i)) :
    (p₁.bus.read a width).1 = (p₂.bus.read a width).1 := by
  obtain ⟨r₁, r₂, hr₁, hr₂, hagree⟩ := h.rams
  unfold Bus.read
  rw [Bus.readBytes_ram hr₁, Bus.readBytes_ram hr₂]
  by_cases hc : r₁.Covers a width.bytes
  · rw [if_pos hc, if_pos ((hagree.covers a width.bytes).mp hc)]
    obtain ⟨hlow, hhigh⟩ := hc
    have hbytes : ∀ i ∈ List.range width.bytes,
        r₁.byte (a.toNat - r₁.base.toNat + i) = r₂.byte (a.toNat - r₂.base.toNat + i) := by
      intro i hi
      have hi' : i < width.bytes := List.mem_range.mp hi
      rw [← hagree.base]
      refine hagree.bytes _ (by omega) ?_
      rw [show r₁.base.toNat + (a.toNat - r₁.base.toNat + i) = a.toNat + i by omega]
      exact ha i hi'
    simp only [List.map_congr_left hbytes]
  · rw [if_neg hc, if_neg (fun h => hc ((hagree.covers a width.bytes).mpr h))]

theorem load_fst {p : Platform} (haligned : width.isAligned addr = true)
    (hp : p.physical .task addr access = .ok a) :
    (p.load .task addr width access).1 =
      match (p.bus.read a width).1 with
      | some value => .ok value
      | none => .error ⟨access.violation, addr⟩ := by
  unfold load
  rw [if_pos haligned, hp]
  dsimp only
  split <;> rename_i hread <;> rw [hread]

theorem physical_alike (h : p₁.Alike w.Reaches p₂) (addr : Word) (access : Access) :
    p₁.physical .task addr access = p₂.physical .task addr access := by
  rw [physical_task h.model₁, physical_task h.model₂, h.windows]

/-- Where an access of task mode goes, all of its bytes are within reach. -/
theorem physical_reaches (hm : p.model = .windowed) (haligned : width.isAligned addr = true)
    (hp : p.physical .task addr access = .ok a) (hi : i < width.bytes) :
    (p.windows.through access).Reaches (a.toNat + i) := by
  rw [physical_task hm] at hp
  split at hp
  · rename_i b hb
    obtain rfl := Except.ok.inj hp
    exact reaches_add haligned hb hi
  · cases hp

theorem load_fst_alike (h : p₁.Alike w.Reaches p₂) (hw : p₁.windows = w) :
    (p₁.load .task addr width access).1 = (p₂.load .task addr width access).1 := by
  have hphysical := physical_alike h addr access
  by_cases haligned : width.isAligned addr = true
  · cases hp : p₁.physical .task addr access with
    | error fault =>
        unfold load
        rw [if_pos haligned, if_pos haligned, ← hphysical, hp]
    | ok a =>
        have hreach : ∀ i < width.bytes, w.Reaches (a.toNat + i) := by
          intro i hi
          have hthrough := physical_reaches h.model₁ haligned hp hi
          rw [hw] at hthrough
          exact Windows.reaches_through hthrough
        rw [load_fst haligned hp, load_fst haligned (hphysical.symm.trans hp), read_alike h hreach]
  · unfold load
    rw [if_neg haligned, if_neg haligned]

theorem load_lockstep (h : p₁.Alike w.Reaches p₂) (hw : p₁.windows = w) (addr : Word)
    (width : Width) (access : Access) :
    Lockstep w p₁ p₂ (p₁.load .task addr width access) (p₂.load .task addr width access) := by
  obtain ⟨r₁, r₂, hr₁, hr₂, -⟩ := h.rams
  obtain ⟨i, hi⟩ := load_ram hr₁ .task addr width access
  obtain ⟨j, hj⟩ := load_ram hr₂ .task addr width access
  exact ⟨(p₁.load .task addr width access).1, p₁.usedLast i, p₂.usedLast j, Prod.ext rfl hi,
    Prod.ext (load_fst_alike h hw).symm hj, .usedLast h i j⟩

theorem write_lockstep (h : p₁.Alike w.Reaches p₂) (hw : p₁.windows = w) (addr : Word)
    (width : Width) (value : Word) :
    Lockstep w p₁ p₂ (p₁.write .task addr width value) (p₂.write .task addr width value) := by
  have hphysical := physical_alike h addr .write
  unfold write
  by_cases haligned : width.isAligned addr = true
  · rw [if_pos haligned, if_pos haligned, ← hphysical]
    cases hp : p₁.physical .task addr .write with
    | error fault => exact ⟨_, _, _, rfl, rfl, .refl h⟩
    | ok a =>
        obtain ⟨r₁, r₂, hr₁, hr₂, hagree⟩ := h.rams
        dsimp only [Bus.write]
        rw [Bus.writeBytes_ram hr₁, Bus.writeBytes_ram hr₂, length_bytesOfNat]
        by_cases hc : r₁.Covers a width.bytes
        · have hc₂ := (hagree.covers a width.bytes).mp hc
          have hreach : ∀ k < width.bytes, w.data.Reaches (a.toNat + k) := by
            intro k hk
            have hthrough := physical_reaches h.model₁ haligned hp hk
            rw [hw] at hthrough
            exact hthrough
          rw [if_pos hc, if_pos hc₂]
          refine ⟨_, _, _, rfl, rfl, ⟨h.model₁, h.model₂, h.windows, ?_⟩, rfl, ?_, ?_⟩
          · refine ⟨_, _, rfl, rfl, ?_⟩
            rw [← hagree.base]
            exact hagree.setBytes _ _
          · refine ⟨r₁, _, hr₁, rfl, .setBytes ?_ ?_⟩ <;> rw [length_bytesOfNat]
            · exact hc
            · exact hreach
          · refine ⟨r₂, _, hr₂, rfl, .setBytes ?_ ?_⟩ <;> rw [length_bytesOfNat]
            · exact hc₂
            · exact hreach
        · rw [if_neg hc, if_neg (fun h => hc ((hagree.covers a width.bytes).mpr h))]
          exact ⟨_, _, _, rfl, rfl, .refl h⟩
  · rw [if_neg haligned, if_neg haligned]
    exact ⟨_, _, _, rfl, rfl, .refl h⟩

/-! ## Fetching -/

theorem fetchHalf_lockstep (h : p₁.Alike w.Reaches p₂) (hw : p₁.windows = w) (addr : Word) :
    Lockstep w p₁ p₂ (p₁.fetchHalf .task addr) (p₂.fetchHalf .task addr) := by
  obtain ⟨result, q₁, q₂, h₁, h₂, hm⟩ := load_lockstep h hw addr .half .fetch
  unfold fetchHalf
  rw [h₁, h₂]
  cases result <;> exact ⟨_, q₁, q₂, rfl, rfl, hm⟩

theorem fetchExtension_lockstep (h : p₁.Alike w.Reaches p₂) (hw : p₁.windows = w) (pc : Word)
    (len : Nat) :
    Lockstep w p₁ p₂ (p₁.fetchExtension .task pc len) (p₂.fetchExtension .task pc len) := by
  obtain ⟨low, q₁, q₂, h₁, h₂, hm⟩ := fetchHalf_lockstep h hw (pc + 2)
  obtain ⟨high, s₁, s₂, h₃, h₄, hn⟩ :=
    fetchHalf_lockstep hm.alike (hm.windows.trans hw) (pc + 4)
  unfold fetchExtension
  split
  · exact ⟨_, p₁, p₂, rfl, rfl, .refl h⟩
  · rw [h₁, h₂]
    cases low <;> exact ⟨_, q₁, q₂, rfl, rfl, hm⟩
  · rw [h₁, h₂]
    cases low with
    | error fault => exact ⟨_, q₁, q₂, rfl, rfl, hm⟩
    | ok low =>
        dsimp only
        rw [h₃, h₄]
        cases high <;> exact ⟨_, s₁, s₂, rfl, rfl, hm.trans hn⟩

/-- Both sides fetch the same instruction, or the same fault. -/
theorem fetch_lockstep (h : p₁.Alike w.Reaches p₂) (hw : p₁.windows = w) (pc : Word) :
    Lockstep w p₁ p₂ (p₁.fetch .task pc) (p₂.fetch .task pc) := by
  obtain ⟨word, q₁, q₂, h₁, h₂, hm⟩ := fetchHalf_lockstep h hw pc
  unfold fetch
  rw [h₁, h₂]
  cases word with
  | error fault => exact ⟨_, q₁, q₂, rfl, rfl, hm⟩
  | ok word =>
      obtain ⟨ext, s₁, s₂, h₃, h₄, hn⟩ :=
        fetchExtension_lockstep hm.alike (hm.windows.trans hw) pc word.insnLength
      dsimp only
      rw [h₃, h₄]
      cases ext <;> exact ⟨_, s₁, s₂, rfl, rfl, hm.trans hn⟩

end Platform

/-! ## Executing -/

section Execute

variable {w : Windows} {p₁ p₂ : Platform} {s : State}

/-- An instruction is built on both sides or on neither, and if it is, it runs in lockstep. -/
theorem Insn.execute_lockstep (insn : Insn) (h : p₁.Alike w.Reaches p₂) (hw : p₁.windows = w)
    (hs : s.mode = .task) :
    (∃ e, insn.execute s p₁ = .error e ∧ insn.execute s p₂ = .error e) ∨
      ∃ o₁ o₂, insn.execute s p₁ = .ok o₁ ∧ insn.execute s p₂ = .ok o₂ ∧
        Lockstep w p₁ p₂ o₁ o₂ := by
  cases insn.behaviour s with
  | unbuilt e hcsr hex => exact .inl ⟨e, hex p₁, hex p₂⟩
  | silent effects hcsr haddr hex =>
      exact .inr ⟨_, _, hex p₁, hex p₂, effects, p₁, p₂, rfl, rfl, .refl h⟩
  | load addr width use hcsr huse hex =>
      refine .inr ⟨_, _, hex p₁, hex p₂, ?_⟩
      obtain ⟨result, q₁, q₂, h₁, h₂, hm⟩ := Platform.load_lockstep h hw addr width .read
      unfold Platform.loadThen Platform.read
      rw [hs, h₁, h₂]
      cases result <;> exact ⟨_, q₁, q₂, rfl, rfl, hm⟩
  | store addr width value hcsr hex =>
      refine .inr ⟨_, _, hex p₁, hex p₂, ?_⟩
      obtain ⟨result, q₁, q₂, h₁, h₂, hm⟩ :=
        Platform.write_lockstep h hw addr width (width.truncate value)
      unfold Platform.storeLow
      dsimp only
      rw [hs, h₁, h₂]
      cases result <;> exact ⟨_, q₁, q₂, rfl, rfl, hm⟩

end Execute

end TypedCore
