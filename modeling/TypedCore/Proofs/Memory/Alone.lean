import TypedCore.Proofs.Memory.ByteMap
import TypedCore.Proofs.Protection.Lockstep

/-!
# Machines with nothing but memory

The generic and the windowed model attach one memory to the bus and no other
device (`Config.Describes.memory`), and what is attached stays attached whatever
the machine does. There an access that is answered reads the number that memory
spells at its address, or makes memory spell the number it writes; `Ram.Spells` is
that relation. Accesses that are refused leave memory alone.
-/

namespace TypedCore

/-! ## Numbers in memory -/

/-- The addresses of `len` bytes from an address on. -/
def Word.span (a : Word) (len : Nat) : Nat → Prop := fun x => a.toNat ≤ x ∧ x < a.toNat + len

/-- A memory has the bytes of an access, and they spell a value with the low byte first. -/
structure Ram.Spells (r : Ram) (addr : Word) (width : Width) (value : Word) : Prop where
  covers : r.Covers addr width.bytes
  bytes : natOfBytes ((List.range width.bytes).map fun k =>
    r.byte (addr.toNat - r.base.toNat + k)) = value.toNat

theorem Width.pow_bytes_le (w : Width) : 256 ^ w.bytes ≤ 2 ^ 32 := by cases w <;> decide

theorem Width.truncate_lt (w : Width) (v : Word) : (w.truncate v).toNat < 256 ^ w.bytes := by
  have hv := v.isLt
  cases w <;> simp [truncate, bits, bytes] <;> omega

namespace Ram

variable {r : Ram} {addr value : Word} {width : Width}

/-- What is read of a memory is what it spells. -/
theorem spells_ofBytes (hc : r.Covers addr width.bytes) :
    r.Spells addr width (Word.ofBytes ((List.range width.bytes).map fun k =>
      r.byte (addr.toNat - r.base.toNat + k))) := by
  refine ⟨hc, ?_⟩
  have hlt := natOfBytes_lt ((List.range width.bytes).map fun k =>
    r.byte (addr.toNat - r.base.toNat + k))
  rw [List.length_map, List.length_range] at hlt
  rw [Word.ofBytes, BitVec.toNat_ofNat]
  exact (Nat.mod_eq_of_lt (Nat.lt_of_lt_of_le hlt width.pow_bytes_le)).symm

theorem covers_setBytes {i : Nat} {data : List Byte} {len : Nat} (hc : r.Covers addr len) :
    (r.setBytes i data).Covers addr len := by
  unfold Covers
  rw [base_setBytes, size_setBytes]
  exact hc

/-- A number that was written is spelled from then on. -/
theorem spells_setBytes (hc : r.Covers addr width.bytes) (hv : value.toNat < 256 ^ width.bytes) :
    (r.setBytes (addr.toNat - r.base.toNat) (bytesOfNat width.bytes value.toNat)).Spells
      addr width value := by
  refine ⟨covers_setBytes hc, ?_⟩
  have hbytes : ((List.range width.bytes).map fun k =>
      (r.setBytes (addr.toNat - r.base.toNat) (bytesOfNat width.bytes value.toNat)).byte
        (addr.toNat - r.base.toNat + k)) = bytesOfNat width.bytes value.toNat := by
    apply List.ext_getElem (by simp)
    intro k hk hk'
    rw [List.length_map, List.length_range] at hk
    rw [List.getElem_map, List.getElem_range, byte_setBytes, length_bytesOfNat, if_pos (by omega),
      Nat.add_sub_cancel_left, List.getD_eq_getElem?_getD, List.getElem?_eq_getElem hk',
      Option.getD_some]
  have hpow : 1 <<< (8 * width.bytes) = 256 ^ width.bytes := by
    rw [Nat.one_shiftLeft, Nat.pow_mul]
  rw [base_setBytes, hbytes, natOfBytes_bytesOfNat, hpow, Nat.mod_eq_of_lt hv]

theorem changedIn_setBytes {len : Nat} {data : List Byte} (hc : r.Covers addr len)
    (hlen : data.length = len) :
    r.ChangedIn (addr.span len) (r.setBytes (addr.toNat - r.base.toNat) data) := by
  subst hlen
  refine .setBytes hc fun k hk => ?_
  exact ⟨by omega, by omega⟩

end Ram

/-! ## Accesses -/

namespace Platform

variable {p q : Platform} {r : Ram} {mode : Mode} {addr value : Word} {width : Width}
  {access : Access}

theorem SameContents.memory (h : p.SameContents q) (hr : p.bus.devices = [.ram r]) :
    q.bus.devices = [.ram r] := by
  have hmap : q.bus.devices.map Device.settled = [.ram r] := by
    rw [h.devices, hr]
    rfl
  obtain ⟨d, hd, hsettled⟩ := List.map_eq_singleton_iff.mp hmap
  cases d <;> cases hsettled
  exact hd

theorem load_memory (hr : p.bus.devices = [.ram r]) (mode : Mode) (addr : Word) (width : Width)
    (access : Access) : (p.load mode addr width access).2.bus.devices = [.ram r] := by
  obtain ⟨i, hi⟩ := load_ram hr mode addr width access
  rw [hi]
  exact hr

theorem aligned_of_load (h : p.load mode addr width access = (.ok value, q)) :
    width.isAligned addr = true := by
  unfold load at h
  split at h
  · assumption
  · cases h

theorem aligned_of_write (h : p.write mode addr width value = (.ok (), q)) :
    width.isAligned addr = true := by
  unfold write at h
  split at h
  · assumption
  · cases h

/-- What is read is what memory spells at the bus address. -/
theorem load_spells (hr : p.bus.devices = [.ram r])
    (h : p.load mode addr width access = (.ok value, q)) :
    ∃ a, p.physical mode addr access = .ok a ∧ r.Spells a width value := by
  have hal := aligned_of_load h
  cases hp : p.physical mode addr access with
  | error fault => rw [load_denied hal hp] at h; cases h
  | ok a =>
      rw [load_allowed hal hp, Bus.readBytes_ram hr] at h
      by_cases hc : r.Covers a width.bytes
      · rw [if_pos hc] at h
        obtain rfl := Except.ok.inj (Prod.mk.inj h).1
        exact ⟨a, rfl, Ram.spells_ofBytes hc⟩
      · rw [if_neg hc] at h
        cases h

/-- A write that is answered replaces the bytes at the bus address. -/
theorem write_memory (hr : p.bus.devices = [.ram r])
    (h : p.write mode addr width value = (.ok (), q)) :
    ∃ a, p.physical mode addr .write = .ok a ∧ r.Covers a width.bytes ∧
      q.bus.devices =
        [.ram (r.setBytes (a.toNat - r.base.toNat) (bytesOfNat width.bytes value.toNat))] := by
  have hal := aligned_of_write h
  cases hp : p.physical mode addr .write with
  | error fault => rw [write_denied hal hp] at h; cases h
  | ok a =>
      rw [write_allowed hal hp, Bus.writeBytes_ram hr, length_bytesOfNat] at h
      by_cases hc : r.Covers a width.bytes
      · rw [if_pos hc] at h
        obtain rfl := (Prod.mk.inj h).2
        exact ⟨a, rfl, hc, rfl⟩
      · rw [if_neg hc] at h
        cases h

end Platform

/-! ## Configured machines -/

/-- A machine with the model, the environment and the devices of a configuration, with memory
from a given address on. What is in memory and in the processor may be anything. -/
structure Config.Describes (c : Config) (base : Word) (m : Machine) : Prop where
  model : m.platform.model = c.model
  environment : m.environment = c.environment
  layout : m.platform.bus.layout = (Platform.ofConfigAt c base).bus.layout

theorem Bus.memory_of_layout {b : Bus} {r : Ram} (h : b.layout = [(Device.ram r).blank]) :
    ∃ s : Ram, b.devices = [.ram s] ∧ s.base = r.base ∧ s.size = r.size := by
  obtain ⟨d, hd, hblank⟩ := List.map_eq_singleton_iff.mp h
  cases d with
  | ram s =>
      have hs := Device.ram.inj hblank
      exact ⟨s, hd, (Ram.mk.inj hs).1, (Ram.mk.inj hs).2.1⟩
  | console c => cases hblank
  | gpio g => cases hblank

namespace Config.Describes

variable {σ : Type} {c : Config} {base : Word} {m : Machine}

theorem ofConfig (c : Config) (base : Word) :
    c.Describes base (.ofConfig c (.ofConfigAt c base)) := ⟨rfl, rfl, rfl⟩

theorem load (h : c.Describes base m) (image : Image) (args : List (List Byte)) (sp : Word) :
    c.Describes base (m.load image args sp).2 where
  model := (m.load_evolves image args sp).model.trans h.model
  environment := by
    rw [← h.environment]
    unfold Machine.load
    split
    · rfl
    · dsimp only
      split <;> rfl
  layout := (m.load_evolves image args sp).bus.layout.trans h.layout

theorem step (h : c.Describes base m) (host : Host σ) (s : σ) :
    c.Describes base (m.step host s).machine where
  model := (m.step_evolves host s).model.trans h.model
  environment := (m.step_environment host s).trans h.environment
  layout := (m.step_evolves host s).bus.layout.trans h.layout

/-- A configuration describes its machine for as long as that runs. -/
theorem run (h : c.Describes base m) (host : Host σ) (s : σ) (acts : List Action) :
    c.Describes base (m.run host s acts).1 := by
  induction acts generalizing m s with
  | nil => exact h
  | cons a acts ih =>
      cases a with
      | step => exact ih (h.step host s) _
      | interrupt =>
          have hm : c.Describes base m.raiseInterrupt := ⟨h.model, h.environment, h.layout⟩
          exact ih hm s
      | load image args sp => exact ih (h.load image args sp) s

/-- Only the peripheral model has more than memory. -/
theorem memory (h : c.Describes base m) (hc : c.model ≠ .peripheral) :
    ∃ r : Ram, m.platform.bus.devices = [.ram r] := by
  obtain ⟨r, hr⟩ : ∃ r : Ram, (Platform.ofConfigAt c base).bus.layout = [(Device.ram r).blank] := by
    unfold Platform.ofConfigAt Config.devicesAt
    cases hm : c.model with
    | generic => exact ⟨_, rfl⟩
    | windowed => exact ⟨_, rfl⟩
    | peripheral => exact absurd hm hc
  obtain ⟨s, hs, -⟩ := Bus.memory_of_layout (h.layout.trans hr)
  exact ⟨s, hs⟩

end Config.Describes

end TypedCore
