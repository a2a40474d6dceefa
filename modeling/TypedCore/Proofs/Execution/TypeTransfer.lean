import Mathlib.Data.List.Basic
import TypedCore.Proofs.Execution.StoreLoad
import TypedCore.Proofs.HostFaults.Atomic
import TypedCore.Proofs.Lanes.Layout
import TypedCore.Proofs.Models.Agreement

/-!
# Saving and restoring register types

A bulk store of the types of half the registers packs a nibble for each into a
word, and a bulk load takes them out again (`nibbleType_packTypes`). Every type is
the decoding of its code, so nothing is lost on the way, not even a type without a
meaning of its own.

The word travels through memory. Which of the devices answers is settled by the
fetch just before: only memory answers that, and the bus tries the device first
that it used last. So both instructions reach memory wherever memory has the word,
on every model and with every layout of devices, and `Bus.wordAt?` is what they
write and read there.
-/

namespace TypedCore

/-! ## Packing -/

theorem toNat_packTypes (regs : RegFile) (half : RegHalf) :
    (packTypes regs half).toNat =
      packLanes 4 (half.regs.map fun r => (regs.read r).type.code.toNat) := by
  have hlt := packLanes_lt 4 (half.regs.map fun r => (regs.read r).type.code.toNat)
  have hlen : (half.regs.map fun r => (regs.read r).type.code.toNat).length ≤ 8 := by
    cases half <;> simp [RegHalf.regs, RegHalf.size]
  have hpow : 2 ^ ((half.regs.map fun r => (regs.read r).type.code.toNat).length * 4) ≤ 2 ^ 32 :=
    Nat.pow_le_pow_right (by decide) (by omega)
  rw [packTypes, BitVec.toNat_ofNat, Nat.mod_eq_of_lt (by omega)]

/-- Each nibble of the packed word is the type of its register. -/
theorem nibbleType_packTypes (regs : RegFile) {half : RegHalf} {i : Nat} (hi : i < half.size) :
    nibbleType (packTypes regs half) i = (regs.read (half.first + i)).type := by
  have hget : (half.regs.map fun r => (regs.read r).type.code.toNat)[i]? =
      some (regs.read (half.first + i)).type.code.toNat := by
    simp [RegHalf.regs, hi]
  have hnibble : (packTypes regs half >>> (4 * i)).setWidth 4 =
      (regs.read (half.first + i)).type.code := by
    apply BitVec.eq_of_toNat_eq
    rw [BitVec.toNat_setWidth, BitVec.toNat_ushiftRight, toNat_packTypes,
      Nat.shiftRight_eq_div_pow, Nat.mul_comm, packLanes_digit, hget, Option.getD_some]
    exact Nat.mod_eq_of_lt (BitVec.isLt _)
  rw [nibbleType, RegType.ofWord, hnibble, RegType.ofCode_code]

namespace RegHalf

theorem mem_regs {half : RegHalf} {i : Nat} :
    i ∈ half.regs ↔ half.first ≤ i ∧ i < half.first + half.size := by
  simp only [regs, List.mem_map, List.mem_range]
  constructor
  · rintro ⟨k, hk, rfl⟩
    omega
  · rintro ⟨hlow, hhigh⟩
    exact ⟨i - half.first, by omega, by omega⟩

end RegHalf

/-- Loading types gives each register of the half the type in its nibble, and leaves its value. -/
theorem lookup_loadTypes (regs : RegFile) (half : RegHalf) (types : Word) (i : Nat) :
    (loadTypes regs half types).writes.lookup i =
      if i ∈ half.regs then some ((regs.read i).withType (nibbleType types (i - half.first)))
      else none := by
  have hwrites : (loadTypes regs half types).writes =
      half.regs.map fun r => (r, (regs.read r).withType (nibbleType types (r - half.first))) := by
    simp [loadTypes, RegHalf.regs, Function.comp_def]
  rw [hwrites]
  by_cases hi : i ∈ half.regs
  · rw [if_pos hi, List.lookup_graph _ hi]
  · rw [if_neg hi, List.lookup_eq_none_iff]
    intro w hw
    obtain ⟨r, hr, rfl⟩ := List.mem_map.mp hw
    have hne : i ≠ r := fun heq => hi (heq ▸ hr)
    simpa using hne

/-! ## Words in memory -/

namespace Bus

/-- The word that memory spells at a bus address, if memory has all of its bytes. -/
def wordAt? (b : Bus) (a : Word) : Option Word :=
  b.ram?.bind fun r =>
    if r.Covers a 4 then
      some (Word.ofBytes ((List.range 4).map fun k => r.byte (a.toNat - r.base.toNat + k)))
    else none

variable {b : Bus} {k : Nat} {r : Ram} {a : Word}

theorem ram?_eq (hone : b.RamAt k) (hk : b.devices[k]? = some (.ram r)) : b.ram? = some r := by
  unfold ram?
  cases hfind : b.devices.findSome? _ with
  | none =>
      have hnone := List.findSome?_eq_none_iff.mp hfind _ (List.mem_of_getElem? hk)
      cases hnone
  | some s =>
      obtain ⟨d, hd, hs⟩ := List.exists_of_findSome?_eq_some hfind
      cases d with
      | ram t =>
          obtain ⟨i, hi⟩ := List.getElem?_of_mem hd
          obtain rfl := Option.some.inj hs
          obtain rfl := hone i t hi
          obtain rfl := Device.ram.inj (Option.some.inj (hi.symm.trans hk))
          rfl
      | console c => cases hs
      | gpio g => cases hs

/-- The word at an address is what the one memory spells there. -/
theorem wordAt?_eq_some_iff (hone : b.RamAt k) (hk : b.devices[k]? = some (.ram r)) {v : Word} :
    b.wordAt? a = some v ↔ r.Spells a .word v := by
  unfold wordAt?
  rw [ram?_eq hone hk, Option.bind_some]
  by_cases hc : r.Covers a 4
  · rw [if_pos hc, Option.some.injEq]
    have hword : r.Covers a Width.word.bytes := hc
    have hspells : r.Spells a .word _ := Ram.spells_ofBytes hword
    exact ⟨fun h => h ▸ hspells, fun h => hspells.unique h⟩
  · rw [if_neg hc]
    exact ⟨nofun, fun h => absurd h.covers hc⟩

end Bus

namespace Platform

variable {p : Platform} {k : Nat} {r : Ram} {mode : Mode} {addr a v : Word} {width : Width}
  {access : Access}

/-- Right after memory was used, what it has is read from it, whatever else has the address. -/
theorem load_last (hk : p.bus.devices[k]? = some (.ram r)) (hal : width.isAligned addr = true)
    (hphys : p.physical mode addr access = .ok a) (hspells : r.Spells a width v) :
    (p.usedLast k).load mode addr width access = (.ok v, p.usedLast k) := by
  have hk' : (p.usedLast k).bus.devices[k]? = some (.ram r) := hk
  have howns : (p.usedLast k).bus.owns a width.bytes k = true :=
    (Bus.owns_eq_covers hk').trans (decide_eq_true hspells.covers)
  have hroute : (p.usedLast k).bus.route a width.bytes = some k :=
    Bus.route_last (b := (p.usedLast k).bus) howns
  exact load_of_route (p := p.usedLast k) hk hroute hal hphys hspells

/-- Right after memory was used, what it has is written to it. -/
theorem write_last (hk : p.bus.devices[k]? = some (.ram r)) (hal : width.isAligned addr = true)
    (hphys : p.physical mode addr .write = .ok a) (hc : r.Covers a width.bytes)
    (hv : v.toNat < 256 ^ width.bytes) :
    ∃ q r', (p.usedLast k).write mode addr width v = (.ok (), q) ∧
      q.bus.devices[k]? = some (.ram r') ∧ r'.Spells a width v := by
  have hlen : (bytesOfNat width.bytes v.toNat).length = width.bytes := length_bytesOfNat _ _
  have hk' : (p.usedLast k).bus.devices[k]? = some (.ram r) := hk
  have hc' : r.Covers a (bytesOfNat width.bytes v.toNat).length := by
    rw [hlen]
    exact hc
  have howns : (p.usedLast k).bus.owns a (bytesOfNat width.bytes v.toNat).length k = true :=
    (Bus.owns_eq_covers hk').trans (decide_eq_true hc')
  have hroute : (p.usedLast k).bus.route a (bytesOfNat width.bytes v.toNat).length = some k :=
    Bus.route_last (b := (p.usedLast k).bus) howns
  have hphys' : (p.usedLast k).physical mode addr .write = .ok a := hphys
  rw [write_allowed hal hphys', Bus.writeBytes_of_route hroute hk' hc', if_pos rfl]
  exact ⟨_, _, rfl, List.getElem?_set_self (List.getElem?_eq_some_iff.mp hk).1,
    Ram.spells_setBytes hc hv⟩

end Platform

/-! ## Transfers -/

namespace Machine

variable {σ : Type} {m n : Machine} {k : Nat} {half : RegHalf} {mem mem' : MemRef}
  {access : Access} {a v : Word}

/-- A reference is to the word at a bus address: it resolves to an aligned address that the current
mode may access and that is translated to the bus address, and memory has the word there. No other
device takes an access of four bytes. -/
def RefersTo (m : Machine) (mem : MemRef) (access : Access) (a : Word) : Prop :=
  ∃ addr, mem.resolve m.state.regs = .ok addr ∧ Width.word.isAligned addr = true ∧
    m.platform.physical m.state.mode addr access = .ok a ∧ m.platform.bus.inRam a 4 = true

theorem RefersTo.memory (h : m.RefersTo mem access a) (hone : m.platform.bus.RamAt k) :
    ∃ addr r, mem.resolve m.state.regs = .ok addr ∧ Width.word.isAligned addr = true ∧
      m.platform.physical m.state.mode addr access = .ok a ∧
      m.platform.bus.devices[k]? = some (.ram r) ∧ r.Covers a 4 := by
  obtain ⟨addr, hres, hal, hphys, hin⟩ := h
  obtain ⟨d, hd, hboth⟩ := List.any_eq_true.mp hin
  obtain ⟨hram, hcovers⟩ := Bool.and_eq_true_iff.mp hboth
  obtain ⟨i, hi⟩ := List.getElem?_of_mem hd
  cases d with
  | ram r =>
      obtain rfl := hone i r hi
      exact ⟨addr, r, hres, hal, hphys, hi, Device.covers_iff.mp hcovers⟩
  | console c => cases hram
  | gpio g => cases hram

/-- What was fetched was memory's answer. -/
theorem fetched_ramAt {insn : Insn} (hone : m.platform.bus.RamAt k) (hi : m.insn? = some insn) :
    m.fetched.2 = m.platform.usedLast k :=
  (fetched_again (n := { m with platform := m.platform.usedLast k }) hone hi
    ⟨rfl, rfl, rfl, rfl⟩ rfl).1

/-- A bulk store completes, changes no register and leaves the packed types in memory. -/
theorem storeTypes_stored (hone : m.platform.bus.RamAt k)
    (hi : m.insn? = some (.storeTypesMem half mem)) (href : m.RefersTo mem .write a)
    (host : Host σ) (h : σ) :
    m.raised = .none ∧ (∀ i, (m.step host h).machine.state.regs.read i = m.state.regs.read i) ∧
      (m.step host h).machine.platform.bus.wordAt? a = some (packTypes m.state.regs half) := by
  obtain ⟨addr, r, hres, hal, hphys, hk, hc⟩ := href.memory hone
  have hlow : Width.word.truncate (packTypes m.state.regs half) = packTypes m.state.regs half := by
    rw [Width.truncate_eq]
    exact (BitVec.setWidth_eq _).trans (BitVec.setWidth_eq _)
  have hfits : (packTypes m.state.regs half).toNat < 256 ^ Width.word.bytes :=
    (packTypes m.state.regs half).isLt
  obtain ⟨q, r', hwrite, hq, hspells⟩ := Platform.write_last hk hal hphys hc hfits
  have ha : m.attempt =
      .ok ({ record := some ⟨addr, .word, true, packTypes m.state.regs half⟩ }, q) := by
    have hexecute : m.attempt = .ok ((m.platform.usedLast k).storeLow m.state.mode addr .word
        (packTypes m.state.regs half)) := by
      rw [m.attempt_of_insn? hi, fetched_ramAt hone hi]
      simp only [Insn.execute, show mem.resolve m.begun.regs = .ok addr from hres]
      rfl
    rw [hexecute, Platform.storeLow, hlow, hwrite]
  obtain ⟨-, hregs, hsame⟩ := step_completed ha rfl rfl host h
  have hone' : (m.step host h).machine.platform.bus.RamAt k :=
    hone.of_layout (m.step_evolves host h).bus.layout
  exact ⟨raised_eq ha, hregs, (Bus.wordAt?_eq_some_iff hone' (hsame.ram hq)).mpr hspells⟩

/-- A bulk load completes and gives each register of the half its nibble of the word as type. -/
theorem loadTypes_loaded (hone : m.platform.bus.RamAt k)
    (hi : m.insn? = some (.loadTypesMem half mem)) (href : m.RefersTo mem .read a)
    (hword : m.platform.bus.wordAt? a = some v) (host : Host σ) (h : σ) :
    m.raised = .none ∧ (∃ halt, (m.step host h).result = .ok halt) ∧
      ∀ i, (m.step host h).machine.state.regs.read i =
        if i ∈ half.regs then (m.state.regs.read i).withType (nibbleType v (i - half.first))
        else m.state.regs.read i := by
  obtain ⟨addr, r, hres, hal, hphys, hk, -⟩ := href.memory hone
  have hspells : r.Spells a .word v := (Bus.wordAt?_eq_some_iff hone hk).mp hword
  have hread : (m.platform.usedLast k).read m.state.mode addr .word =
      (.ok v, m.platform.usedLast k) := Platform.load_last hk hal hphys hspells
  have ha : m.attempt = .ok ({ TypedCore.loadTypes m.state.regs half v with
      record := some ⟨addr, .word, false, v⟩ }, m.platform.usedLast k) := by
    have hexecute : m.attempt = .ok ((m.platform.usedLast k).loadThen m.state.mode addr .word
        fun v => TypedCore.loadTypes m.state.regs half v) := by
      rw [m.attempt_of_insn? hi, fetched_ramAt hone hi]
      simp only [Insn.execute, show mem.resolve m.begun.regs = .ok addr from hres]
      rfl
    rw [hexecute, Platform.loadThen, hread]
  obtain ⟨hresult, hregs, -⟩ := step_completed ha rfl rfl host h
  refine ⟨raised_eq ha, ⟨_, hresult⟩, fun i => ?_⟩
  rw [hregs i]
  dsimp only
  rw [lookup_loadTypes]
  split <;> rfl

/-- Register types come back from memory as they were stored. A bulk store completes and changes no
register; a bulk load of the same half, of the same word in memory, from a machine in which that
word is still as the store left it, completes and gives every register of the half the type it had
at the store, with the value it has now. The other half stays as it is. The two instructions may
name the word by different references and in different modes, and in between anything may have
happened to the machine. -/
theorem types_restored (hm : m.Reachable) (hn : n.Reachable)
    (hstore : m.insn? = some (.storeTypesMem half mem)) (hto : m.RefersTo mem .write a)
    (hload : n.insn? = some (.loadTypesMem half mem')) (hfrom : n.RefersTo mem' .read a)
    (host : Host σ) (h : σ) (host' : Host σ) (h' : σ)
    (hword : n.platform.bus.wordAt? a = (m.step host h).machine.platform.bus.wordAt? a) :
    m.raised = .none ∧ (m.step host h).machine.state.regs = m.state.regs ∧
      n.raised = .none ∧ (∃ halt, (n.step host' h').result = .ok halt) ∧
      ∀ i, (n.step host' h').machine.state.regs.read i =
        if i ∈ half.regs then ⟨(n.state.regs.read i).value, (m.state.regs.read i).type⟩
        else n.state.regs.read i := by
  obtain ⟨k, hone⟩ := hm.oneRam.ramAt
  obtain ⟨j, hone'⟩ := hn.oneRam.ramAt
  obtain ⟨hdone, hregs, hstored⟩ := storeTypes_stored hone hstore hto host h
  obtain ⟨hdone', hresult, hloaded⟩ :=
    loadTypes_loaded hone' hload hfrom (hword.trans hstored) host' h'
  refine ⟨hdone, RegFile.ext_read hregs, hdone', hresult, fun i => ?_⟩
  rw [hloaded i]
  by_cases hi : i ∈ half.regs
  · obtain ⟨hlow, hhigh⟩ := RegHalf.mem_regs.mp hi
    rw [if_pos hi, if_pos hi, nibbleType_packTypes _ (show i - half.first < half.size by omega),
      Nat.add_sub_cancel' hlow]
    rfl
  · rw [if_neg hi, if_neg hi]

/-- A task about to store the types of `$r8` to `$r14` at the address in `$r5`. Two of them have no
meaning of their own, and one is `mask`. -/
def typesToSave : Machine where
  state :=
    { regs := (((RegFile.set {} 5 (.int 0x200)).set 8 ⟨1, .reserved ⟨0, by decide⟩⟩).set 9
        ⟨2, .mask⟩).set 14 ⟨3, .reserved ⟨5, by decide⟩⟩ }
  platform :=
    { model := .generic
      bus := { devices := [.ram (Ram.setBytes ⟨0, 4096, ∅⟩ 0 [0x05, 0xee, 0x16, 0xec])] } }
  environment := .operating

/-- The machine after the store, with other registers. It is about to load the types from 4 behind
the address in `$r6`. -/
def typesSaved : Machine :=
  let next := (typesToSave.step Host.noting none).machine
  { next with state := { next.state with
    regs := ((RegFile.set {} 6 (.int 0x1fc)).set 8 ⟨7, .int8x4⟩).set 14 ⟨9, .fp32⟩ } }

theorem types_restored_typesSaved :
    typesToSave.Reachable ∧ typesSaved.Reachable ∧
      typesToSave.insn? = some (.storeTypesMem .high (.ofBaseOffset 5 0)) ∧
      typesSaved.insn? = some (.loadTypesMem .high (.ofBaseOffset 6 4)) ∧
      let after := (typesSaved.step Host.noting none).machine.state.regs
      after.read 8 = ⟨7, .reserved 0⟩ ∧ after.read 9 = ⟨0, .mask⟩ ∧
        after.read 14 = ⟨9, .reserved 5⟩ ∧ after.read 6 = .int 0x1fc := by
  have hm : typesToSave.Reachable :=
    .changed (.built { environment := .operating, ramSize := 4096 } 0) rfl
  have hn : typesSaved.Reachable := .changed (.acted hm Host.noting none .step) rfl
  have hstore : typesToSave.insn? = some (.storeTypesMem .high (.ofBaseOffset 5 0)) := by
    decide +kernel
  have hload : typesSaved.insn? = some (.loadTypesMem .high (.ofBaseOffset 6 4)) := by
    decide +kernel
  have hto : typesToSave.RefersTo (.ofBaseOffset 5 0) .write 0x200 :=
    ⟨0x200, by rfl, by decide, rfl, by decide +kernel⟩
  have hfrom : typesSaved.RefersTo (.ofBaseOffset 6 4) .read 0x200 :=
    ⟨0x200, by rfl, by decide, by rfl, by decide +kernel⟩
  obtain ⟨-, -, -, -, hread⟩ := types_restored hm hn hstore hto hload hfrom Host.noting none
    Host.noting none rfl
  refine ⟨hm, hn, hstore, hload, ?_, ?_, ?_, ?_⟩
  · exact (hread 8).trans (by decide +kernel)
  · exact (hread 9).trans (by decide +kernel)
  · exact (hread 14).trans (by decide +kernel)
  · exact (hread 6).trans (by decide +kernel)

end Machine

end TypedCore
