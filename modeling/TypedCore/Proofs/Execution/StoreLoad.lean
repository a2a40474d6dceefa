import TypedCore.Proofs.Execution.Completed
import TypedCore.Proofs.Memory.Record
import TypedCore.Proofs.Protection.Ownership

/-!
# What is loaded after a store

A load that follows a store of its width to the same effective address finds what
was stored (`Machine.load_after_store`). Whatever the form of the two references, an
instruction enters into this only by the address it resolves; and alignment,
translation and what memory covers are the same for both.

The number in between is the one that memory spells (`Ram.Spells`): a store makes
memory spell the low part of its register, and a load extends what memory spells.
-/

namespace TypedCore

/-! ## Extension -/

namespace MemOp

/-- What a load puts into its register once the low part of `v` is in memory: that part, with its
sign or with zeros above it. -/
def loaded (op : MemOp) (v : Word) : Word :=
  match op with
  | load width true => (v.setWidth width.bits).signExtend 32
  | op => (v.setWidth op.width.bits).setWidth 32

/-- How a load extends what it read. -/
def extend (op : MemOp) (v : Word) : Word :=
  match op with
  | load width signed => width.extend signed v
  | _ => v

end MemOp

theorem Width.truncate_eq (w : Width) (v : Word) :
    w.truncate v = (v.setWidth w.bits).setWidth 32 := by
  apply BitVec.eq_of_toNat_eq
  simp only [truncate, BitVec.toNat_ofNat, BitVec.toNat_setWidth, Nat.one_shiftLeft]

/-- The low part of a low part is that part. -/
theorem Width.setWidth_truncate (w : Width) (v : Word) :
    (w.truncate v).setWidth w.bits = v.setWidth w.bits := by
  rw [truncate_eq, BitVec.setWidth_setWidth_of_le, BitVec.setWidth_eq]
  cases w <;> decide

theorem MemOp.extend_truncate (op : MemOp) (v : Word) :
    op.extend (op.width.truncate v) = op.loaded v := by
  cases op with
  | load width signed =>
      have hlow := width.setWidth_truncate v
      have htruncate := width.truncate_eq v
      cases width <;> cases signed
      · exact htruncate
      · exact congrArg (BitVec.signExtend 32) hlow
      · exact htruncate
      · exact congrArg (BitVec.signExtend 32) hlow
      · exact htruncate
      · -- A word has nothing above it to extend.
        calc Width.word.truncate v = (v.setWidth 32).setWidth 32 := htruncate
          _ = (v.setWidth 32).signExtend 32 := by simp
  | loadLinked => exact Width.word.truncate_eq v
  | store width => exact width.truncate_eq v
  | storeConditional => exact Width.word.truncate_eq v

/-! ## Instructions -/

namespace Insn

variable {op : MemOp} {reg : Nat} {mem : MemRef} {s : State} {addr : Word}

theorem execute_store (hstore : op.isStore = true) (hres : mem.resolve s.regs = .ok addr)
    (p : Platform) :
    (memory op reg mem).execute s p =
      .ok (p.storeLow s.mode addr op.width (s.regs.read reg).value) := by
  cases op with
  | store width => simp only [execute, executeMemory, hres]; rfl
  | storeConditional => simp only [execute, executeMemory, hres]; rfl
  | load width signed => cases hstore
  | loadLinked => cases hstore

theorem execute_load (hload : op.isStore = false) (hres : mem.resolve s.regs = .ok addr)
    (p : Platform) :
    (memory op reg mem).execute s p =
      .ok (p.loadThen s.mode addr op.width fun v =>
        .write reg ⟨op.extend v, (s.regs.read reg).type⟩) := by
  cases op with
  | load width signed => simp only [execute, executeMemory, hres]; rfl
  | loadLinked => simp only [execute, executeMemory, hres]; rfl
  | store width => cases hload
  | storeConditional => cases hload

end Insn

/-- Register files with the same registers are the same. -/
theorem RegFile.ext_read {f g : RegFile} (h : ∀ i, f.read i = g.read i) : f = g := by
  obtain ⟨v⟩ := f
  obtain ⟨w⟩ := g
  congr 1
  ext i hi
  have hread := h i
  simp only [read, Vector.getElem?_eq_getElem hi, Option.getD_some] at hread
  exact hread

/-! ## Memory -/

/-- Memory spells one number at an address. -/
theorem Ram.Spells.unique {r : Ram} {addr v v' : Word} {width : Width}
    (h : r.Spells addr width v) (h' : r.Spells addr width v') : v = v' :=
  BitVec.eq_of_toNat_eq (h.bytes.symm.trans h'.bytes)

namespace Platform

variable {p q : Platform} {r : Ram} {mode : Mode} {addr a value : Word} {width : Width}

/-- Data is read through the window it is written through. -/
theorem physical_read (p : Platform) (mode : Mode) (addr : Word) :
    p.physical mode addr .read = p.physical mode addr .write := rfl

/-- What memory spells is read, where the access goes to memory. -/
theorem load_of_route {k : Nat} {access : Access} (hk : p.bus.devices[k]? = some (.ram r))
    (hroute : p.bus.route a width.bytes = some k) (hal : width.isAligned addr = true)
    (hphys : p.physical mode addr access = .ok a) (hspells : r.Spells a width value) :
    p.load mode addr width access = (.ok value, p.usedLast k) := by
  rw [load_allowed hal hphys, Bus.readBytes_of_route hroute hk hspells.covers,
    hspells.unique (Ram.spells_ofBytes hspells.covers)]
  rfl

/-- What memory spells can be read where there is no other device. -/
theorem load_of_spells (hr : p.bus.devices = [.ram r]) {access : Access}
    (hal : width.isAligned addr = true) (hphys : p.physical mode addr access = .ok a)
    (hspells : r.Spells a width value) :
    ∃ q, p.load mode addr width access = (.ok value, q) := by
  have hroute : p.bus.route a width.bytes = some 0 := by
    rw [Bus.route_ram hr, if_pos hspells.covers]
  exact ⟨_, load_of_route (by rw [hr]; rfl) hroute hal hphys hspells⟩

end Platform

/-! ## Steps -/

namespace Machine

variable {σ : Type} {m n : Machine} {r : Ram} {op : MemOp} {reg : Nat} {mem : MemRef}
  {addr v : Word}

/-- A machine whose memory spells a value where its data accesses at an address go. -/
def Finds (m : Machine) (addr : Word) (width : Width) (v : Word) : Prop :=
  width.isAligned addr = true ∧
    ∃ a r, m.platform.physical m.state.mode addr .read = .ok a ∧
      m.platform.bus.devices = [.ram r] ∧ r.Spells a width v

theorem fetched_finds {width : Width} (h : m.Finds addr width v) :
    ∃ q, m.fetched.2.read m.state.mode addr width = (.ok v, q) := by
  obtain ⟨hal, a, r, hphys, hr, hspells⟩ := h
  obtain ⟨i, hi⟩ := m.fetched_usedLast
  rw [hi]
  exact Platform.load_of_spells (p := m.platform.usedLast i) hr hal hphys hspells

/-- A store either faults, or completes and is found. -/
theorem store_cases (hr : m.platform.bus.devices = [.ram r]) (hstore : op.isStore = true)
    (hi : m.insn? = some (.memory op reg mem)) (hres : mem.resolve m.state.regs = .ok addr)
    (host : Host σ) (h : σ) :
    (m.raised = .unaligned ∨ m.raised = .memoryViolation) ∨
      (∀ i, (m.step host h).machine.state.regs.read i = m.state.regs.read i) ∧
        ∀ n : Machine, n.platform = (m.step host h).machine.platform →
          n.state.mode = m.state.mode →
          n.Finds addr op.width (op.width.truncate (m.state.regs.read reg).value) := by
  have ha := (m.attempt_of_insn? hi).trans (Insn.execute_store hstore hres m.fetched.2)
  cases hdone : m.fetched.2.storeLow m.state.mode addr op.width (m.state.regs.read reg).value with
  | mk effects p =>
      rw [hdone] at ha
      rcases Platform.storeLow_cases hdone with ⟨hwrite, rfl⟩ | ⟨fault, hwrite, rfl⟩
      · right
        obtain ⟨-, hregs, hsame⟩ := step_completed ha rfl rfl host h
        obtain ⟨a, hphys, hcovers, hp⟩ := Platform.write_memory (fetched_memory hr) hwrite
        have hwindows := (attempt_sameWindows ha).trans (.ofContents hsame)
        refine ⟨hregs, fun n hn hmode => ⟨Platform.aligned_of_write hwrite, a, _, ?_, ?_,
          Ram.spells_setBytes hcovers (op.width.truncate_lt _)⟩⟩
        · rw [hn, hmode, Platform.physical_congr hwindows.model hwindows.windows,
            Platform.physical_read, ← fetched_physical]
          exact hphys
        · rw [hn]
          exact hsame.memory hp
      · left
        rw [raised_eq ha]
        rcases Platform.write_fault hwrite with rfl | rfl
        · exact .inl rfl
        · exact .inr rfl

/-- A load puts what it finds into its register, and changes no other. -/
theorem load_found (hload : op.isStore = false) (hi : m.insn? = some (.memory op reg mem))
    (hres : mem.resolve m.state.regs = .ok addr) (hfinds : m.Finds addr op.width v)
    (host : Host σ) (h : σ) :
    m.raised = .none ∧ (m.step host h).result = .ok none ∧
      ∀ i, (m.step host h).machine.state.regs.read i =
        if i = reg then ⟨op.extend v, (m.state.regs.read reg).type⟩ else m.state.regs.read i := by
  obtain ⟨q, hread⟩ := fetched_finds hfinds
  have ha := (m.attempt_of_insn? hi).trans (Insn.execute_load hload hres m.fetched.2)
  rw [Platform.loadThen, hread] at ha
  obtain ⟨hresult, hregs, -⟩ := step_completed ha rfl rfl host h
  obtain ⟨-, a, r, -, hr, -⟩ := hfinds
  have hq : q.bus.devices = [.ram r] := by
    have hmemory := Platform.load_memory (fetched_memory hr) m.state.mode addr op.width .read
    rw [show m.fetched.2.load m.state.mode addr op.width .read = _ from hread] at hmemory
    exact hmemory
  refine ⟨raised_eq ha, ?_, fun i => ?_⟩
  · rw [hresult, Bus.takeExit_ram hq]
  · rw [hregs i]
    dsimp only
    rw [Effects.lookup_write]
    split <;> rfl

/-- A store changes no register, whether it faults or not. If it does not, a load of the same width
from the same effective address that comes next in the same mode does not fault either, and it puts
the low bits of the stored register into its destination: with their sign or with zeros above them,
as the load has it, and with the type that the destination had. How the two references come to
their address does not matter. -/
theorem load_after_store {c : Config} {base : Word} (hm : c.Describes base m)
    (hc : c.model ≠ .peripheral) {store : MemOp} (hstore : store.isStore = true)
    (hi : m.insn? = some (.memory store reg mem)) (host : Host σ) (h : σ) :
    let next := (m.step host h).machine
    next.state.regs = m.state.regs ∧
      (m.raised = .none → ∀ (n : Machine) (load : MemOp) (rd : Nat) (mem' : MemRef)
          (host' : Host σ) (h' : σ),
        n.platform = next.platform → n.state.mode = m.state.mode →
        n.insn? = some (.memory load rd mem') → load.isStore = false →
        load.width = store.width → mem'.resolve n.state.regs = mem.resolve m.state.regs →
        n.raised = .none ∧ (n.step host' h').result = .ok none ∧
          ∀ i, (n.step host' h').machine.state.regs.read i =
            if i = rd then
              ⟨load.loaded (m.state.regs.read reg).value, (n.state.regs.read rd).type⟩
            else n.state.regs.read i) := by
  intro next
  obtain ⟨r, hr⟩ := hm.memory hc
  obtain ⟨addr, hres⟩ := MemRef.resolve_ok ((m.insn?_valid hi).isNamed mem rfl) m.state.regs
  rcases store_cases hr hstore hi hres host h with hfault | ⟨hregs, hfinds⟩
  · have hraised : m.raised.isRaised = true := by rcases hfault with h | h <;> rw [h] <;> rfl
    have hsys : m.raised ≠ .syscall := by rcases hfault with h | h <;> rw [h] <;> decide
    obtain ⟨hkept, -⟩ := step_precise m host h hraised fun hreaches => hsys hreaches.2.1
    refine ⟨hkept.regs, fun hnone => ?_⟩
    rw [hnone] at hraised
    cases hraised
  · refine ⟨RegFile.ext_read hregs, ?_⟩
    intro _ n load rd mem' host' h' hplatform hmode hi' hload hwidth hres'
    have hfound : n.Finds addr load.width (load.width.truncate (m.state.regs.read reg).value) :=
      hwidth ▸ hfinds n hplatform hmode
    have hstep := load_found hload hi' (hres'.trans hres) hfound host' h'
    rw [load.extend_truncate] at hstep
    exact hstep

/-- A task about to store the low half of `$r0` at the address in `$r5`, and then to load a signed
half from 4 below the address in `$r6`. -/
def twoForms : Machine where
  state :=
    { regs := (((RegFile.set {} 0 (.int 0x1234fedc)).set 1 ⟨7, .mask⟩).set 5 (.int 0x200)).set 6
        (.int 0x204) }
  platform :=
    { model := .generic
      bus :=
        { devices :=
            [.ram (Ram.setBytes ⟨0, 4096, ∅⟩ 0 [0x50, 0xe6, 0x61, 0xfc, 0xfc, 0xff])] } }
  environment := .operating

theorem load_after_store_twoForms :
    let c : Config := { environment := .operating, ramSize := 4096 }
    let next := (twoForms.step Host.noting none).machine
    c.Describes 0 twoForms ∧ c.model ≠ .peripheral ∧
      twoForms.insn? = some (.memory (.store .half) 0 (.ofBase 5)) ∧
      next.insn? = some (.memory (.load .half true) 1 (.ofBaseOffset 6 0xfffffffc)) ∧
      (next.step Host.noting none).machine.state.regs.read 1 = ⟨0xfffffedc, .mask⟩ := by
  intro c next
  have hm : c.Describes 0 twoForms := ⟨rfl, rfl, rfl⟩
  have hc : c.model ≠ .peripheral := by decide
  have hi : twoForms.insn? = some (.memory (.store .half) 0 (.ofBase 5)) := by decide +kernel
  have hi' : next.insn? = some (.memory (.load .half true) 1 (.ofBaseOffset 6 0xfffffffc)) := by
    decide +kernel
  have hmode : next.state.mode = twoForms.state.mode := by decide +kernel
  obtain ⟨hregs, hload⟩ := load_after_store hm hc rfl hi Host.noting none
  have haddr : (MemRef.ofBaseOffset 6 0xfffffffc).resolve next.state.regs =
      (MemRef.ofBase 5).resolve twoForms.state.regs := by
    rw [hregs]
    exact congrArg Except.ok (show (twoForms.state.regs.read 6).value + 0xfffffffc =
      (twoForms.state.regs.read 5).value + 0 by decide +kernel)
  obtain ⟨-, -, hread⟩ := hload (by decide +kernel) next (.load .half true) 1 _ Host.noting none rfl
    hmode hi' rfl rfl haddr
  refine ⟨hm, hc, hi, hi', (hread 1).trans ?_⟩
  decide +kernel

end Machine

end TypedCore
