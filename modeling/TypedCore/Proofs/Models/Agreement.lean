import TypedCore.Config
import TypedCore.Machine.Rehearsal
import TypedCore.Proofs.Memory.Beside
import TypedCore.Proofs.Models.Simulation

/-!
# Where the models agree

With its windows open, the windowed model differs from the generic one in what
it makes of an address from 2²⁸ on, and in four status registers. The peripheral
model differs from it in the addresses of its devices. A program that keeps clear
of these runs on the generic model as on the other, step by step
(`Config.models_agree`).

What a program keeps clear of is said of its run on the generic model: of the
calls of the memory interface that `Machine.calls` lists.
-/

namespace TypedCore

/-- The memory of a bus. -/
def Bus.ram? (b : Bus) : Option Ram :=
  b.devices.findSome? fun
    | .ram r => some r
    | _ => none

/-! ## Calls -/

section Calls

variable {p q : Platform} {related : Bus → Bus → Prop}

/-- The same answer from two platforms that change in their buses alone, which are related
afterwards. -/
def Platform.SameAnswer {α : Type} (related : Bus → Bus → Prop) (p q : Platform)
    (x y : α × Platform) : Prop :=
  ∃ a b c, x = (a, { p with bus := b }) ∧ y = (a, { q with bus := c }) ∧ related b c

namespace Platform

variable {mode : Mode} {addr : Word} {width : Width} {access : Access}

theorem SameAnswer.map {α β : Type} {x y : α × Platform} (h : SameAnswer related p q x y)
    (f : α → β) : SameAnswer related p q (f x.1, x.2) (f y.1, y.2) := by
  obtain ⟨answer, b, c, rfl, rfl, hafter⟩ := h
  exact ⟨f answer, b, c, rfl, rfl, hafter⟩

theorem load_alike (hphys : p.physical mode addr access = q.physical mode addr access)
    (hbus : related p.bus q.bus)
    (hread : ∀ a, p.physical mode addr access = .ok a →
      Bus.SameAnswer related (p.bus.readBytes a width.bytes) (q.bus.readBytes a width.bytes)) :
    SameAnswer related p q (p.load mode addr width access) (q.load mode addr width access) := by
  cases hal : width.isAligned addr with
  | false => exact ⟨_, p.bus, q.bus, load_unaligned hal, load_unaligned hal, hbus⟩
  | true =>
      cases hp : p.physical mode addr access with
      | error fault =>
          exact ⟨_, p.bus, q.bus, load_denied hal hp, load_denied hal (hphys.symm.trans hp), hbus⟩
      | ok a =>
          obtain ⟨bytes, b, c, hb, hc, hafter⟩ := hread a hp
          rw [load_allowed hal hp, load_allowed hal (hphys.symm.trans hp), hb, hc]
          cases bytes with
          | some bytes => exact ⟨_, b, c, rfl, rfl, hafter⟩
          | none => exact ⟨_, b, c, rfl, rfl, hafter⟩

theorem write_alike {value : Word}
    (hphys : p.physical mode addr .write = q.physical mode addr .write)
    (hbus : related p.bus q.bus)
    (hwrite : ∀ a, p.physical mode addr .write = .ok a → ∀ data, data.length = width.bytes →
      Bus.SameAnswer related (p.bus.writeBytes a data) (q.bus.writeBytes a data)) :
    SameAnswer related p q (p.write mode addr width value) (q.write mode addr width value) := by
  cases hal : width.isAligned addr with
  | false => exact ⟨_, p.bus, q.bus, write_unaligned hal, write_unaligned hal, hbus⟩
  | true =>
      cases hp : p.physical mode addr .write with
      | error fault =>
          exact ⟨_, p.bus, q.bus, write_denied hal hp, write_denied hal (hphys.symm.trans hp), hbus⟩
      | ok a =>
          obtain ⟨taken, b, c, hb, hc, hafter⟩ := hwrite a hp _ (length_bytesOfNat _ value.toNat)
          rw [write_allowed hal hp, write_allowed hal (hphys.symm.trans hp), hb, hc]
          exact ⟨_, b, c, rfl, rfl, hafter⟩

end Platform

/-- A call that two platforms send to the same bus address is answered alike if their buses answer
alike there. -/
theorem MemCall.perform_alike (c : MemCall) (hphys : c.physical p = c.physical q)
    (hbus : related p.bus q.bus)
    (hread : ∀ a, c.physical p = .ok a →
      Bus.SameAnswer related (p.bus.readBytes a c.width.bytes) (q.bus.readBytes a c.width.bytes))
    (hwrite : ∀ a, c.physical p = .ok a → ∀ data, data.length = c.width.bytes →
      Bus.SameAnswer related (p.bus.writeBytes a data) (q.bus.writeBytes a data)) :
    Platform.SameAnswer related p q (c.perform p) (c.perform q) := by
  cases c with
  | fetch mode addr =>
      have hload : Platform.SameAnswer related p q (p.load mode addr .half .fetch)
          (q.load mode addr .half .fetch) := Platform.load_alike hphys hbus hread
      simp only [perform, Platform.fetchHalf_eq]
      exact hload.map fun answer => (answer.map (·.setWidth 16)).map fun v => some (v.setWidth 32)
  | read mode addr width =>
      have hload : Platform.SameAnswer related p q (p.read mode addr width)
          (q.read mode addr width) := Platform.load_alike hphys hbus hread
      exact hload.map fun answer => answer.map some
  | write mode addr width value =>
      have hstore : Platform.SameAnswer related p q (p.write mode addr width value)
          (q.write mode addr width value) := Platform.write_alike hphys hbus hwrite
      exact hstore.map fun answer => answer.map fun _ => none

end Calls

/-! ## The windowed model -/

/-- A generic platform, and a windowed one with the same bus whose windows are open. -/
structure Platform.Opens (p q : Platform) : Prop where
  generic : p.model = .generic
  windowed : q.model = .windowed
  inst : q.inst = .whole
  data : q.data = .whole
  bus : p.bus = q.bus

namespace Platform.Opens

variable {p q : Platform}

theorem ram? (h : p.Opens q) : p.bus.ram? = q.bus.ram? := congrArg Bus.ram? h.bus

/-- The open window leaves a low address where it is. -/
theorem physical?_whole {a : Word} (ha : a.toNat < 0x10000000) :
    Window.whole.physical? a = some a := by
  have hlow : a.low28 = a.toNat := Nat.mod_eq_of_lt ha
  have hlimit : Window.whole.limit.low28 = 0x0fffffff := rfl
  have hbase : Window.whole.base.low28 = 0 := rfl
  unfold Window.physical?
  rw [hlow, hlimit, hbase, if_neg (by omega)]
  simp [Nat.mod_eq_of_lt ha]

theorem physical (h : p.Opens q) {c : MemCall} (hc : c.addr.toNat < 0x10000000) :
    c.physical p = c.physical q := by
  have hlow : c.addr.low28 = c.addr.toNat := Nat.mod_eq_of_lt hc
  unfold MemCall.physical Platform.physical
  rw [h.generic, h.windowed, h.inst, h.data]
  cases c.mode with
  | scheduler => simp [hlow]
  | task => simp [physical?_whole hc]

theorem withBus (h : p.Opens q) (b : Bus) : { p with bus := b }.Opens { q with bus := b } :=
  ⟨h.generic, h.windowed, h.inst, h.data, rfl⟩

theorem perform (h : p.Opens q) {c : MemCall} (hc : c.addr.toNat < 0x10000000) :
    (c.perform p).1 = (c.perform q).1 ∧ (c.perform p).2.Opens (c.perform q).2 := by
  have hsame : ∀ {α : Type} (f : Bus → α × Bus), Bus.SameAnswer Eq (f p.bus) (f q.bus) :=
    fun f => ⟨_, _, _, rfl, by rw [h.bus], rfl⟩
  obtain ⟨answer, b, b', hb, hb', rfl⟩ := c.perform_alike (h.physical hc) h.bus
    (fun a _ => hsame fun b => b.readBytes a c.width.bytes)
    (fun a _ data _ => hsame fun b => b.writeBytes a data)
  rw [hb, hb']
  exact ⟨rfl, h.withBus b⟩

end Platform.Opens

/-- The windowed model with open windows, below 2²⁸ and away from its own status registers. -/
def Simulation.windows : Simulation where
  platform := Platform.Opens
  call c := c.addr.toNat < 0x10000000
  csr addr := addr.toNat < 0x80 ∨ 0x83 < addr.toNat
  image _ _ := True
  perform _ h hc := h.perform hc
  sharesCsr h haddr := ⟨fun hw => absurd (h.generic.symm.trans hw) (by decide), fun _ => haddr⟩
  place im args h _ := by
    rw [← h.bus]
    exact ⟨rfl, h.withBus _⟩
  exit h := by
    rw [← h.bus]
    exact ⟨rfl, h.withBus _⟩

/-! ## The peripheral model -/

/-- A generic platform, and one of the peripheral model with the same memory in front of its
devices. -/
structure Platform.Extends (ds : List Device) (p q : Platform) : Prop where
  generic : p.model = .generic
  peripheral : q.model = .peripheral
  bus : Bus.Beside ds p.bus q.bus

namespace Platform.Extends

variable {ds : List Device} {p q : Platform}

theorem ram? (h : p.Extends ds q) : p.bus.ram? = q.bus.ram? := by
  obtain ⟨r, hp, hq⟩ := h.bus
  unfold Bus.ram?
  rw [hp, hq]
  rfl

theorem withBus (h : p.Extends ds q) {b c : Bus} (hbus : Bus.Beside ds b c) :
    Extends ds { p with bus := b } { q with bus := c } := ⟨h.generic, h.peripheral, hbus⟩

theorem physical (h : p.Extends ds q) (c : MemCall) :
    c.physical p = .ok c.addr ∧ c.physical q = .ok c.addr := by
  unfold MemCall.physical Platform.physical
  rw [h.generic, h.peripheral]
  exact ⟨rfl, rfl⟩

theorem perform (h : p.Extends ds q) {c : MemCall} (hc : Clear ds c.addr c.width.bytes) :
    (c.perform p).1 = (c.perform q).1 ∧ (c.perform p).2.Extends ds (c.perform q).2 := by
  obtain ⟨hp, hq⟩ := h.physical c
  obtain ⟨answer, b, b', hb, hb', hafter⟩ := c.perform_alike (hp.trans hq.symm) h.bus
    (fun a ha => by
      obtain rfl := Except.ok.inj (hp.symm.trans ha)
      exact h.bus.readBytes c.width.bytes_pos hc)
    (fun a ha data hlen => by
      obtain rfl := Except.ok.inj (hp.symm.trans ha)
      rw [← hlen] at hc
      exact h.bus.writeBytes (hlen ▸ c.width.bytes_pos) hc)
  rw [hb, hb']
  exact ⟨rfl, h.withBus hafter⟩

end Platform.Extends

/-- The peripheral model, clear of its devices. None of them asks for an exit at first, and where
they are not used none will. -/
def Simulation.devices (ds : List Device) (hds : ∀ d ∈ ds, d.takeExit? = none) : Simulation where
  platform := Platform.Extends ds
  call c := Clear ds c.addr c.width.bytes
  csr _ := True
  image im args := im.Clear args ds
  perform _ h hc := h.perform hc
  sharesCsr h _ := ⟨fun hw => absurd (h.generic.symm.trans hw) (by decide),
    fun hw => absurd (h.peripheral.symm.trans hw) (by decide)⟩
  place im args h hclear := by
    obtain ⟨answer, b, c, hb, hc, hafter⟩ := h.bus.place hclear
    rw [hb, hc]
    exact ⟨rfl, h.withBus hafter⟩
  exit h := by
    obtain ⟨answer, b, c, hb, hc, hafter⟩ := h.bus.takeExit hds
    rw [hb, hc]
    exact ⟨rfl, h.withBus hafter⟩

/-! ## Configured machines -/

namespace Bus

/-- A memory at address 0 is in front of all that is attached after it. -/
theorem front_ofDevices {r : Ram} (hr : r.base = 0) (rest : List Device) :
    ∃ ds, (ofDevices (.ram r :: rest)).devices = .ram r :: ds ∧ ds.Perm rest := by
  have hfold : ∀ (rest : List Device) (b : Bus), (∃ ds, b.devices = .ram r :: ds) →
      ∃ ds, (rest.foldl attach b).devices = .ram r :: ds := by
    intro rest
    induction rest with
    | nil => exact fun b h => h
    | cons d rest ih =>
        rintro b ⟨ds, hb⟩
        refine ih (b.attach d) ⟨insertDevice d ds, ?_⟩
        have hbase : (Device.ram r).base.toNat = 0 := congrArg BitVec.toNat hr
        simp [attach, hb, insertDevice, hbase]
  obtain ⟨ds, hds⟩ := hfold rest (attach {} (.ram r)) ⟨[], rfl⟩
  have hperm := perm_ofDevices (.ram r :: rest)
  refine ⟨ds, hds, ?_⟩
  unfold ofDevices at hperm
  rw [List.foldl_cons, hds] at hperm
  exact hperm.cons_inv

end Bus

namespace Config

/-- The devices that the peripheral model has besides memory. -/
def others (c : Config) : List Device :=
  .console { base := c.consoleBase } ::
    c.gpios.map fun g => .gpio { base := g.base, terminates := g.terminates }

/-- The machine that a configuration describes, but of a given model. -/
def machineOf (c : Config) (model : MachineModel) : Machine :=
  .ofConfig { c with model } (.ofConfig { c with model })

/-- That machine with a program loaded, and whether the program could be. -/
def started (c : Config) (model : MachineModel) (image : Image) (args : List (List Byte))
    (sp : Word) : Except HostFault Unit × Machine :=
  (c.machineOf model).load image args sp

theorem machines_windowed (c : Config) :
    Simulation.windows.Machines (c.machineOf .generic) (c.machineOf .windowed) :=
  ⟨⟨⟨rfl, ⟨rfl, rfl, rfl, rfl, rfl⟩, rfl, rfl⟩, rfl, rfl⟩, rfl⟩

theorem takeExit?_others (c : Config) : ∀ d ∈ c.others, d.takeExit? = none := by
  unfold others
  refine List.forall_mem_cons.mpr ⟨rfl, ?_⟩
  intro d hd
  obtain ⟨g, -, rfl⟩ := List.mem_map.mp hd
  rfl

/-- The bus of the peripheral model has its devices in some order behind the memory. -/
theorem machines_peripheral (c : Config) :
    ∃ (ds : List Device) (hds : ∀ d ∈ ds, d.takeExit? = none), ds.Perm c.others ∧
      (Simulation.devices ds hds).Machines (c.machineOf .generic) (c.machineOf .peripheral) := by
  obtain ⟨ds, hfront, hperm⟩ :=
    Bus.front_ofDevices (r := { base := ramBase, size := c.ramSize }) rfl c.others
  refine ⟨ds, fun d hd => c.takeExit?_others d (hperm.mem_iff.mp hd), hperm, ?_⟩
  exact ⟨⟨⟨rfl, ⟨rfl, rfl, _, rfl, hfront⟩, rfl, rfl⟩, rfl, rfl⟩, rfl⟩

end Config

/-! ## Runs -/

namespace Machine

variable {σ : Type}

/-- Whether a step asks only for addresses below 2²⁸, and for no status register of a window. -/
def KeepsLow (host : Host σ) (m : Machine) (h : σ) : Action → Prop
  | .step => (∀ call ∈ m.calls host h, call.addr.toNat < 0x10000000) ∧
      ∀ addr, m.csr? = some addr → addr.toNat < 0x80 ∨ 0x83 < addr.toNat
  | .interrupt | .load .. => True

/-- Whether an action touches no address of some devices. -/
def KeepsClear (ds : List Device) (host : Host σ) (m : Machine) (h : σ) : Action → Prop
  | .step => ∀ call ∈ m.calls host h, Clear ds call.addr call.width.bytes
  | .interrupt => True
  | .load image args _ => image.Clear args ds

/-- What two machines of one configuration share, whatever their models: all but devices besides
memory, and the trace. -/
structure LooksLike (m n : Machine) : Prop where
  state : m.state = n.state
  memory : m.platform.bus.ram? = n.platform.bus.ram?
  record : m.record = n.record
  profile : m.profile = n.profile
  interruptPending : m.interruptPending = n.interruptPending

/-- Two runs with the same results and the same requests to the host, whose ends look alike. -/
structure SameRun (host : Host σ) (h : σ) (acts : List Action) (m n : Machine) : Prop where
  results : m.results host h acts = n.results host h acts
  hosts : (m.run host h acts).2 = (n.run host h acts).2
  machines : (m.run host h acts).1.LooksLike (n.run host h acts).1

/-- Machines of a simulation have the same runs up to every point, while the first asks for nothing
that the platforms do not agree on. -/
theorem sameRun {S : Simulation} {m n : Machine} {host : Host σ} {h : σ} {acts : List Action}
    (hmemory : ∀ {p q : Platform}, S.platform p q → p.bus.ram? = q.bus.ram?)
    (hm : S.Machines m n) (hok : m.Throughout host (S.Allows host) h acts) :
    ∀ before, before <+: acts → SameRun host h before m n := by
  intro before hbefore
  obtain ⟨hresults, hhost, hafter⟩ := Simulation.results hm before (hok.of_isPrefix hbefore)
  exact ⟨hresults, hhost, hafter.state, hmemory hafter.platform, hafter.coupled.record,
    hafter.profile, hafter.coupled.core.interruptPending⟩

end Machine

theorem Clear.of_perm {ds es : List Device} {addr : Word} {len : Nat} (h : Clear ds addr len)
    (hperm : es.Perm ds) : Clear es addr len :=
  fun d hd => h d (hperm.mem_iff.mp hd)

theorem Image.Clear.of_perm {im : Image} {args : List (List Byte)} {ds es : List Device}
    (h : im.Clear args ds) (hperm : es.Perm ds) : im.Clear args es :=
  ⟨fun seg hseg => (h.segments seg hseg).of_perm hperm,
    fun hexec => (h.arguments hexec).of_perm hperm⟩

/-- A program that is loaded and runs on the generic model does both alike on the windowed model, as
long as it stays below 2²⁸ and leaves the status registers of the windows alone, and on the
peripheral model, as long as it stays clear of the devices. -/
theorem Config.models_agree {σ : Type} (c : Config) (image : Image) (args : List (List Byte))
    (sp : Word) (host : Host σ) (h : σ) (acts : List Action) :
    let generic := c.started .generic image args sp
    let windowed := c.started .windowed image args sp
    let peripheral := c.started .peripheral image args sp
    (generic.1 = windowed.1 ∧
      (generic.2.Throughout host (Machine.KeepsLow host) h acts →
        ∀ before, before <+: acts → Machine.SameRun host h before generic.2 windowed.2)) ∧
    (image.Clear args c.others →
      generic.1 = peripheral.1 ∧
        (generic.2.Throughout host (Machine.KeepsClear c.others host) h acts →
          ∀ before, before <+: acts → Machine.SameRun host h before generic.2 peripheral.2)) := by
  intro generic windowed peripheral
  refine ⟨?_, fun hclear => ?_⟩
  · have himage : Simulation.windows.image image args := trivial
    obtain ⟨hloaded, hm⟩ := Simulation.load c.machines_windowed himage sp
    refine ⟨hloaded, fun hrun => Machine.sameRun Platform.Opens.ram? hm (hrun.mono ?_)⟩
    intro m h a ha
    cases a with
    | step => exact ha
    | interrupt => trivial
    | load image args sp => trivial
  · obtain ⟨ds, hds, hperm, hstart⟩ := c.machines_peripheral
    have himage : (Simulation.devices ds hds).image image args := hclear.of_perm hperm
    obtain ⟨hloaded, hm⟩ := Simulation.load hstart himage sp
    refine ⟨hloaded, fun hrun => Machine.sameRun Platform.Extends.ram? hm (hrun.mono ?_)⟩
    intro m h a ha
    cases a with
    | step => exact ⟨fun call hcall => (ha call hcall).of_perm hperm, fun _ _ => trivial⟩
    | interrupt => trivial
    | load image args sp => exact Image.Clear.of_perm ha hperm

/-- A memory that the devices of the peripheral model lie in. -/
def cramped : Config := { ramSize := 64, consoleBase := 32, gpios := [⟨40, true⟩] }

/-- A program that asks the host to remove the file that its own first byte names. -/
def remover : Image := ⟨0, [⟨0, [0x02, 0x00, 0x07, 0x00, 0x10, 0x00]⟩], false⟩

/-- The path is read byte by byte, from memory on all three models. -/
theorem Config.models_agree_cramped :
    let generic := cramped.started .generic remover [] 64
    let windowed := cramped.started .windowed remover [] 64
    let peripheral := cramped.started .peripheral remover [] 64
    generic.2.Throughout Host.noting (Machine.KeepsLow Host.noting) none [.step, .step] ∧
      generic.2.Throughout Host.noting (Machine.KeepsClear cramped.others Host.noting) none
        [.step, .step] ∧
      Machine.SameRun Host.noting none [.step, .step] generic.2 windowed.2 ∧
      Machine.SameRun Host.noting none [.step, .step] generic.2 peripheral.2 ∧
      (peripheral.2.run Host.noting none [.step]).2 = some (.unlink [0x02]) := by
  intro generic windowed peripheral
  have hnone : generic.2.csr? = none := by decide +kernel
  have hnone' : (generic.2.step Host.noting none).machine.csr? = none := by decide +kernel
  have hlow : generic.2.Throughout Host.noting (Machine.KeepsLow Host.noting) none
      [.step, .step] :=
    ⟨⟨by decide +kernel, by simp [hnone]⟩,
      ⟨by decide +kernel, by simp [Machine.act, hnone']⟩, trivial⟩
  let next := generic.2.step Host.noting none
  have hfirst : ∀ call ∈ generic.2.calls Host.noting none,
      Clear cramped.others call.addr call.width.bytes := by decide +kernel
  have hsecond : ∀ call ∈ next.machine.calls Host.noting next.host,
      Clear cramped.others call.addr call.width.bytes := by decide +kernel
  have hclear : generic.2.Throughout Host.noting
      (Machine.KeepsClear cramped.others Host.noting) none [.step, .step] :=
    ⟨hfirst, hsecond, trivial⟩
  have himage : remover.Clear [] cramped.others :=
    ⟨by decide +kernel, fun h => by cases h⟩
  obtain ⟨⟨-, hwindowed⟩, hperipheral⟩ := cramped.models_agree remover [] 64 Host.noting none
    [.step, .step]
  obtain ⟨-, hperipheral⟩ := hperipheral himage
  refine ⟨hlow, hclear, hwindowed hlow _ (List.prefix_refl _),
    hperipheral hclear _ (List.prefix_refl _), ?_⟩
  rw [← (hperipheral hclear [.step] ⟨[.step], rfl⟩).hosts]
  decide +kernel

end TypedCore
