import TypedCore.Proofs.Memory.Layout

/-!
# Where an access goes

The bus tries the device that it used last before it looks at the others, so
where devices overlap the answer to an access hangs on the accesses before it.

A device that shares no address with another is out of reach of this
(`Bus.Alone`): what it covers goes to it, whatever was used last
(`route_of_owns`). `Bus.RamApart` says so of memory, and as it is said of the
layout alone, it stays true whatever is read and written.

The sizes of devices are numbers without a bound here. A bus that keeps them in 32
bits is `Bus.narrow`, and for what a configuration attaches it is the same bus
(`Machine.run_narrow`).
-/

namespace TypedCore

theorem Word.add_ofNat_succ (addr : Word) (n : Nat) :
    addr + BitVec.ofNat 32 (n + 1) = addr + 1 + BitVec.ofNat 32 n := by
  rw [BitVec.add_assoc, Nat.add_comm n 1, BitVec.ofNat_add]
  rfl

/-! ## Devices -/

namespace Device

/-- Two devices without a common address. -/
def Apart (d e : Device) : Prop :=
  d.base.toNat + d.size ≤ e.base.toNat ∨ e.base.toNat + e.size ≤ d.base.toNat

instance (d e : Device) : Decidable (d.Apart e) := inferInstanceAs (Decidable (_ ∨ _))

variable {d e : Device} {addr : Word} {len : Nat}

theorem Apart.symm (h : d.Apart e) : e.Apart d := Or.symm h

theorem covers_iff :
    d.covers addr len = true ↔
      d.base.toNat ≤ addr.toNat ∧ addr.toNat + len ≤ d.base.toNat + d.size := decide_eq_true_iff

/-- No byte belongs to both of two devices that are apart. -/
theorem Apart.not_covers (h : d.Apart e) (hlen : 0 < len) (hd : d.covers addr len = true) :
    e.covers addr len ≠ true := by
  intro he
  have hin := covers_iff.mp hd
  have hin' := covers_iff.mp he
  unfold Apart at h
  omega

@[simp] theorem base_blank (d : Device) : d.blank.base = d.base := by cases d <;> rfl

@[simp] theorem size_blank (d : Device) : d.blank.size = d.size := by cases d <;> rfl

@[simp] theorem covers_blank (d : Device) (addr : Word) (len : Nat) :
    d.blank.covers addr len = d.covers addr len := by
  simp [covers]

@[simp] theorem apart_blank (d e : Device) : d.blank.Apart e.blank ↔ d.Apart e := by
  simp [Apart]

end Device

/-- Only memory answers an access of two bytes. -/
theorem Device.isRam_of_read {d d' : Device} {offset : Nat} {bytes : List Byte}
    (h : d.read offset 2 = some (bytes, d')) : ∃ r, d = .ram r := by
  cases d with
  | ram r => exact ⟨r, rfl⟩
  | console c => simp [read, Console.read] at h
  | gpio g => simp [read, Gpio.read] at h

/-- A byte of a console is one of its registers. -/
theorem Device.read_console {c : Console} {offset : Nat} {b : Byte} {d : Device} :
    (Device.console c).read offset 1 = some ([b], d) ↔
      ∃ c', c.readRegister offset = some (b, c') ∧ d = .console c' := by
  rw [read, Console.read, if_pos rfl]
  cases c.readRegister offset with
  | none => simp
  | some r => simp [Prod.ext_iff, and_assoc, eq_comm (a := d)]

/-! ## Routes -/

namespace Bus

variable {b c : Bus} {addr : Word} {len k : Nat} {d : Device} {r : Ram}

theorem route_last (h : b.owns addr len b.last = true) : b.route addr len = some b.last := by
  unfold route hints
  rw [List.find?_cons_of_pos h]

theorem owns_of_route {i : Nat} (h : b.route addr len = some i) : b.owns addr len i = true := by
  unfold route at h
  split at h
  · rename_i j hfind
    obtain rfl := Option.some.inj h
    exact List.find?_some hfind
  · obtain ⟨hi, hcovers, -⟩ := List.findIdx?_eq_some_iff_getElem.mp h
    unfold owns
    rw [List.getElem?_eq_getElem hi]
    exact hcovers

theorem owns_eq_covers (hk : b.devices[k]? = some d) : b.owns addr len k = d.covers addr len := by
  unfold owns
  rw [hk]

/-- An access finds a device exactly if there is one that covers it. -/
theorem route_eq_none_iff :
    b.route addr len = none ↔ ∀ d ∈ b.devices, d.covers addr len = false := by
  constructor
  · intro h d hd
    unfold route at h
    split at h
    · cases h
    · exact List.findIdx?_eq_none_iff.mp h d hd
  · intro h
    cases hroute : b.route addr len with
    | none => rfl
    | some i =>
        have howns := owns_of_route hroute
        unfold owns at howns
        split at howns
        · rename_i d hd
          rw [h d (List.mem_of_getElem? hd)] at howns
          cases howns
        · cases howns

/-- Device `k` shares no address with another device. -/
def Alone (b : Bus) (k : Nat) : Prop :=
  ∀ i d e, b.devices[k]? = some d → b.devices[i]? = some e → i ≠ k → d.Apart e

/-- What a device covers goes to it if it is alone, whatever was used last. -/
theorem route_of_owns (ha : b.Alone k) (hlen : 0 < len) (hown : b.owns addr len k = true) :
    b.route addr len = some k := by
  cases hk : b.devices[k]? with
  | none =>
      unfold owns at hown
      rw [hk] at hown
      cases hown
  | some d =>
      have hcovers : d.covers addr len = true := owns_eq_covers hk ▸ hown
      cases hroute : b.route addr len with
      | none =>
          rw [route_eq_none_iff.mp hroute d (List.mem_of_getElem? hk)] at hcovers
          cases hcovers
      | some i =>
          by_cases hik : i = k
          · rw [hik]
          · have howns := owns_of_route hroute
            unfold owns at howns
            split at howns
            · rename_i e he
              exact absurd howns ((ha i d e hk he hik).not_covers hlen hcovers)
            · cases howns

/-! ## Memory that is apart -/

/-- Memory shares no address with another device. -/
def RamApart (b : Bus) : Prop := b.layout.Pairwise fun d e => d.isRam ∨ e.isRam → d.Apart e

instance (b : Bus) : Decidable b.RamApart := inferInstanceAs (Decidable (List.Pairwise _ _))

theorem RamApart.of_layout (h : b.RamApart) (hl : c.layout = b.layout) : c.RamApart := by
  unfold RamApart
  rw [hl]
  exact h

/-- A device that the layout keeps apart from every other is alone. -/
theorem alone_of_pairwise {P : Device → Prop}
    (h : b.layout.Pairwise fun d e => P d ∨ P e → d.Apart e) (hk : b.devices[k]? = some d)
    (hd : P d.blank) : b.Alone k := by
  intro i d' e hd' he hik
  obtain rfl := Option.some.inj (hk.symm.trans hd')
  have hpair := List.pairwise_iff_getElem.mp (List.pairwise_map.mp h)
  obtain ⟨hkl, rfl⟩ := List.getElem?_eq_some_iff.mp hk
  obtain ⟨hil, rfl⟩ := List.getElem?_eq_some_iff.mp he
  rcases Nat.lt_or_gt_of_ne hik with hlt | hgt
  · exact ((Device.apart_blank _ _).mp (hpair i k hil hkl hlt (.inr hd))).symm
  · exact (Device.apart_blank _ _).mp (hpair k i hkl hil hgt (.inl hd))

theorem RamApart.alone (h : b.RamApart) (hk : b.devices[k]? = some (.ram r)) : b.Alone k :=
  alone_of_pairwise h hk rfl

theorem ramApart_ofDevices {ds : List Device}
    (h : ds.Pairwise fun d e => d.isRam ∨ e.isRam → d.Apart e) : (ofDevices ds).RamApart := by
  have hsymm : ∀ {d e : Device}, (d.isRam ∨ e.isRam → d.Apart e) → e.isRam ∨ d.isRam → e.Apart d :=
    fun hde hed => (hde hed.symm).symm
  unfold RamApart layout
  rw [List.pairwise_map]
  simp only [Device.isRam_blank, Device.apart_blank]
  exact ((perm_ofDevices ds).pairwise_iff hsymm).mpr h

/-! ## Devices that are apart -/

/-- No two devices share an address. -/
def DevicesApart (b : Bus) : Prop := b.layout.Pairwise Device.Apart

instance (b : Bus) : Decidable b.DevicesApart := inferInstanceAs (Decidable (List.Pairwise _ _))

theorem DevicesApart.of_layout (h : b.DevicesApart) (hl : c.layout = b.layout) :
    c.DevicesApart := by
  unfold DevicesApart
  rw [hl]
  exact h

theorem DevicesApart.alone (h : b.DevicesApart) (k : Nat) : b.Alone k := by
  intro i d e hk
  exact alone_of_pairwise (P := fun _ => True) (h.imp fun hapart _ => hapart) hk trivial i d e hk

/-! ## Accesses -/

variable {data : List Byte}

/-- An access that no device covers is refused. -/
theorem readBytes_uncovered (h : ∀ d ∈ b.devices, d.covers addr len = false) :
    b.readBytes addr len = (none, b) := by
  unfold readBytes
  rw [route_eq_none_iff.mpr h]

theorem writeBytes_uncovered (h : ∀ d ∈ b.devices, d.covers addr data.length = false) :
    b.writeBytes addr data = (false, b) := by
  unfold writeBytes
  rw [route_eq_none_iff.mpr h]

theorem readBytes_alone (ha : b.Alone k) (hk : b.devices[k]? = some (.ram r)) (hlen : 0 < len)
    (hc : r.Covers addr len) :
    b.readBytes addr len =
      (some ((List.range len).map fun i => r.byte (addr.toNat - r.base.toNat + i)),
        b.usedLast k) := by
  have hown : b.owns addr len k = true := (owns_eq_covers hk).trans (decide_eq_true hc)
  exact readBytes_of_route (route_of_owns ha hlen hown) hk hc

theorem writeBytes_alone (ha : b.Alone k) (hk : b.devices[k]? = some (.ram r))
    (hlen : 0 < data.length) (hc : r.Covers addr data.length) :
    b.writeBytes addr data =
      (true, { b.usedLast k with
        devices := b.devices.set k (.ram (r.setBytes (addr.toNat - r.base.toNat) data)) }) := by
  have hown : b.owns addr data.length k = true := (owns_eq_covers hk).trans (decide_eq_true hc)
  exact writeBytes_of_route (route_of_owns ha hlen hown) hk hc

/-- A device that does not cover an access stays as it was. -/
theorem readBytes_elsewhere (hown : b.owns addr len k = false) :
    (b.readBytes addr len).2.devices[k]? = b.devices[k]? := by
  unfold readBytes
  split
  · rfl
  · rename_i i hroute
    have hik : i ≠ k := by
      rintro rfl
      rw [owns_of_route hroute] at hown
      cases hown
    split
    · rfl
    · split
      · exact List.getElem?_set_ne hik
      · rfl

theorem writeBytes_elsewhere (hown : b.owns addr data.length k = false) :
    (b.writeBytes addr data).2.devices[k]? = b.devices[k]? := by
  unfold writeBytes
  split
  · rfl
  · rename_i i hroute
    have hik : i ≠ k := by
      rintro rfl
      rw [owns_of_route hroute] at hown
      cases hown
    split
    · rfl
    · split
      · exact List.getElem?_set_ne hik
      · rfl

/-! ### Halfwords -/

/-- Only memory answers a read of two bytes. -/
theorem readBytes_half_refused
    (h : ∀ (k : Nat) (r : Ram), b.devices[k]? = some (.ram r) → ¬ r.Covers addr 2) :
    (b.readBytes addr 2).1 = none := by
  unfold readBytes
  split
  · rfl
  · rename_i i hroute
    split
    · rfl
    · rename_i d hd
      split
      · rename_i bytes d' hread
        obtain ⟨r, rfl⟩ := Device.isRam_of_read hread
        have hcovers : (Device.ram r).covers addr 2 = true :=
          owns_eq_covers hd ▸ owns_of_route hroute
        exact absurd (Device.covers_iff.mp hcovers) (h i r hd)
      · rfl

/-- A halfword is read alike whichever device was used last, and if it can be read, so is what
is noted of it. -/
theorem readBytes_half_usedLast (ha : b.RamApart) (addr : Word) (i : Nat) :
    (b.usedLast i).readBytes addr 2 = b.readBytes addr 2 ∨
      ((b.usedLast i).readBytes addr 2).1 = none ∧ (b.readBytes addr 2).1 = none := by
  by_cases hram : ∃ (k : Nat) (r : Ram), b.devices[k]? = some (.ram r) ∧ r.Covers addr 2
  · obtain ⟨k, r, hk, hc⟩ := hram
    left
    rw [readBytes_alone (ha.alone hk) hk (by decide) hc,
      readBytes_alone (b := b.usedLast i) (ha.alone hk) hk (by decide) hc]
    rfl
  · have hno : ∀ (k : Nat) (r : Ram), b.devices[k]? = some (.ram r) → ¬ r.Covers addr 2 :=
      fun k r hk hc => hram ⟨k, r, hk, hc⟩
    exact .inr ⟨readBytes_half_refused (b := b.usedLast i) hno, readBytes_half_refused hno⟩

end Bus

/-! ## Sizes in 32 bits -/

/-- A device with a size of 32 bits. -/
def Device.narrow : Device → Device
  | ram r => ram { r with size := r.size % 0x100000000 }
  | d => d

theorem Device.narrow_of_size {d : Device} (h : d.size < 0x100000000) : d.narrow = d := by
  cases d with
  | ram r => exact congrArg (fun size => ram { r with size }) (Nat.mod_eq_of_lt h)
  | console c => rfl
  | gpio g => rfl

namespace Bus

variable {b c : Bus} {len : Nat}

/-- A bus whose devices have sizes of 32 bits. -/
def narrow (b : Bus) : Bus := { b with devices := b.devices.map Device.narrow }

/-- Every device has a size that 32 bits hold. -/
def Sized (b : Bus) : Prop := ∀ d ∈ b.layout, d.size < 0x100000000

theorem Sized.of_layout (h : b.Sized) (hl : c.layout = b.layout) : c.Sized := by
  unfold Sized
  rw [hl]
  exact h

theorem Sized.size_lt (h : b.Sized) {d : Device} (hd : d ∈ b.devices) : d.size < 0x100000000 :=
  d.size_blank ▸ h d.blank (List.mem_map_of_mem hd)

theorem Sized.narrow_eq (h : b.Sized) : b.narrow = b := by
  have hdevices : b.devices.map Device.narrow = b.devices :=
    (List.map_congr_left fun d hd => Device.narrow_of_size (h.size_lt hd)).trans b.devices.map_id
  unfold narrow
  rw [hdevices]

/-- The search for a device loses nothing by sizes and lengths of 32 bits. -/
theorem Sized.route_narrow (h : b.Sized) (hlen : len < 0x100000000) (addr : Word) :
    b.narrow.route addr (BitVec.ofNat 32 len).toNat = b.route addr len := by
  rw [h.narrow_eq, BitVec.toNat_ofNat, Nat.mod_eq_of_lt hlen]

/-- No device has room for more than 32 bits can count. -/
theorem Sized.route_long (h : b.Sized) (hlen : 0x100000000 ≤ len) (addr : Word) :
    b.route addr len = none := by
  refine route_eq_none_iff.mpr fun d hd => Bool.eq_false_iff.mpr fun hcovers => ?_
  have hsize := h.size_lt hd
  have hin := Device.covers_iff.mp hcovers
  omega

theorem sized_ofDevices {ds : List Device} (h : ∀ d ∈ ds, d.size < 0x100000000) :
    (ofDevices ds).Sized := by
  intro d hd
  obtain ⟨e, he, rfl⟩ := List.mem_map.mp hd
  rw [Device.size_blank]
  exact h e ((perm_ofDevices ds).mem_iff.mp he)

end Bus

theorem Config.ramSize_le {c : Config} (h : c.ramSizeOk = true) : c.ramSize ≤ maxRamSize :=
  (of_decide_eq_true h).2

/-- What an accepted configuration attaches has sizes of 32 bits. -/
theorem Config.sized {c : Config} (h : c.ramSizeOk = true) (base : Word) :
    (Platform.ofConfigAt c base).bus.Sized := by
  have hsize : c.ramSize < 0x100000000 := Nat.lt_of_le_of_lt (ramSize_le h) (by decide)
  apply Bus.sized_ofDevices
  unfold devicesAt
  split
  · simpa [Device.size] using hsize
  · simpa [Device.size] using hsize
  · simpa [Device.size, Console.size] using hsize

/-- On a machine with an accepted configuration, in every state that it comes to, an access
of fewer than `2 ^ 32` bytes goes where sizes and lengths of 32 bits would send it, and a
longer one goes nowhere. -/
theorem Machine.run_narrow {σ : Type} {c : Config} (hc : c.ramSizeOk = true) (base : Word)
    (host : Host σ) (h : σ) (acts : List Action) :
    let b := ((Machine.ofConfig c (.ofConfigAt c base)).run host h acts).1.platform.bus
    b.narrow = b ∧
      (∀ addr len, len < 0x100000000 →
        b.narrow.route addr (BitVec.ofNat 32 len).toNat = b.route addr len) ∧
      ∀ addr len, 0x100000000 ≤ len → b.route addr len = none := by
  intro b
  have hevolves := (Machine.ofConfig c (.ofConfigAt c base)).run_evolves host h acts
  have hsized : b.Sized := (c.sized hc base).of_layout hevolves.bus.layout
  exact ⟨hsized.narrow_eq, fun addr len hlen => hsized.route_narrow hlen addr,
    fun addr len hlen => hsized.route_long hlen addr⟩

/-! ## Platforms -/

namespace Platform

variable {p : Platform} {mode : Mode} {addr a : Word} {width : Width} {access : Access}

theorem load_unaligned (hal : width.isAligned addr = false) :
    p.load mode addr width access = (.error ⟨.unaligned, addr⟩, p) := by
  simp [load, hal]

theorem load_denied {fault : MemFault} (hal : width.isAligned addr = true)
    (hphys : p.physical mode addr access = .error fault) :
    p.load mode addr width access = (.error ⟨access.violation, addr⟩, p) := by
  simp [load, hal, hphys, physical_fault hphys]

theorem load_allowed (hal : width.isAligned addr = true)
    (hphys : p.physical mode addr access = .ok a) :
    p.load mode addr width access =
      match (p.bus.readBytes a width.bytes).1 with
      | some bytes =>
        (.ok (Word.ofBytes bytes), { p with bus := (p.bus.readBytes a width.bytes).2 })
      | none =>
        (.error ⟨access.violation, addr⟩, { p with bus := (p.bus.readBytes a width.bytes).2 }) := by
  simp only [load, hal, if_true, hphys, Bus.read]
  cases (p.bus.readBytes a width.bytes).1 <;> rfl

theorem fetchHalf_eq (p : Platform) (mode : Mode) (addr : Word) :
    p.fetchHalf mode addr =
      ((p.load mode addr .half .fetch).1.map fun v => v.setWidth 16,
        (p.load mode addr .half .fetch).2) := by
  unfold fetchHalf
  split <;> rename_i hload <;> rw [hload] <;> rfl

theorem write_unaligned {value : Word} (hal : width.isAligned addr = false) :
    p.write mode addr width value = (.error ⟨.unaligned, addr⟩, p) := by
  simp [write, hal]

theorem write_denied {value : Word} {fault : MemFault} (hal : width.isAligned addr = true)
    (hphys : p.physical mode addr .write = .error fault) :
    p.write mode addr width value = (.error ⟨.memoryViolation, addr⟩, p) := by
  simp [write, hal, hphys, physical_fault hphys, Access.violation]

theorem write_allowed {value : Word} (hal : width.isAligned addr = true)
    (hphys : p.physical mode addr .write = .ok a) :
    p.write mode addr width value =
      (if (p.bus.writeBytes a (bytesOfNat width.bytes value.toNat)).1 then .ok ()
        else .error ⟨.memoryViolation, addr⟩,
        { p with bus := (p.bus.writeBytes a (bytesOfNat width.bytes value.toNat)).2 }) := by
  simp only [write, hal, if_true, hphys, Bus.write]
  generalize p.bus.writeBytes a (bytesOfNat width.bytes value.toNat) = taken
  obtain ⟨_ | _, bus⟩ := taken <;> rfl

/-- Behind an aligned address the only fault is that of an access that is not allowed. -/
theorem load_fault_aligned {fault : MemFault} {q : Platform}
    (hal : width.isAligned addr = true) (h : p.load mode addr width access = (.error fault, q)) :
    fault = ⟨access.violation, addr⟩ := by
  cases hphys : p.physical mode addr access with
  | error denied =>
      rw [load_denied hal hphys] at h
      exact (Except.error.inj (Prod.mk.inj h).1).symm
  | ok a =>
      rw [load_allowed hal hphys] at h
      split at h
      · cases congrArg Prod.fst h
      · exact (Except.error.inj (Prod.mk.inj h).1).symm

theorem write_fault_aligned {value : Word} {fault : MemFault} {q : Platform}
    (hal : width.isAligned addr = true) (h : p.write mode addr width value = (.error fault, q)) :
    fault = ⟨.memoryViolation, addr⟩ := by
  cases hphys : p.physical mode addr .write with
  | error denied =>
      rw [write_denied hal hphys] at h
      exact (Except.error.inj (Prod.mk.inj h).1).symm
  | ok a =>
      rw [write_allowed hal hphys] at h
      have hresult := (Prod.mk.inj h).1
      split at hresult
      · cases hresult
      · exact (Except.error.inj hresult).symm

/-! ### Fetching -/

/-- A fetch goes the same way whichever device was used last, unless it fails. -/
theorem fetchHalf_usedLast (ha : p.bus.RamApart) (mode : Mode) (addr : Word) (i : Nat) :
    (p.usedLast i).fetchHalf mode addr = p.fetchHalf mode addr ∨
      ∃ fault, ((p.usedLast i).fetchHalf mode addr).1 = .error fault ∧
        (p.fetchHalf mode addr).1 = .error fault := by
  have hphys : (p.usedLast i).physical mode addr .fetch = p.physical mode addr .fetch := rfl
  rw [fetchHalf_eq, fetchHalf_eq]
  cases hal : Width.half.isAligned addr with
  | false =>
      rw [load_unaligned hal, load_unaligned hal]
      exact .inr ⟨_, rfl, rfl⟩
  | true =>
      cases hp : p.physical mode addr .fetch with
      | error fault =>
          rw [load_denied hal hp, load_denied hal (hphys.trans hp)]
          exact .inr ⟨_, rfl, rfl⟩
      | ok a =>
          rw [load_allowed hal hp, load_allowed hal (hphys.trans hp)]
          have hread : (p.usedLast i).bus.readBytes a Width.half.bytes =
              (p.bus.usedLast i).readBytes a 2 := rfl
          have hread' : p.bus.readBytes a Width.half.bytes = p.bus.readBytes a 2 := rfl
          rw [hread, hread']
          rcases Bus.readBytes_half_usedLast ha a i with heq | ⟨hnone, hnone'⟩
          · rw [heq]
            exact .inl rfl
          · rw [hnone, hnone']
            exact .inr ⟨_, rfl, rfl⟩

theorem fetch_usedLast (ha : p.bus.RamApart) (mode : Mode) (pc : Word) (i : Nat) :
    (p.usedLast i).fetch mode pc = p.fetch mode pc ∨
      ∃ fault, ((p.usedLast i).fetch mode pc).1 = .error fault ∧
        (p.fetch mode pc).1 = .error fault := by
  unfold fetch
  -- Once a halfword was fetched, what is noted of it is the same, and so is all that follows.
  rcases fetchHalf_usedLast ha mode pc i with heq | ⟨fault, hfault, hfault'⟩
  · rw [heq]
    exact .inl rfl
  · right
    refine ⟨fault, ?_, ?_⟩
    · split <;> rename_i hhalf <;> rw [hhalf] at hfault <;> cases hfault
      rfl
    · split <;> rename_i hhalf <;> rw [hhalf] at hfault' <;> cases hfault'
      rfl

end Platform

end TypedCore
