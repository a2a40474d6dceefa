import TypedCore.Proofs.Memory.Evolution
import TypedCore.Proofs.Memory.OneRam

/-!
# What is attached to the bus

`Device.blank` is a device without what it holds, and the list of blank devices
is the layout of a bus. No access changes it, so what a configuration attaches
stays attached, where it is and in its order (`Bus.Evolves.layout`).

A configuration attaches one memory. `Machine.Reachable` are the machines that
come from a configuration, and all of them have one memory still.
-/

namespace TypedCore

/-! ## Devices -/

/-- A device as it is configured, without what it holds. -/
def Device.blank : Device → Device
  | ram r => ram { r with cells := ∅ }
  | console c => console { base := c.base }
  | gpio g => gpio { g with pending := none }

namespace Device

variable {d d' : Device} {offset len : Nat}

@[simp] theorem isRam_blank (d : Device) : d.blank.isRam = d.isRam := by cases d <;> rfl

theorem blank_read {bytes : List Byte} (h : d.read offset len = some (bytes, d')) :
    d'.blank = d.blank := by
  cases d with
  | ram r =>
      obtain ⟨_, -, heq⟩ := Option.map_eq_some_iff.mp h
      rw [← (Prod.mk.inj heq).2]
  | gpio g =>
      obtain ⟨_, -, heq⟩ := Option.map_eq_some_iff.mp h
      rw [← (Prod.mk.inj heq).2]
  | console c =>
      obtain ⟨⟨_, c'⟩, hread, heq⟩ := Option.map_eq_some_iff.mp h
      rw [← (Prod.mk.inj heq).2]
      unfold Console.read at hread
      split at hread
      · obtain ⟨⟨b, c''⟩, hreg, heq'⟩ := Option.map_eq_some_iff.mp hread
        obtain rfl := (Prod.mk.inj heq').2
        unfold Console.readRegister at hreg
        split at hreg <;> cases hreg <;> rfl
      · cases hread

theorem blank_write {data sent : List Byte} (h : d.write offset data = some (d', sent)) :
    d'.blank = d.blank := by
  cases d with
  | ram r =>
      obtain ⟨r', hwrite, heq⟩ := Option.map_eq_some_iff.mp h
      rw [← (Prod.mk.inj heq).1]
      unfold Ram.write at hwrite
      split at hwrite <;> cases hwrite
      simp [blank, Ram.base_setBytes]
  | gpio g =>
      obtain ⟨g', hwrite, heq⟩ := Option.map_eq_some_iff.mp h
      rw [← (Prod.mk.inj heq).1]
      unfold Gpio.write at hwrite
      split at hwrite
      · obtain rfl := Option.some.inj hwrite
        split <;> rfl
      · cases hwrite
  | console c =>
      obtain ⟨⟨c', sent'⟩, hwrite, heq⟩ := Option.map_eq_some_iff.mp h
      rw [← (Prod.mk.inj heq).1]
      unfold Console.write at hwrite
      split at hwrite
      · unfold Console.writeRegister at hwrite
        split at hwrite <;> cases hwrite <;> rfl
      · cases hwrite

theorem blank_takeExit? {halt : Halt} (h : d.takeExit? = some (halt, d')) :
    d'.blank = d.blank := by
  cases d with
  | ram r => cases h
  | console c => cases h
  | gpio g =>
      obtain ⟨b, -, heq⟩ := Option.map_eq_some_iff.mp h
      rw [← (Prod.mk.inj heq).2]
      rfl

end Device

/-! ## The bus -/

namespace Bus

/-- What is attached to a bus, in order. -/
def layout (b : Bus) : List Device := b.devices.map Device.blank

theorem map_blank_set {ds : List Device} {i : Nat} {d d' : Device} (hd : ds[i]? = some d)
    (h : d'.blank = d.blank) : (ds.set i d').map Device.blank = ds.map Device.blank := by
  obtain ⟨hi, hget⟩ := List.getElem?_eq_some_iff.mp hd
  rw [List.map_set, h, ← hget, ← List.getElem_map Device.blank, List.set_getElem_self]
  simpa using hi

theorem layout_readBytes (b : Bus) (addr : Word) (len : Nat) :
    (b.readBytes addr len).2.layout = b.layout := by
  unfold readBytes
  split
  · rfl
  · split
    · rfl
    · rename_i hd
      split
      · rename_i hread
        exact map_blank_set hd (Device.blank_read hread)
      · rfl

theorem layout_writeBytes (b : Bus) (addr : Word) (data : List Byte) :
    (b.writeBytes addr data).2.layout = b.layout := by
  unfold writeBytes
  split
  · rfl
  · split
    · rfl
    · rename_i hd
      split
      · rename_i hwrite
        exact map_blank_set hd (Device.blank_write hwrite)
      · rfl

theorem layout_takeExit (b : Bus) : b.takeExit.2.layout = b.layout := by
  unfold takeExit
  split
  · rfl
  · split
    · rfl
    · rename_i hexit
      obtain ⟨d, hd, hd'⟩ := Option.bind_eq_some_iff.mp hexit
      exact map_blank_set hd (Device.blank_takeExit? hd')

/-- No access attaches, removes or moves a device. -/
theorem Evolves.layout {b c : Bus} (h : b.Evolves c) : c.layout = b.layout := by
  induction h with
  | refl => rfl
  | read _ addr len ih => rw [layout_readBytes, ih]
  | write _ addr data ih => rw [layout_writeBytes, ih]
  | exit _ ih => rw [layout_takeExit, ih]

end Bus

/-! ## One memory -/

/-- Device `k` is the only one that can be memory. -/
def Bus.RamAt (b : Bus) (k : Nat) : Prop :=
  ∀ (i : Nat) (r : Ram), b.devices[i]? = some (.ram r) → i = k

namespace Bus

/-- Of two devices on a bus at most one is memory. -/
def OneRam (b : Bus) : Prop := b.layout.Pairwise fun d e => ¬ (d.isRam ∧ e.isRam)

theorem OneRam.of_layout {b c : Bus} (h : b.OneRam) (hl : c.layout = b.layout) : c.OneRam := by
  unfold OneRam
  rw [hl]
  exact h

theorem OneRam.ramAt {b : Bus} (h : b.OneRam) : ∃ k, b.RamAt k := by
  have hne : ∀ (i j : Nat) (r s : Ram), i < j → b.devices[i]? = some (.ram r) →
      b.devices[j]? ≠ some (.ram s) := by
    intro i j r s hij hi hj
    obtain ⟨hil, hi⟩ := List.getElem?_eq_some_iff.mp hi
    obtain ⟨hjl, hj⟩ := List.getElem?_eq_some_iff.mp hj
    have hpair := List.pairwise_iff_getElem.mp (List.pairwise_map.mp h) i j hil hjl hij
    rw [hi, hj] at hpair
    exact hpair ⟨rfl, rfl⟩
  by_cases hex : ∃ (k : Nat) (r : Ram), b.devices[k]? = some (.ram r)
  · obtain ⟨k, r, hk⟩ := hex
    refine ⟨k, fun i s hi => ?_⟩
    rcases Nat.lt_trichotomy i k with hlt | heq | hgt
    · exact absurd hk (hne i k s r hlt hi)
    · exact heq
    · exact absurd hi (hne k i r s hgt hk)
  · exact ⟨0, fun i r hi => absurd ⟨i, r, hi⟩ hex⟩

theorem perm_insertDevice (d : Device) (ds : List Device) :
    (insertDevice d ds).Perm (d :: ds) := by
  induction ds with
  | nil => exact .refl _
  | cons x xs ih =>
      unfold insertDevice
      split
      · exact .refl _
      · exact (ih.cons x).trans (.swap d x xs)

theorem perm_ofDevices (ds : List Device) : (ofDevices ds).devices.Perm ds := by
  have hfold : ∀ (ds : List Device) (b : Bus),
      (ds.foldl attach b).devices.Perm (b.devices ++ ds) := by
    intro ds
    induction ds with
    | nil => intro b; simp
    | cons d ds ih =>
        intro b
        refine (ih (b.attach d)).trans ?_
        have hd : (b.attach d).devices.Perm (b.devices ++ [d]) :=
          (perm_insertDevice d b.devices).trans (@List.perm_append_comm _ [d] b.devices)
        simpa using hd.append_right ds
  exact hfold ds {}

theorem oneRam_ofDevices {ds : List Device} (h : ds.Pairwise fun d e => ¬ (d.isRam ∧ e.isRam)) :
    (ofDevices ds).OneRam := by
  have hsymm : ∀ {d e : Device}, ¬ (d.isRam ∧ e.isRam) → ¬ (e.isRam ∧ d.isRam) :=
    fun hde hed => hde hed.symm
  unfold OneRam layout
  rw [List.pairwise_map]
  simp only [Device.isRam_blank]
  exact ((perm_ofDevices ds).pairwise_iff hsymm).mpr h

end Bus

theorem Config.oneRam (c : Config) (base : Word) : (Platform.ofConfigAt c base).bus.OneRam := by
  apply Bus.oneRam_ofDevices
  unfold devicesAt
  split
  · exact List.pairwise_singleton _ _
  · exact List.pairwise_singleton _ _
  · have hrest : ∀ e ∈ Device.console { base := c.consoleBase } ::
        c.gpios.map fun g => .gpio { base := g.base, terminates := g.terminates },
        e.isRam = false := by
      simp [Device.isRam]
    refine .cons ?_ (List.pairwise_of_forall_mem_list ?_)
    · intro e he h
      simp [hrest e he] at h
    · intro d hd e _ h
      simp [hrest d hd] at h

/-- The machines that can come about: built from a configuration, with whatever was done to
them, and changed from outside in between, but for what is attached to the bus and where. -/
inductive Machine.Reachable : Machine → Prop where
  | built (c : Config) (base : Word) : Reachable (.ofConfig c (.ofConfigAt c base))
  | acted {σ : Type} {m : Machine} (hm : Reachable m) (host : Host σ) (h : σ) (a : Action) :
      Reachable (m.act host h a).1
  | changed {m n : Machine} (hm : Reachable m)
      (hlayout : n.platform.bus.layout = m.platform.bus.layout) : Reachable n

theorem Machine.Reachable.oneRam {m : Machine} (hr : m.Reachable) : m.platform.bus.OneRam := by
  induction hr with
  | built c base => exact c.oneRam base
  | acted _ host h a ih => exact ih.of_layout (act_evolves _ host h a).bus.layout
  | changed _ hlayout ih => exact ih.of_layout hlayout

end TypedCore
