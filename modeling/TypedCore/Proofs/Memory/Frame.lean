import TypedCore.Machine

/-!
# What an access leaves alone

An access that is refused changes nothing but the bus's note of the device it
tried last, and neither does a fetch, whose halfwords no device with read side
effects answers. `usedLast` names that change, so the lemmas below are
equations: what is left is the same bus, or platform, up to the note.

Collecting an exit request changes the device that made it, and only there.
`Device.settled` is a device without its request.
-/

namespace TypedCore

/-! ## Devices -/

/-- A device whose exit request has been collected. -/
def Device.settled : Device → Device
  | gpio g => gpio { g with pending := none }
  | d => d

/-- Only a read of a single byte can change a device. -/
theorem Device.eq_of_read {d d' : Device} {offset len : Nat} {bytes : List Byte}
    (hlen : len ≠ 1) (h : d.read offset len = some (bytes, d')) : d' = d := by
  cases d with
  | ram r =>
      obtain ⟨_, -, heq⟩ := Option.map_eq_some_iff.mp h
      exact (Prod.mk.inj heq).2.symm
  | console c => simp [read, Console.read, hlen] at h
  | gpio g =>
      obtain ⟨_, -, heq⟩ := Option.map_eq_some_iff.mp h
      exact (Prod.mk.inj heq).2.symm

theorem Device.settled_of_takeExit? {d d' : Device} {halt : Halt}
    (h : d.takeExit? = some (halt, d')) : d'.settled = d.settled := by
  cases d with
  | ram r => cases h
  | console c => cases h
  | gpio g =>
      obtain ⟨b, -, heq⟩ := Option.map_eq_some_iff.mp h
      rw [← (Prod.mk.inj heq).2]
      rfl

/-! ## The bus -/

namespace Bus

/-- The bus after an access tried device `i` and changed nothing. -/
def usedLast (b : Bus) (i : Nat) : Bus := { b with last := i }

theorem usedLast_self (b : Bus) : b.usedLast b.last = b := rfl

theorem readBytes_refused {b : Bus} {addr : Word} {len : Nat}
    (h : (b.readBytes addr len).1 = none) : ∃ i, (b.readBytes addr len).2 = b.usedLast i := by
  unfold readBytes at h ⊢
  cases hr : b.route addr len with
  | none => exact ⟨b.last, rfl⟩
  | some i =>
      simp only [hr] at h ⊢
      cases hd : b.devices[i]? with
      | none => exact ⟨b.last, rfl⟩
      | some d =>
          simp only [hd] at h ⊢
          cases hread : d.read (addr.toNat - d.base.toNat) len with
          | none => exact ⟨i, rfl⟩
          | some result => simp [hread] at h

/-- A read of several bytes leaves every device as it was, answered or not. -/
theorem readBytes_wide (b : Bus) (addr : Word) {len : Nat} (hlen : len ≠ 1) :
    ∃ i, (b.readBytes addr len).2 = b.usedLast i := by
  unfold readBytes
  cases hr : b.route addr len with
  | none => exact ⟨b.last, rfl⟩
  | some i =>
      cases hd : b.devices[i]? with
      | none => exact ⟨b.last, by simp only [hd, usedLast_self]⟩
      | some d =>
          simp only [hd]
          cases hread : d.read (addr.toNat - d.base.toNat) len with
          | none => exact ⟨i, rfl⟩
          | some result =>
              obtain ⟨bytes, d'⟩ := result
              obtain rfl := Device.eq_of_read hlen hread
              have hset : b.devices.set i d' = b.devices := by
                obtain ⟨hi, hget⟩ := List.getElem?_eq_some_iff.mp hd
                rw [← hget, List.set_getElem_self]
              exact ⟨i, by simp only [hset, usedLast]⟩

theorem writeBytes_refused {b : Bus} {addr : Word} {data : List Byte}
    (h : (b.writeBytes addr data).1 = false) :
    ∃ i, (b.writeBytes addr data).2 = b.usedLast i := by
  unfold writeBytes at h ⊢
  cases hr : b.route addr data.length with
  | none => exact ⟨b.last, rfl⟩
  | some i =>
      simp only [hr] at h ⊢
      cases hd : b.devices[i]? with
      | none => exact ⟨b.last, rfl⟩
      | some d =>
          simp only [hd] at h ⊢
          cases hwrite : d.write (addr.toNat - d.base.toNat) data with
          | none => exact ⟨i, rfl⟩
          | some result => simp [hwrite] at h

/-- Collecting an exit request changes no more than the request. -/
theorem takeExit_settled (b : Bus) :
    b.takeExit.2.devices.map Device.settled = b.devices.map Device.settled ∧
      b.takeExit.2.sent = b.sent := by
  unfold takeExit
  cases b.devices.findIdx? (·.takeExit?.isSome) with
  | none => exact ⟨rfl, rfl⟩
  | some i =>
      simp only
      cases hexit : b.devices[i]?.bind Device.takeExit? with
      | none => exact ⟨rfl, rfl⟩
      | some result =>
          obtain ⟨halt, d'⟩ := result
          obtain ⟨d, hd, hd'⟩ := Option.bind_eq_some_iff.mp hexit
          obtain ⟨hi, hget⟩ := List.getElem?_eq_some_iff.mp hd
          refine ⟨?_, rfl⟩
          simp only [List.map_set, Device.settled_of_takeExit? hd', ← hget]
          rw [← List.getElem_map Device.settled, List.set_getElem_self]
          simpa using hi

theorem takeExit_usedLast (b : Bus) (i : Nat) : (b.usedLast i).takeExit.1 = b.takeExit.1 := by
  unfold takeExit usedLast
  dsimp only
  split
  · rfl
  · split <;> rfl

theorem takeExit_snd_usedLast (b : Bus) (i : Nat) :
    (b.usedLast i).takeExit.2 = b.takeExit.2.usedLast i := by
  unfold takeExit usedLast
  dsimp only
  split
  · rfl
  · split <;> rfl

theorem takeExit_of_none {b : Bus} (h : b.takeExit.1 = none) : b.takeExit.2 = b := by
  unfold takeExit at h ⊢
  split
  · rfl
  · rename_i i hi
    rw [hi] at h
    dsimp only at h ⊢
    split
    · rfl
    · rename_i hexit
      rw [hexit] at h
      cases h

end Bus

/-! ## The platform -/

namespace Platform

/-- The platform after an access tried device `i` and changed nothing. -/
def usedLast (p : Platform) (i : Nat) : Platform := { p with bus := p.bus.usedLast i }

theorem usedLast_usedLast (p : Platform) (i j : Nat) :
    (p.usedLast i).usedLast j = p.usedLast j := rfl

theorem load_refused {p : Platform} {mode : Mode} {addr : Word} {width : Width} {access : Access}
    {fault : MemFault} {q : Platform} (h : p.load mode addr width access = (.error fault, q)) :
    ∃ i, q = p.usedLast i := by
  unfold load at h
  split at h
  · split at h
    · obtain ⟨-, rfl⟩ := Prod.mk.inj h
      exact ⟨p.bus.last, rfl⟩
    · rename_i a _
      split at h
      · simp at h
      · rename_i bus hread
        obtain ⟨-, rfl⟩ := Prod.mk.inj h
        have hnone : (p.bus.readBytes a width.bytes).1 = none := by
          simpa [Bus.read] using congrArg Prod.fst hread
        obtain ⟨i, hi⟩ := Bus.readBytes_refused hnone
        have hbus : bus = p.bus.usedLast i := hi ▸ (congrArg Prod.snd hread).symm
        exact ⟨i, by rw [hbus]; rfl⟩
  · obtain ⟨-, rfl⟩ := Prod.mk.inj h
    exact ⟨p.bus.last, rfl⟩

/-- Reading more than one byte at a time never changes a device. -/
theorem load_wide (p : Platform) (mode : Mode) (addr : Word) {width : Width} (access : Access)
    (hw : width ≠ .byte) : ∃ i, (p.load mode addr width access).2 = p.usedLast i := by
  unfold load
  split
  · split
    · exact ⟨p.bus.last, rfl⟩
    · rename_i a _
      have hlen : width.bytes ≠ 1 := by cases width <;> simp_all [Width.bytes]
      obtain ⟨i, hi⟩ := p.bus.readBytes_wide a hlen
      split <;> rename_i bus hread <;>
        exact ⟨i, by rw [show bus = p.bus.usedLast i from hi ▸ (congrArg Prod.snd hread).symm]; rfl⟩
  · exact ⟨p.bus.last, rfl⟩

theorem write_refused {p : Platform} {mode : Mode} {addr : Word} {width : Width} {value : Word}
    {fault : MemFault} {q : Platform} (h : p.write mode addr width value = (.error fault, q)) :
    ∃ i, q = p.usedLast i := by
  unfold write at h
  split at h
  · split at h
    · obtain ⟨-, rfl⟩ := Prod.mk.inj h
      exact ⟨p.bus.last, rfl⟩
    · split at h
      · simp at h
      · rename_i bus hwrite
        obtain ⟨-, rfl⟩ := Prod.mk.inj h
        obtain ⟨i, hi⟩ := Bus.writeBytes_refused (congrArg Prod.fst hwrite)
        have hbus : bus = p.bus.usedLast i := hi ▸ (congrArg Prod.snd hwrite).symm
        exact ⟨i, by rw [hbus]; rfl⟩
  · obtain ⟨-, rfl⟩ := Prod.mk.inj h
    exact ⟨p.bus.last, rfl⟩

/-! ## Faults -/

theorem physical_fault {p : Platform} {mode : Mode} {addr : Word} {access : Access}
    {fault : MemFault} (h : p.physical mode addr access = .error fault) :
    fault = ⟨access.violation, addr⟩ := by
  unfold physical at h
  split at h
  · cases h
  · cases h
  · cases h
  · dsimp only at h
    split at h
    · cases h
    · exact (Except.error.inj h).symm

/-- A refused read names its own address and one of two causes. -/
theorem load_fault {p : Platform} {mode : Mode} {addr : Word} {width : Width} {access : Access}
    {fault : MemFault} {q : Platform} (h : p.load mode addr width access = (.error fault, q)) :
    fault = ⟨.unaligned, addr⟩ ∨ fault = ⟨access.violation, addr⟩ := by
  unfold load at h
  split at h
  · right
    split at h
    · rename_i hphysical
      obtain ⟨hfault, -⟩ := Prod.mk.inj h
      exact Except.error.inj hfault ▸ physical_fault hphysical
    · split at h
      · cases congrArg Prod.fst h
      · exact (Except.error.inj (Prod.mk.inj h).1).symm
  · exact .inl (Except.error.inj (Prod.mk.inj h).1).symm

theorem write_fault {p : Platform} {mode : Mode} {addr : Word} {width : Width} {value : Word}
    {fault : MemFault} {q : Platform} (h : p.write mode addr width value = (.error fault, q)) :
    fault = ⟨.unaligned, addr⟩ ∨ fault = ⟨.memoryViolation, addr⟩ := by
  unfold write at h
  split at h
  · right
    split at h
    · rename_i hphysical
      obtain ⟨hfault, -⟩ := Prod.mk.inj h
      exact Except.error.inj hfault ▸ physical_fault hphysical
    · split at h
      · cases congrArg Prod.fst h
      · exact (Except.error.inj (Prod.mk.inj h).1).symm
  · exact .inl (Except.error.inj (Prod.mk.inj h).1).symm

/-! ## Fetching -/

theorem fetchHalf_snd (p : Platform) (mode : Mode) (addr : Word) :
    ∃ i, (p.fetchHalf mode addr).2 = p.usedLast i := by
  obtain ⟨i, hi⟩ := p.load_wide mode addr .fetch (show Width.half ≠ .byte by decide)
  refine ⟨i, ?_⟩
  unfold fetchHalf
  split <;> rename_i q hload <;> exact hi ▸ (congrArg Prod.snd hload).symm

theorem fetchExtension_snd (p : Platform) (mode : Mode) (pc : Word) (len : Nat) :
    ∃ i, (p.fetchExtension mode pc len).2 = p.usedLast i := by
  obtain ⟨i, hi⟩ := fetchHalf_snd p mode (pc + 2)
  unfold fetchExtension
  split
  · exact ⟨p.bus.last, rfl⟩
  · refine ⟨i, ?_⟩
    split <;> rename_i q hhalf <;> exact hi ▸ (congrArg Prod.snd hhalf).symm
  · split <;> rename_i q hhalf
    · exact ⟨i, hi ▸ (congrArg Prod.snd hhalf).symm⟩
    · obtain rfl : q = p.usedLast i := hi ▸ (congrArg Prod.snd hhalf).symm
      obtain ⟨j, hj⟩ := fetchHalf_snd (p.usedLast i) mode (pc + 4)
      refine ⟨j, ?_⟩
      rw [usedLast_usedLast] at hj
      split <;> rename_i r hhigh <;> exact hj ▸ (congrArg Prod.snd hhigh).symm

/-- Fetching leaves memory and every device as they were. -/
theorem fetch_snd (p : Platform) (mode : Mode) (pc : Word) :
    ∃ i, (p.fetch mode pc).2 = p.usedLast i := by
  obtain ⟨i, hi⟩ := fetchHalf_snd p mode pc
  unfold fetch
  split <;> rename_i q hhalf
  · exact ⟨i, hi ▸ (congrArg Prod.snd hhalf).symm⟩
  · rename_i word
    obtain rfl : q = p.usedLast i := hi ▸ (congrArg Prod.snd hhalf).symm
    obtain ⟨j, hj⟩ := fetchExtension_snd (p.usedLast i) mode pc word.insnLength
    refine ⟨j, ?_⟩
    rw [usedLast_usedLast] at hj
    split <;> rename_i r hext <;> exact hj ▸ (congrArg Prod.snd hext).symm

theorem fetchHalf_fault {p : Platform} {mode : Mode} {addr : Word} {fault : MemFault} {q : Platform}
    (h : p.fetchHalf mode addr = (.error fault, q)) :
    fault.cause = .unaligned ∨ fault.cause = .fetchViolation := by
  unfold fetchHalf at h
  split at h
  · cases congrArg Prod.fst h
  · rename_i hload
    obtain rfl := Except.error.inj (Prod.mk.inj h).1
    rcases load_fault hload with rfl | rfl
    · exact .inl rfl
    · exact .inr rfl

theorem fetchExtension_fault {p : Platform} {mode : Mode} {pc : Word} {len : Nat}
    {fault : MemFault} {q : Platform} (h : p.fetchExtension mode pc len = (.error fault, q)) :
    fault.cause = .unaligned ∨ fault.cause = .fetchViolation := by
  unfold fetchExtension at h
  split at h
  · cases h
  · split at h <;> rename_i hhalf <;> cases h
    exact fetchHalf_fault hhalf
  · split at h <;> rename_i hlow
    · cases h
      exact fetchHalf_fault hlow
    · split at h <;> rename_i hhigh <;> cases h
      exact fetchHalf_fault hhigh

/-- A fetch fails for one of two causes, whichever of its halfwords is refused. -/
theorem fetch_fault {p : Platform} {mode : Mode} {pc : Word} {fault : MemFault} {q : Platform}
    (h : p.fetch mode pc = (.error fault, q)) :
    fault.cause = .unaligned ∨ fault.cause = .fetchViolation := by
  unfold fetch at h
  split at h <;> rename_i hhalf
  · cases h
    exact fetchHalf_fault hhalf
  · split at h <;> rename_i hext <;> cases h
    exact fetchExtension_fault hext

end Platform

/-! ## Contents -/

/-- Two platforms with the same windows, memory and devices, up to an exit request that
was collected. -/
structure Platform.SameContents (p q : Platform) : Prop where
  model : q.model = p.model
  inst : q.inst = p.inst
  data : q.data = p.data
  devices : q.bus.devices.map Device.settled = p.bus.devices.map Device.settled
  sent : q.bus.sent = p.bus.sent

namespace Platform.SameContents

variable {p q r : Platform}

theorem refl (p : Platform) : p.SameContents p := ⟨rfl, rfl, rfl, rfl, rfl⟩

theorem trans (h₁ : p.SameContents q) (h₂ : q.SameContents r) : p.SameContents r where
  model := h₂.model.trans h₁.model
  inst := h₂.inst.trans h₁.inst
  data := h₂.data.trans h₁.data
  devices := h₂.devices.trans h₁.devices
  sent := h₂.sent.trans h₁.sent

theorem usedLast (p : Platform) (i : Nat) : p.SameContents (p.usedLast i) :=
  ⟨rfl, rfl, rfl, rfl, rfl⟩

theorem takeExit (p : Platform) : p.SameContents { p with bus := p.bus.takeExit.2 } :=
  ⟨rfl, rfl, rfl, p.bus.takeExit_settled.1, p.bus.takeExit_settled.2⟩

/-- Every memory keeps its bytes. -/
theorem ram (h : p.SameContents q) {i : Nat} {r : Ram} (hr : p.bus.devices[i]? = some (.ram r)) :
    q.bus.devices[i]? = some (.ram r) := by
  have hi : (q.bus.devices.map Device.settled)[i]? = some (.ram r) := by
    rw [h.devices, List.getElem?_map, hr]
    rfl
  rw [List.getElem?_map] at hi
  obtain ⟨d, hd, hsettled⟩ := Option.map_eq_some_iff.mp hi
  cases d <;> cases hsettled
  exact hd

/-- Every console keeps its queue and its configuration. -/
theorem console (h : p.SameContents q) {i : Nat} {c : Console}
    (hc : p.bus.devices[i]? = some (.console c)) : q.bus.devices[i]? = some (.console c) := by
  have hi : (q.bus.devices.map Device.settled)[i]? = some (.console c) := by
    rw [h.devices, List.getElem?_map, hc]
    rfl
  rw [List.getElem?_map] at hi
  obtain ⟨d, hd, hsettled⟩ := Option.map_eq_some_iff.mp hi
  cases d <;> cases hsettled
  exact hd

end Platform.SameContents

end TypedCore
