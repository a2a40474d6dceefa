import TypedCore.Proofs.Memory.Routing

/-!
# Routing and the history of a bus

The device that was used last is tried before the others, to save the search.
`Bus.lookup` is that search: the first device, in the order of addresses, that
covers the access. An access goes where the search would send it, whatever the
bus was used for before, if no two devices cover it (`routing_after`); a bus
whose devices share no address has no other accesses. Whether an access goes
anywhere at all never depends on what was used last.

Where two devices cover an access, the history decides between them. The last
theorem gives a configuration with such an access.
-/

namespace TypedCore

/-- A use of a bus: an access, answered or not, a question whether an address is valid, or the
collection of an exit request. -/
inductive BusUse where
  | read (addr : Word) (len : Nat)
  | write (addr : Word) (data : List Byte)
  | load (addr : Word) (data : List Byte)
  | query (addr : Word) (len : Nat)
  | exit

/-- The bus after a use. -/
def BusUse.perform (b : Bus) : BusUse → Bus
  | read addr len => (b.readBytes addr len).2
  | write addr data => (b.writeBytes addr data).2
  | load addr data => (b.load addr data).2
  | query addr len => (b.isValid addr len).2
  | exit => b.takeExit.2

namespace Bus

variable {b c : Bus} {addr : Word} {len : Nat}

/-- The bus after some uses. -/
def after (b : Bus) (uses : List BusUse) : Bus := uses.foldl BusUse.perform b

theorem layout_isValid (b : Bus) (addr : Word) (len : Nat) :
    (b.isValid addr len).2.layout = b.layout := by
  unfold isValid
  split <;> rfl

theorem layout_perform (b : Bus) (use : BusUse) : (use.perform b).layout = b.layout := by
  cases use with
  | read addr len => exact b.layout_readBytes addr len
  | write addr data => exact b.layout_writeBytes addr data
  | load addr data => exact (Evolves.load b addr data).layout
  | query addr len => exact b.layout_isValid addr len
  | exit => exact b.layout_takeExit

theorem layout_after (b : Bus) (uses : List BusUse) : (b.after uses).layout = b.layout := by
  induction uses generalizing b with
  | nil => rfl
  | cons use uses ih => exact (ih (use.perform b)).trans (b.layout_perform use)

/-! ## The search by address -/

/-- Device `i` and the offset at which an address lies in it. -/
def located (b : Bus) (addr : Word) (i : Nat) : Option (Nat × Nat) :=
  b.devices[i]?.map fun d => (i, addr.toNat - d.base.toNat)

/-- The device and the offset that an access goes to. -/
def destination (b : Bus) (addr : Word) (len : Nat) : Option (Nat × Nat) :=
  (b.route addr len).bind (b.located addr)

/-- The first device that covers an access, and the offset in it. -/
def lookup (b : Bus) (addr : Word) (len : Nat) : Option (Nat × Nat) :=
  (b.devices.findIdx? (·.covers addr len)).bind (b.located addr)

theorem findIdx?_layout (b : Bus) (addr : Word) (len : Nat) :
    b.layout.findIdx? (·.covers addr len) = b.devices.findIdx? (·.covers addr len) := by
  simp [layout, List.findIdx?_map, Function.comp_def]

theorem located_layout (b : Bus) (addr : Word) (i : Nat) :
    b.located addr i = b.layout[i]?.map fun d => (i, addr.toNat - d.base.toNat) := by
  simp [located, layout, Function.comp_def]

/-- The search looks at the layout alone. -/
theorem lookup_of_layout (h : c.layout = b.layout) (addr : Word) (len : Nat) :
    c.lookup addr len = b.lookup addr len := by
  have hlocated : c.located addr = b.located addr := by
    funext i
    rw [located_layout, located_layout, h]
  unfold lookup
  rw [← findIdx?_layout, h, findIdx?_layout, hlocated]

theorem isSome_located {i : Nat} (h : b.owns addr len i = true) :
    (b.located addr i).isSome = true := by
  unfold owns at h
  unfold located
  split at h
  · rename_i d hd
    rw [hd]
    rfl
  · cases h

theorem owns_of_findIdx? {i : Nat} (h : b.devices.findIdx? (·.covers addr len) = some i) :
    b.owns addr len i = true := by
  obtain ⟨hi, hcovers, -⟩ := List.findIdx?_eq_some_iff_getElem.mp h
  exact (owns_eq_covers (List.getElem?_eq_getElem hi)).trans hcovers

/-- What was used last never decides whether an access goes anywhere. -/
theorem isSome_destination (b : Bus) (addr : Word) (len : Nat) :
    (b.destination addr len).isSome = (b.lookup addr len).isSome := by
  have hnone : b.route addr len = none ↔ b.devices.findIdx? (·.covers addr len) = none :=
    route_eq_none_iff.trans List.findIdx?_eq_none_iff.symm
  unfold destination lookup
  cases hroute : b.route addr len with
  | none => rw [hnone.mp hroute]
  | some i =>
      cases hfind : b.devices.findIdx? (·.covers addr len) with
      | none =>
          rw [hnone.mpr hfind] at hroute
          cases hroute
      | some j =>
          exact (isSome_located (owns_of_route hroute)).trans
            (isSome_located (owns_of_findIdx? hfind)).symm

/-! ## Accesses that one device covers -/

/-- No two devices cover an access. -/
def Unambiguous (b : Bus) (addr : Word) (len : Nat) : Prop :=
  b.layout.Pairwise fun d e => ¬ (d.covers addr len ∧ e.covers addr len)

theorem Unambiguous.of_layout (h : b.Unambiguous addr len) (hl : c.layout = b.layout) :
    c.Unambiguous addr len := by
  unfold Unambiguous
  rw [hl]
  exact h

theorem Unambiguous.eq {i j : Nat} (h : b.Unambiguous addr len) (hi : b.owns addr len i = true)
    (hj : b.owns addr len j = true) : i = j := by
  have hcovers : ∀ k, b.owns addr len k = true →
      ∃ hk : k < b.devices.length, (b.devices[k]).covers addr len = true := by
    intro k hk
    unfold owns at hk
    split at hk
    · rename_i d hd
      obtain ⟨hlt, rfl⟩ := List.getElem?_eq_some_iff.mp hd
      exact ⟨hlt, hk⟩
    · cases hk
  obtain ⟨hil, hic⟩ := hcovers i hi
  obtain ⟨hjl, hjc⟩ := hcovers j hj
  have hpair := List.pairwise_iff_getElem.mp (List.pairwise_map.mp h)
  simp only [Device.covers_blank] at hpair
  rcases Nat.lt_trichotomy i j with hlt | heq | hgt
  · exact absurd ⟨hic, hjc⟩ (hpair i j hil hjl hlt)
  · exact heq
  · exact absurd ⟨hjc, hic⟩ (hpair j i hjl hil hgt)

/-- If only one device covers an access, the shortcuts lead to it. -/
theorem destination_eq_lookup (h : b.Unambiguous addr len) :
    b.destination addr len = b.lookup addr len := by
  have hsome := isSome_destination b addr len
  unfold destination lookup at hsome ⊢
  cases hroute : b.route addr len with
  | none =>
      rw [hroute] at hsome
      exact (Option.isSome_eq_false_iff.mp hsome.symm |> Option.isNone_iff_eq_none.mp).symm
  | some i =>
      cases hfind : b.devices.findIdx? (·.covers addr len) with
      | none =>
          have hlocated := isSome_located (owns_of_route hroute)
          rw [hroute, hfind] at hsome
          rw [show (some i).bind (b.located addr) = b.located addr i from rfl, hlocated] at hsome
          cases hsome
      | some j => rw [h.eq (owns_of_route hroute) (owns_of_findIdx? hfind)]

theorem unambiguous_ofDevices {ds : List Device}
    (h : ds.Pairwise fun d e => ¬ (d.covers addr len ∧ e.covers addr len)) :
    (ofDevices ds).Unambiguous addr len := by
  have hsymm : ∀ {d e : Device}, ¬ (d.covers addr len ∧ e.covers addr len) →
      ¬ (e.covers addr len ∧ d.covers addr len) := fun hde hed => hde hed.symm
  unfold Unambiguous layout
  rw [List.pairwise_map]
  simp only [Device.covers_blank]
  exact ((perm_ofDevices ds).pairwise_iff hsymm).mpr h

/-- Devices that share no address never cover the same access. -/
theorem pairwise_of_apart {ds : List Device} (h : ds.Pairwise Device.Apart) (hlen : 0 < len) :
    ds.Pairwise fun d e => ¬ (d.covers addr len ∧ e.covers addr len) :=
  h.imp fun hapart hboth => hapart.not_covers hlen hboth.1 hboth.2

theorem isSome_destination_after (b : Bus) (uses : List BusUse) (addr : Word) (len : Nat) :
    ((b.after uses).destination addr len).isSome = (b.lookup addr len).isSome := by
  rw [isSome_destination, lookup_of_layout (b.layout_after uses)]

theorem Unambiguous.destination_after (h : b.Unambiguous addr len) (uses : List BusUse) :
    (b.after uses).destination addr len = b.lookup addr len := by
  rw [destination_eq_lookup (h.of_layout (b.layout_after uses)),
    lookup_of_layout (b.layout_after uses)]

/-- Whether an access goes anywhere does not depend on what a bus was used for before, and
neither does where it goes if no two of the devices cover it: it goes where the search by
address leads. With devices that share no address, this is so for every access. -/
theorem routing_after (ds : List Device) (uses uses' : List BusUse) (addr : Word) (len : Nat) :
    (((ofDevices ds).after uses).destination addr len).isSome =
        (((ofDevices ds).after uses').destination addr len).isSome ∧
      ((ds.Pairwise fun d e => ¬ (d.covers addr len ∧ e.covers addr len)) →
        ((ofDevices ds).after uses).destination addr len = (ofDevices ds).lookup addr len ∧
        ((ofDevices ds).after uses').destination addr len = (ofDevices ds).lookup addr len) ∧
      (ds.Pairwise Device.Apart → 0 < len →
        ((ofDevices ds).after uses).destination addr len =
          ((ofDevices ds).after uses').destination addr len) := by
  refine ⟨?_, fun h => ?_, fun h hlen => ?_⟩
  · rw [isSome_destination_after, isSome_destination_after]
  · have hone := unambiguous_ofDevices h
    exact ⟨hone.destination_after uses, hone.destination_after uses'⟩
  · have hone : (ofDevices ds).Unambiguous addr len :=
      unambiguous_ofDevices (pairwise_of_apart h hlen)
    rw [hone.destination_after uses, hone.destination_after uses']

/-- Memory, a console and a GPIO byte that touch but do not overlap. -/
def adjacentDevices : List Device :=
  [.ram { size := 64, base := 0 }, .console { base := 64 },
    .gpio { base := 69, terminates := true }]

/-- The last byte of memory is read from memory, also after the console was read. -/
theorem routing_after_adjacent :
    adjacentDevices.Pairwise Device.Apart ∧
      ((ofDevices adjacentDevices).after [.read 66 1]).destination 63 1 =
        ((ofDevices adjacentDevices).after [.query 69 1, .write 64 [7]]).destination 63 1 :=
  have hapart : adjacentDevices.Pairwise Device.Apart := by decide
  ⟨hapart, (routing_after adjacentDevices [.read 66 1] [.query 69 1, .write 64 [7]] 63 1).2.2 hapart
    (by decide)⟩

/-- A configuration may put a console where memory ends. The bytes that they share are then
read from the one that was used last. -/
theorem routing_depends_on_uses :
    ¬ ∀ (c : Config) (uses uses' : List BusUse) (addr : Word) (len : Nat),
      c.ramSizeOk = true → 0 < len →
        ((Platform.ofConfig c).bus.after uses).destination addr len =
          ((Platform.ofConfig c).bus.after uses').destination addr len := by
  intro h
  have heq := h { model := .peripheral, ramSize := 64, consoleBase := 62, gpios := [] } []
    [.read 66 1] 63 1 (by decide) (by decide)
  revert heq
  decide +kernel

end Bus

end TypedCore
