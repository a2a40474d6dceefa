import TypedCore.Proofs.Memory.Alone
import TypedCore.Proofs.Memory.ConsoleQueue
import TypedCore.Proofs.Memory.RoutingHistory

/-!
# Blocks in one piece

`Bus.load` offers a block to the bus in one piece, and places it byte by byte if that is
refused. If no two devices share an address, this is the same as placing it byte by byte
from the start, up to the note of the device used last:

* a block that was refused leaves nothing behind but that note, and no access of a byte
  depends on it (`writeEach_usedLast`);
* a block that is taken and has more than one byte was taken by memory, which takes its
  bytes one by one as well (`writeEach_ram`), as long as each of them has an address.

The last condition is not idle. Whether a device covers a block is decided on numbers
that do not wrap, so a memory whose end lies behind the last address takes bytes there,
while the addresses of single bytes go on at 0.
-/

namespace TypedCore

/-- Only memory takes more than one byte. -/
theorem Device.isRam_of_write {d d' : Device} {offset : Nat} {data out : List Byte}
    (hlen : data.length ≠ 1) (h : d.write offset data = some (d', out)) : ∃ r, d = .ram r := by
  cases d with
  | ram r => exact ⟨r, rfl⟩
  | console c => exact absurd (Device.length_of_write_console h) hlen
  | gpio g =>
      obtain ⟨g', hwrite, -⟩ := Option.map_eq_some_iff.mp h
      unfold Gpio.write at hwrite
      split at hwrite
      · exact absurd rfl hlen
      · cases hwrite

namespace Bus

variable {b : Bus} {addr : Word} {data : List Byte} {k : Nat} {r : Ram}

/-! ## Single bytes -/

theorem writeEach_cons (b : Bus) (addr : Word) (x : Byte) (rest : List Byte) :
    b.writeEach addr (x :: rest) =
      if (b.writeBytes addr [x]).1 then (b.writeBytes addr [x]).2.writeEach (addr + 1) rest
      else b.writeBytes addr [x] := by
  rw [writeEach]
  generalize b.writeBytes addr [x] = taken
  obtain ⟨_ | _, c⟩ := taken <;> rfl

theorem writeEach_singleton (b : Bus) (addr : Word) (x : Byte) :
    b.writeEach addr [x] = b.writeBytes addr [x] := by
  rw [writeEach_cons]
  split
  · rename_i htaken
    exact Prod.ext htaken.symm rfl
  · rfl

/-- An access goes the same way whichever device was used last. -/
theorem writeBytes_usedLast (ha : b.DevicesApart) (hne : data ≠ []) (addr : Word) (i : Nat) :
    ∃ j, (b.usedLast i).writeBytes addr data =
      ((b.writeBytes addr data).1, (b.writeBytes addr data).2.usedLast j) := by
  have hlen := List.length_pos_iff.mpr hne
  cases hroute : b.route addr data.length with
  | none =>
      have hnone := route_eq_none_iff.mp hroute
      rw [writeBytes_uncovered hnone, writeBytes_uncovered (b := b.usedLast i) hnone]
      exact ⟨i, rfl⟩
  | some k =>
      have hown : b.owns addr data.length k = true := owns_of_route hroute
      have hsame : (b.usedLast i).route addr data.length = some k :=
        route_of_owns (b := b.usedLast i) (ha.alone k) hlen hown
      have hdevices : (b.usedLast i).devices = b.devices := rfl
      unfold writeBytes
      rw [hroute, hsame]
      simp only [hdevices]
      cases b.devices[k]? with
      | none => exact ⟨i, rfl⟩
      | some d =>
          dsimp only
          cases d.write (addr.toNat - d.base.toNat) data with
          | none => exact ⟨k, rfl⟩
          | some taken => exact ⟨k, rfl⟩

theorem writeEach_usedLast (ha : b.DevicesApart) (data : List Byte) (addr : Word) (i : Nat) :
    ∃ j, (b.usedLast i).writeEach addr data =
      ((b.writeEach addr data).1, (b.writeEach addr data).2.usedLast j) := by
  induction data generalizing b addr i with
  | nil => exact ⟨i, rfl⟩
  | cons x rest ih =>
      obtain ⟨j, hj⟩ := writeBytes_usedLast ha (List.cons_ne_nil x []) addr i
      rw [writeEach_cons, writeEach_cons, hj]
      dsimp only
      split
      · exact ih (ha.of_layout (b.layout_writeBytes addr [x])) (addr + 1) j
      · exact ⟨j, rfl⟩

/-! ## Blocks in memory -/

/-- The bus once memory `k` took an access and has the contents `r`. -/
def putRam (b : Bus) (k : Nat) (r : Ram) : Bus :=
  { b.usedLast k with devices := b.devices.set k (.ram r) }

theorem putRam_putRam (b : Bus) (k : Nat) (r r' : Ram) :
    (b.putRam k r).putRam k r' = b.putRam k r' := by
  unfold putRam usedLast
  rw [List.set_set]

theorem getElem?_putRam {d : Device} (hk : b.devices[k]? = some d) (r : Ram) :
    (b.putRam k r).devices[k]? = some (.ram r) :=
  List.getElem?_set_self (List.getElem?_eq_some_iff.mp hk).1

/-- Memory that is alone takes a block that it covers. -/
theorem writeBytes_putRam (ha : b.Alone k) (hk : b.devices[k]? = some (.ram r)) (hne : data ≠ [])
    (hc : r.Covers addr data.length) :
    b.writeBytes addr data =
      (true, b.putRam k (r.setBytes (addr.toNat - r.base.toNat) data)) :=
  writeBytes_alone ha hk (List.length_pos_iff.mpr hne) hc

/-- It takes the bytes of the block one by one as well, if all of them have an address. -/
theorem writeEach_ram (ha : b.Alone k) (hk : b.devices[k]? = some (.ram r)) (hne : data ≠ [])
    (hc : r.Covers addr data.length) (hend : addr.toNat + data.length ≤ 2 ^ 32) :
    b.writeEach addr data =
      (true, b.putRam k (r.setBytes (addr.toNat - r.base.toNat) data)) := by
  induction data generalizing b addr r with
  | nil => exact absurd rfl hne
  | cons x rest ih =>
      obtain ⟨hlow, hhigh⟩ := hc
      rw [List.length_cons] at hhigh hend
      have hfirst := writeBytes_putRam ha hk (List.cons_ne_nil x [])
        ⟨hlow, by rw [List.length_singleton]; omega⟩
      rw [writeEach_cons, hfirst, if_pos rfl]
      cases rest with
      | nil => rfl
      | cons y rest =>
          have hnext : (addr + 1).toNat = addr.toNat + 1 := by
            have hone : (1 : Word).toNat = 1 := rfl
            rw [List.length_cons] at hend
            rw [BitVec.toNat_add, hone]
            omega
          have hoffset : (addr + 1).toNat - r.base.toNat = addr.toNat - r.base.toNat + 1 := by
            omega
          have hlayout := b.layout_writeBytes addr [x]
          rw [hfirst] at hlayout
          have hcovers : (r.setBytes (addr.toNat - r.base.toNat) [x]).Covers (addr + 1)
              (y :: rest).length := Ram.covers_setBytes ⟨by omega, by omega⟩
          rw [ih (ha.of_layout hlayout) (getElem?_putRam hk _) (List.cons_ne_nil y rest) hcovers
            (by omega), Ram.base_setBytes, hoffset, putRam_putRam]
          rfl

/-! ## Loads -/

/-- What takes a block of more than one byte is memory that covers it. -/
theorem covers_of_taken (hlen : data.length ≠ 1) (h : (b.writeBytes addr data).1 = true) :
    ∃ (k : Nat) (r : Ram), b.devices[k]? = some (.ram r) ∧ r.Covers addr data.length := by
  unfold writeBytes at h
  cases hroute : b.route addr data.length with
  | none => simp [hroute] at h
  | some k =>
      cases hk : b.devices[k]? with
      | none => simp [hroute, hk] at h
      | some d =>
          cases hwrite : d.write (addr.toNat - d.base.toNat) data with
          | none => simp [hroute, hk, hwrite] at h
          | some taken =>
              obtain ⟨r, rfl⟩ := Device.isRam_of_write hlen hwrite
              have hcovers : (Device.ram r).covers addr data.length = true :=
                owns_eq_covers hk ▸ owns_of_route hroute
              exact ⟨k, r, hk, Device.covers_iff.mp hcovers⟩

theorem load_taken (h : (b.writeBytes addr data).1 = true) :
    b.load addr data = b.writeBytes addr data := by
  unfold load
  generalize b.writeBytes addr data = taken at h
  obtain ⟨_ | _, c⟩ := taken
  · cases h
  · rfl

theorem load_refused (h : (b.writeBytes addr data).1 = false) :
    ∃ i, b.load addr data = (b.usedLast i).writeEach addr data := by
  obtain ⟨i, hi⟩ := writeBytes_refused h
  refine ⟨i, ?_⟩
  unfold load
  rw [← hi]
  generalize b.writeBytes addr data = taken at h
  obtain ⟨_ | _, c⟩ := taken
  · rfl
  · cases h

/-- On a bus whose devices share no address, a block is placed as its bytes are that are written
one by one, each at the address after the last, up to the first that is not taken: with the same
result, the same contents of every device, the same output and the same exit requests. The one
exception is a block in a memory that goes on behind the last address: it is taken in one piece,
with the bytes there. -/
theorem load_bytewise (ha : b.DevicesApart) (addr : Word) (hne : data ≠ []) :
    ((∀ r, .ram r ∈ b.devices → r.Covers addr data.length → addr.toNat + data.length ≤ 2 ^ 32) →
        ∃ i, b.load addr data = ((b.writeEach addr data).1, (b.writeEach addr data).2.usedLast i)) ∧
      ∀ k r, b.devices[k]? = some (.ram r) → r.Covers addr data.length →
        b.load addr data = (true, b.putRam k (r.setBytes (addr.toNat - r.base.toNat) data)) := by
  have hram : ∀ k r, b.devices[k]? = some (.ram r) → r.Covers addr data.length →
      b.load addr data = (true, b.putRam k (r.setBytes (addr.toNat - r.base.toNat) data)) := by
    intro k r hk hc
    have hwhole := writeBytes_putRam (ha.alone k) hk hne hc
    exact (load_taken (congrArg Prod.fst hwhole)).trans hwhole
  refine ⟨fun hend => ?_, hram⟩
  cases htaken : (b.writeBytes addr data).1 with
  | false =>
      obtain ⟨i, hload⟩ := load_refused htaken
      rw [hload]
      exact writeEach_usedLast ha data addr i
  | true =>
      by_cases hlen : data.length = 1
      · obtain ⟨x, rfl⟩ := List.length_eq_one_iff.mp hlen
        rw [load_taken htaken, writeEach_singleton]
        exact ⟨_, rfl⟩
      · obtain ⟨k, r, hk, hc⟩ := covers_of_taken hlen htaken
        have hmem := List.mem_of_getElem? hk
        rw [hram k r hk hc, writeEach_ram (ha.alone k) hk hne hc (hend r hmem hc)]
        exact ⟨_, rfl⟩

/-- A memory of two bytes, of which only the first has an address. -/
def overhanging : Bus := { devices := [.ram ⟨0xffffffff, 2, ∅⟩] }

/-- A block that begins in memory goes on in the data register of a console, and ends at its
status register, which takes nothing. -/
theorem load_bytewise_spanning :
    let b := ofDevices adjacentDevices
    b.DevicesApart ∧ overhanging.DevicesApart ∧
      (b.load 62 [1, 2, 3, 4]).1 = false ∧ (b.load 62 [1, 2, 3, 4]).2.sent = #[3] ∧
      (overhanging.load 0xffffffff [1, 2]).1 = true := by
  intro b
  have ha : b.DevicesApart := by decide +kernel
  have ha' : overhanging.DevicesApart := by decide
  have hne : ([1, 2, 3, 4] : List Byte) ≠ [] := by decide
  have hne' : ([1, 2] : List Byte) ≠ [] := by decide
  obtain ⟨i, hi⟩ := (load_bytewise ha 62 hne).1 fun _ _ _ => by decide
  have hwhole := (load_bytewise ha' 0xffffffff hne').2 0 ⟨0xffffffff, 2, ∅⟩ rfl (by decide)
  have heach : (b.writeEach 62 [1, 2, 3, 4]).1 = false ∧
      (b.writeEach 62 [1, 2, 3, 4]).2.sent = #[3] := by
    decide +kernel
  refine ⟨ha, ha', ?_, ?_, congrArg Prod.fst hwhole⟩
  · rw [hi]
    exact heach.1
  · rw [hi]
    exact heach.2

/-- The address after the last is 0, and there is nothing. -/
theorem load_passes_end :
    ¬ ∀ (b : Bus) (addr : Word) (data : List Byte), b.DevicesApart → data ≠ [] →
      (b.load addr data).1 = (b.writeEach addr data).1 := by
  intro h
  have heq := h overhanging 0xffffffff [1, 2] (by decide) (by decide)
  revert heq
  decide +kernel

end Bus

end TypedCore
