import TypedCore.Proofs.Memory.Frame

/-!
# A bus with one memory

An access that goes to a memory reads or writes its bytes. Where that memory is all
there is on the bus, an access is answered exactly if the memory has all of its
bytes, and what the bus noted of earlier accesses plays no part.
-/

namespace TypedCore

namespace Ram

/-- Whether a memory has all bytes of an access. -/
def Covers (r : Ram) (addr : Word) (len : Nat) : Prop :=
  r.base.toNat ≤ addr.toNat ∧ addr.toNat + len ≤ r.base.toNat + r.size

instance (r : Ram) (addr : Word) (len : Nat) : Decidable (r.Covers addr len) :=
  inferInstanceAs (Decidable (_ ∧ _))

theorem base_setBytes (r : Ram) (i : Nat) (data : List Byte) :
    (r.setBytes i data).base = r.base := by
  induction data generalizing r i with
  | nil => rfl
  | cons b bs ih => rw [setBytes, ih]; rfl

end Ram

namespace Bus

variable {b : Bus} {r : Ram} {addr : Word} {len k : Nat} {data : List Byte}

/-! ## Accesses that go to memory -/

theorem readBytes_of_route (hroute : b.route addr len = some k)
    (hk : b.devices[k]? = some (.ram r)) (hc : r.Covers addr len) :
    b.readBytes addr len =
      (some ((List.range len).map fun i => r.byte (addr.toNat - r.base.toNat + i)),
        b.usedLast k) := by
  have hsize : addr.toNat - r.base.toNat + len ≤ r.size := by
    obtain ⟨hlow, hhigh⟩ := hc
    omega
  have hset : b.devices.set k (.ram r) = b.devices := by
    obtain ⟨hi, hget⟩ := List.getElem?_eq_some_iff.mp hk
    rw [← hget, List.set_getElem_self]
  unfold readBytes
  rw [hroute]
  simp [hk, Device.read, Device.base, Ram.read, hsize, hset, usedLast]

theorem writeBytes_of_route (hroute : b.route addr data.length = some k)
    (hk : b.devices[k]? = some (.ram r)) (hc : r.Covers addr data.length) :
    b.writeBytes addr data =
      (true, { b.usedLast k with
        devices := b.devices.set k (.ram (r.setBytes (addr.toNat - r.base.toNat) data)) }) := by
  have hsize : addr.toNat - r.base.toNat + data.length ≤ r.size := by
    obtain ⟨hlow, hhigh⟩ := hc
    omega
  unfold writeBytes
  rw [hroute]
  simp [hk, Device.write, Device.base, Ram.write, hsize, usedLast]

/-! ## A memory by itself -/

theorem route_ram (hb : b.devices = [.ram r]) (addr : Word) (len : Nat) :
    b.route addr len = if r.Covers addr len then some 0 else none := by
  have hcovers : (Device.ram r).covers addr len = decide (r.Covers addr len) := rfl
  have hzero : b.owns addr len 0 = decide (r.Covers addr len) := by
    rw [owns, hb]
    exact hcovers
  have hsucc : ∀ i, b.owns addr len (i + 1) = false := by
    intro i
    rw [owns, hb]
    rfl
  have hhints : b.hints = [b.last, 0] := by
    rw [hints, hb]
    rfl
  have hindex : b.devices.findIdx? (·.covers addr len) =
      if r.Covers addr len then some 0 else none := by
    rw [hb]
    by_cases hc : r.Covers addr len <;> simp [List.findIdx?_cons, hcovers, hc]
  unfold route
  rw [hhints, hindex]
  cases b.last with
  | zero => by_cases hc : r.Covers addr len <;> simp [hzero, hc]
  | succ i => by_cases hc : r.Covers addr len <;> simp [hzero, hsucc, hc]

theorem readBytes_ram (hb : b.devices = [.ram r]) :
    b.readBytes addr len =
      if r.Covers addr len then
        (some ((List.range len).map fun i => r.byte (addr.toNat - r.base.toNat + i)), b.usedLast 0)
      else (none, b) := by
  have hroute := route_ram hb addr len
  by_cases hc : r.Covers addr len
  · rw [if_pos hc] at hroute ⊢
    exact readBytes_of_route hroute (by rw [hb]; rfl) hc
  · rw [if_neg hc] at hroute ⊢
    unfold readBytes
    rw [hroute]

theorem writeBytes_ram (hb : b.devices = [.ram r]) :
    b.writeBytes addr data =
      if r.Covers addr data.length then
        (true, { b.usedLast 0 with
          devices := [.ram (r.setBytes (addr.toNat - r.base.toNat) data)] })
      else (false, b) := by
  have hroute := route_ram hb addr data.length
  by_cases hc : r.Covers addr data.length
  · rw [if_pos hc] at hroute ⊢
    rw [writeBytes_of_route hroute (by rw [hb]; rfl) hc, hb]
    rfl
  · rw [if_neg hc] at hroute ⊢
    unfold writeBytes
    rw [hroute]

theorem takeExit_ram (hb : b.devices = [.ram r]) : b.takeExit = (none, b) := by
  unfold takeExit
  rw [hb]
  rfl

end Bus

end TypedCore
