import TypedCore.Image
import TypedCore.Proofs.Memory.Routing

/-!
# Memory beside other devices

Two buses with the same memory, one with nothing else and one with other devices
behind it. An access none of whose bytes is one of those devices' (`Clear`) is
answered alike by both, and leaves them with the same memory again. So is the
placing of a program that is clear of the devices, although it tries a block in
one piece first and a device is tried even for a block of no bytes.
-/

namespace TypedCore

/-- Whether an address is in the range of a device. -/
def Device.Has (d : Device) (addr : Word) : Prop :=
  d.base.toNat ≤ addr.toNat ∧ addr.toNat < d.base.toNat + d.size

instance (d : Device) (addr : Word) : Decidable (d.Has addr) :=
  inferInstanceAs (Decidable (_ ∧ _))

theorem Device.eq_of_write_nil {d d' : Device} {offset : Nat} {sent : List Byte}
    (h : d.write offset [] = some (d', sent)) : d' = d := by
  cases d with
  | ram r =>
      obtain ⟨r', hr, heq⟩ := Option.map_eq_some_iff.mp h
      unfold Ram.write at hr
      split at hr <;> cases hr
      exact (Prod.mk.inj heq).1.symm
  | console c => cases h
  | gpio g => simp [write, Gpio.write] at h

/-- No byte of an access is in the range of one of some devices. -/
def Clear (ds : List Device) (addr : Word) (len : Nat) : Prop :=
  ∀ d ∈ ds, ∀ i < len, ¬ d.Has (addr + BitVec.ofNat 32 i)

instance (ds : List Device) (addr : Word) (len : Nat) : Decidable (Clear ds addr len) :=
  inferInstanceAs (Decidable (∀ d ∈ ds, ∀ i < len, ¬ d.Has (addr + BitVec.ofNat 32 i)))

namespace Clear

variable {ds : List Device} {addr : Word} {len : Nat}

theorem uncovered (h : Clear ds addr len) (hlen : 0 < len) :
    ∀ d ∈ ds, d.covers addr len = false := by
  intro d hd
  rw [Bool.eq_false_iff]
  intro hcovers
  obtain ⟨hlow, hhigh⟩ := Device.covers_iff.mp hcovers
  refine h d hd 0 hlen ⟨?_, ?_⟩
  · rwa [BitVec.add_zero]
  · rw [BitVec.add_zero]
    omega

theorem head (h : Clear ds addr (len + 1)) : Clear ds addr 1 :=
  fun d hd i hi => h d hd i (by omega)

theorem tail (h : Clear ds addr (len + 1)) : Clear ds (addr + 1) len := by
  intro d hd i hi
  rw [← Word.add_ofNat_succ]
  exact h d hd (i + 1) (by omega)

end Clear

/-! ## Accesses -/

namespace Bus

variable {ds : List Device} {b c : Bus} {r : Ram} {addr : Word} {len : Nat} {data : List Byte}

/-- What no other device covers goes to the memory in front of them or nowhere. -/
theorem route_front (hc : c.devices = .ram r :: ds)
    (hno : ∀ d ∈ ds, d.covers addr len = false) :
    c.route addr len = if r.Covers addr len then some 0 else none := by
  have hram : (Device.ram r).covers addr len = decide (r.Covers addr len) := rfl
  by_cases hcov : r.Covers addr len
  · rw [if_pos hcov]
    cases hroute : c.route addr len with
    | none =>
        have hnone := route_eq_none_iff.mp hroute (.ram r) (by simp [hc])
        rw [hram, decide_eq_true hcov] at hnone
        cases hnone
    | some i =>
        have howns := owns_of_route hroute
        cases i with
        | zero => rfl
        | succ j =>
            unfold owns at howns
            rw [hc, List.getElem?_cons_succ] at howns
            cases hd : ds[j]? with
            | none => rw [hd] at howns; cases howns
            | some d =>
                rw [hd] at howns
                exact absurd howns (by simp [hno d (List.mem_of_getElem? hd)])
  · rw [if_neg hcov, route_eq_none_iff, hc]
    exact List.forall_mem_cons.mpr ⟨hram.trans (decide_eq_false hcov), hno⟩

theorem readBytes_front (hc : c.devices = .ram r :: ds)
    (hno : ∀ d ∈ ds, d.covers addr len = false) :
    c.readBytes addr len =
      if r.Covers addr len then
        (some ((List.range len).map fun i => r.byte (addr.toNat - r.base.toNat + i)), c.usedLast 0)
      else (none, c) := by
  have hroute := route_front hc hno
  by_cases hcov : r.Covers addr len
  · rw [if_pos hcov] at hroute ⊢
    exact readBytes_of_route hroute (by rw [hc]; rfl) hcov
  · rw [if_neg hcov] at hroute ⊢
    unfold readBytes
    rw [hroute]

theorem writeBytes_front (hc : c.devices = .ram r :: ds)
    (hno : ∀ d ∈ ds, d.covers addr data.length = false) :
    c.writeBytes addr data =
      if r.Covers addr data.length then
        (true, { c.usedLast 0 with
          devices := .ram (r.setBytes (addr.toNat - r.base.toNat) data) :: ds })
      else (false, c) := by
  have hroute := route_front hc hno
  by_cases hcov : r.Covers addr data.length
  · rw [if_pos hcov] at hroute ⊢
    rw [writeBytes_of_route hroute (by rw [hc]; rfl) hcov, hc]
    rfl
  · rw [if_neg hcov] at hroute ⊢
    unfold writeBytes
    rw [hroute]

/-- Two buses with the same memory, one without other devices and one with some behind it. -/
def Beside (ds : List Device) (b c : Bus) : Prop :=
  ∃ r : Ram, b.devices = [.ram r] ∧ c.devices = .ram r :: ds

/-- The same answer from two buses, which are related afterwards. -/
def SameAnswer {α : Type} (related : Bus → Bus → Prop) (x y : α × Bus) : Prop :=
  ∃ a b c, x = (a, b) ∧ y = (a, c) ∧ related b c

namespace Beside

theorem readBytes (h : Beside ds b c) (hlen : 0 < len) (hclear : Clear ds addr len) :
    SameAnswer (Beside ds) (b.readBytes addr len) (c.readBytes addr len) := by
  obtain ⟨r, hb, hc⟩ := h
  rw [readBytes_ram hb, readBytes_front hc (hclear.uncovered hlen)]
  split
  · exact ⟨_, _, _, rfl, rfl, r, hb, hc⟩
  · exact ⟨_, _, _, rfl, rfl, r, hb, hc⟩

theorem writeBytes (h : Beside ds b c) (hdata : 0 < data.length)
    (hclear : Clear ds addr data.length) :
    SameAnswer (Beside ds) (b.writeBytes addr data) (c.writeBytes addr data) := by
  obtain ⟨r, hb, hc⟩ := h
  rw [writeBytes_ram hb, writeBytes_front hc (hclear.uncovered hdata)]
  split
  · exact ⟨_, _, _, rfl, rfl, _, rfl, rfl⟩
  · exact ⟨_, _, _, rfl, rfl, r, hb, hc⟩

theorem takeExit (h : Beside ds b c) (hds : ∀ d ∈ ds, d.takeExit? = none) :
    SameAnswer (Beside ds) b.takeExit c.takeExit := by
  obtain ⟨r, hb, hc⟩ := h
  have hnone : c.devices.findIdx? (·.takeExit?.isSome) = none := by
    rw [hc, List.findIdx?_eq_none_iff]
    exact List.forall_mem_cons.mpr ⟨rfl, fun d hd => by rw [hds d hd]; rfl⟩
  have hexit : c.takeExit = (none, c) := by
    unfold Bus.takeExit
    rw [hnone]
  exact ⟨none, b, c, takeExit_ram hb, hexit, r, hb, hc⟩

/-! ## Placing programs -/

theorem writeEach (h : Beside ds b c) (hclear : Clear ds addr data.length) :
    SameAnswer (Beside ds) (b.writeEach addr data) (c.writeEach addr data) := by
  induction data generalizing addr b c with
  | nil => exact ⟨true, b, c, rfl, rfl, h⟩
  | cons byte rest ih =>
      have hone : Clear ds addr [byte].length := hclear.head
      obtain ⟨taken, b', c', hb, hc, hfirst⟩ := h.writeBytes (by simp) hone
      unfold Bus.writeEach
      rw [hb, hc]
      cases taken with
      | true => exact ih hfirst hclear.tail
      | false => exact ⟨false, b', c', rfl, rfl, hfirst⟩

end Beside

/-- A block of no bytes is always placed, and changes no device, not even one that refuses it. -/
theorem load_nil (b : Bus) (addr : Word) :
    ∃ b', b.load addr [] = (true, b') ∧ b'.devices = b.devices := by
  have hdevices : (b.writeBytes addr []).2.devices = b.devices := by
    unfold writeBytes
    split
    · rfl
    · split
      · rfl
      · rename_i i hroute d hd
        split
        · rename_i d' sent hwrite
          obtain ⟨hi, hget⟩ := List.getElem?_eq_some_iff.mp hd
          rw [Device.eq_of_write_nil hwrite, ← hget]
          exact List.set_getElem_self hi
        · rfl
  unfold load
  cases hwrite : b.writeBytes addr [] with
  | mk taken b' =>
      rw [hwrite] at hdevices
      cases taken with
      | true => exact ⟨b', rfl, hdevices⟩
      | false => exact ⟨b', rfl, hdevices⟩

namespace Beside

theorem load (h : Beside ds b c) (hclear : Clear ds addr data.length) :
    SameAnswer (Beside ds) (b.load addr data) (c.load addr data) := by
  cases data with
  | nil =>
      obtain ⟨r, hb, hc⟩ := h
      obtain ⟨b', hload, hdevices⟩ := b.load_nil addr
      obtain ⟨c', hload', hdevices'⟩ := c.load_nil addr
      exact ⟨true, b', c', hload, hload', r, hdevices.trans hb, hdevices'.trans hc⟩
  | cons byte rest =>
      obtain ⟨taken, b', c', hb, hc, hwhole⟩ := h.writeBytes (by simp) hclear
      unfold Bus.load
      rw [hb, hc]
      cases taken with
      | true => exact ⟨true, b', c', rfl, rfl, hwhole⟩
      | false => exact hwhole.writeEach hclear

end Beside

end Bus

/-- Whether no byte of a program, or of the arguments it is given, is in the range of one of some
devices. -/
structure Image.Clear (im : Image) (args : List (List Byte)) (ds : List Device) : Prop where
  segments : ∀ seg ∈ im.segments, TypedCore.Clear ds seg.addr seg.data.length
  arguments : im.isExecutable = true → TypedCore.Clear ds 0 (Arguments.block args).length

namespace Bus.Beside

variable {ds : List Device} {b c : Bus}

theorem placeAll (h : Beside ds b c) {segments : List Segment}
    (hclear : ∀ seg ∈ segments, Clear ds seg.addr seg.data.length) :
    SameAnswer (Beside ds) (Image.placeAll segments b) (Image.placeAll segments c) := by
  induction segments generalizing b c with
  | nil => exact ⟨.ok (), b, c, rfl, rfl, h⟩
  | cons seg rest ih =>
      obtain ⟨hfirst, hrest⟩ := List.forall_mem_cons.mp hclear
      obtain ⟨taken, b', c', hb, hc, hload⟩ := h.load hfirst
      unfold Image.placeAll
      rw [hb, hc]
      cases taken with
      | true => exact ih hload hrest
      | false => exact ⟨_, b', c', rfl, rfl, hload⟩

theorem placeArguments (h : Beside ds b c) {args : List (List Byte)}
    (hclear : Clear ds 0 (Arguments.block args).length) :
    SameAnswer (Beside ds) (Arguments.place args b) (Arguments.place args c) := by
  have hlen : 0 < (Arguments.block args).length := by
    simp [Arguments.block, Arguments.table, bytesOfNat]
  obtain ⟨taken, b', c', hb, hc, hblock⟩ := h.writeBytes hlen hclear
  unfold Arguments.place
  rw [hb, hc]
  cases taken with
  | true => exact ⟨_, b', c', rfl, rfl, hblock⟩
  | false => exact ⟨_, b', c', rfl, rfl, hblock⟩

theorem place (h : Beside ds b c) {im : Image} {args : List (List Byte)}
    (hclear : im.Clear args ds) : SameAnswer (Beside ds) (im.place args b) (im.place args c) := by
  obtain ⟨placed, b', c', hb, hc, hall⟩ := h.placeAll hclear.segments
  unfold Image.place
  rw [hb, hc]
  cases placed with
  | error fault => exact ⟨_, b', c', rfl, rfl, hall⟩
  | ok placed =>
      dsimp only
      split
      · rename_i hexec
        exact hall.placeArguments (hclear.arguments hexec)
      · exact ⟨_, b', c', rfl, rfl, hall⟩

end Bus.Beside

end TypedCore
