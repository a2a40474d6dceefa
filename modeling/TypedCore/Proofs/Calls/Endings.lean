import TypedCore.Proofs.Calls.PathLoop
import TypedCore.Proofs.Memory.Alone

/-!
# Loops that end

The loop that reads a path ends where its reads must come to a zero byte or to a
fault. If memory has a zero byte somewhere, they do, and within one turn of the
address space.

Through a window either all of memory is seen or some address is refused
(`Platform.loopsEnd_windowed`). Without windows the cursor comes to address 0, where
memory begins, but the bus tries the device that was used last before memory, and
that device may lie over the zero byte. If memory was used last, this cannot happen,
and it does not come about on the way (`Platform.Favours`): a device is left before
the cursor comes round to memory again. So a first loop ends
(`Platform.Direct.loopsEnd_of_last`). It may leave a console behind that begins in
memory and ends outside, and a second loop that begins there does not see what is
under it. But the first loop has ended in that console or at the address after it,
and so does the second one then (`Platform.Direct.loopsEnd_after`).
-/

namespace TypedCore

/-! ## Reads of one byte -/

/-- A device answers a read of any byte of its range. -/
theorem Device.read_byte {d : Device} {addr : Word} (h : d.covers addr 1 = true) :
    ∃ b d', d.read (addr.toNat - d.base.toNat) 1 = some ([b], d') := by
  obtain ⟨hlo, hhi⟩ := covers_iff.mp h
  cases d with
  | ram r =>
      have hsize : addr.toNat - r.base.toNat + 1 ≤ r.size := by
        change r.base.toNat ≤ addr.toNat at hlo
        change addr.toNat + 1 ≤ r.base.toNat + r.size at hhi
        omega
      exact ⟨r.byte (addr.toNat - r.base.toNat), .ram r, by simp [read, base, Ram.read, hsize]⟩
  | console c =>
      have hoffset : addr.toNat - c.base.toNat < 5 := by
        change c.base.toNat ≤ addr.toNat at hlo
        change addr.toNat + 1 ≤ c.base.toNat + 5 at hhi
        omega
      show ∃ b d', (Device.console c).read (addr.toNat - c.base.toNat) 1 = some ([b], d')
      generalize addr.toNat - c.base.toNat = offset at hoffset
      rcases offset with _ | _ | _ | _ | _ | offset <;>
        first | exact ⟨_, _, read_console.mpr ⟨_, rfl, rfl⟩⟩ | omega
  | gpio g =>
      have hoffset : addr.toNat - g.base.toNat = 0 := by
        change g.base.toNat ≤ addr.toNat at hlo
        change addr.toNat + 1 ≤ g.base.toNat + 1 at hhi
        omega
      exact ⟨Gpio.simulationFlags, .gpio g, by simp [read, base, Gpio.read, hoffset]⟩

/-- Two consoles that differ at most in what they have received. -/
structure Console.Alike (c c' : Console) : Prop where
  base : c'.base = c.base
  config1 : c'.config1 = c.config1
  config2 : c'.config2 = c.config2
  divider : c'.divider = c.divider

namespace Console

variable {c c' c'' : Console} {offset : Nat} {b : Byte}

theorem Alike.trans (h : c.Alike c') (h' : c'.Alike c'') : c.Alike c'' :=
  ⟨h'.base.trans h.base, h'.config1.trans h.config1, h'.config2.trans h.config2,
    h'.divider.trans h.divider⟩

theorem alike_of_read (h : c.readRegister offset = some (b, c')) : c.Alike c' := by
  unfold readRegister at h
  split at h <;> cases h <;> exact ⟨rfl, rfl, rfl, rfl⟩

/-- Behind the data register, a register that is zero is one of those that were written. -/
theorem zero_of_alike (ha : c.Alike c') (hpos : 0 < offset)
    (h : ∃ d, c.readRegister offset = some (0, d)) : ∃ d, c'.readRegister offset = some (0, d) := by
  obtain ⟨d, h⟩ := h
  unfold readRegister at h
  split at h
  · omega
  · have hstatus : c.status = 0 := (Prod.mk.inj (Option.some.inj h)).1
    unfold status at hstatus
    split at hstatus <;> cases hstatus
  · exact ⟨c', by rw [← (Prod.mk.inj (Option.some.inj h)).1, ← ha.config1]; rfl⟩
  · exact ⟨c', by rw [← (Prod.mk.inj (Option.some.inj h)).1, ← ha.config2]; rfl⟩
  · exact ⟨c', by rw [← (Prod.mk.inj (Option.some.inj h)).1, ← ha.divider]; rfl⟩
  · cases h

end Console

namespace Bus

variable {b : Bus} {addr : Word} {i : Nat} {r : Ram}

/-- A byte that some device has is read from the device that it is routed to. -/
theorem readBytes_byte (h : b.route addr 1 = some i) :
    ∃ d d' v, b.devices[i]? = some d ∧ d.covers addr 1 = true ∧
      d.read (addr.toNat - d.base.toNat) 1 = some ([v], d') ∧
      b.readBytes addr 1 =
        (some [v], { b with devices := b.devices.set i d', last := i }) := by
  have howns := owns_of_route h
  cases hd : b.devices[i]? with
  | none =>
      unfold owns at howns
      rw [hd] at howns
      cases howns
  | some d =>
      have hcovers : d.covers addr 1 = true := owns_eq_covers hd ▸ howns
      obtain ⟨v, d', hread⟩ := Device.read_byte hcovers
      refine ⟨d, d', v, rfl, hcovers, hread, ?_⟩
      unfold readBytes
      rw [h]
      dsimp only
      rw [hd]
      dsimp only
      rw [hread]

theorem readBytes_unrouted (h : b.route addr 1 = none) : b.readBytes addr 1 = (none, b) := by
  unfold readBytes
  rw [h]

/-- A memory from address 0 on, in front of devices that are no memories. -/
structure Fronted (b : Bus) (r : Ram) : Prop where
  front : ∃ ds, b.devices = .ram r :: ds ∧ ∀ d ∈ ds, d.isRam = false
  base : r.base = 0
  size : r.size ≤ maxRamSize

namespace Fronted

theorem owns_zero (h : b.Fronted r) (addr : Word) (len : Nat) :
    b.owns addr len 0 = decide (addr.toNat + len ≤ r.size) := by
  obtain ⟨ds, hds, -⟩ := h.front
  have hbase : r.base.toNat = 0 := congrArg BitVec.toNat h.base
  rw [owns_eq_covers (d := .ram r) (by rw [hds]; rfl), Device.covers, Device.base, hbase]
  simp [Device.size]

/-- A byte of memory is routed there, unless it belongs to the device that was used last, too. -/
theorem route_memory (h : b.Fronted r) (haddr : addr.toNat < r.size)
    (hlast : b.last = 0 ∨ b.owns addr 1 b.last = false) : b.route addr 1 = some 0 := by
  obtain ⟨ds, hds, -⟩ := h.front
  have hzero : b.owns addr 1 0 = true := by
    rw [h.owns_zero]
    exact decide_eq_true haddr
  have hhints : b.hints = [b.last, 0] := by
    rw [hints, hds]
    rfl
  unfold route
  rw [hhints]
  obtain hlast | hlast := hlast
  · rw [hlast, List.find?_cons_of_pos hzero]
  · rw [List.find?_cons_of_neg (by rw [hlast]; exact Bool.false_ne_true),
      List.find?_cons_of_pos hzero]

/-- Only the memory in front is larger than a console. -/
theorem covers_small (h : b.Fronted r) {i : Nat} {d : Device} (hi : i ≠ 0)
    (hd : b.devices[i]? = some d) : d.isRam = false ∧ d.size ≤ 5 := by
  obtain ⟨ds, hds, hno⟩ := h.front
  obtain ⟨k, rfl⟩ := Nat.exists_eq_succ_of_ne_zero hi
  rw [hds, List.getElem?_cons_succ] at hd
  have hram := hno d (List.mem_of_getElem? hd)
  refine ⟨hram, ?_⟩
  cases d with
  | ram r => cases hram
  | console c => exact Nat.le_refl 5
  | gpio g => exact (by decide : 1 ≤ 5)

/-- Reading leaves the memory in front. -/
theorem readBytes (h : b.Fronted r) (addr : Word) : (b.readBytes addr 1).2.Fronted r := by
  refine ⟨?_, h.base, h.size⟩
  obtain ⟨ds, hds, hno⟩ := h.front
  cases hroute : b.route addr 1 with
  | none =>
      rw [readBytes_unrouted hroute]
      exact ⟨ds, hds, hno⟩
  | some i =>
      obtain ⟨d, d', v, hd, -, hread, hbytes⟩ := readBytes_byte hroute
      rw [hbytes]
      cases i with
      | zero =>
          rw [hds, List.getElem?_cons_zero] at hd
          cases hd
          obtain ⟨_, -, heq⟩ := Option.map_eq_some_iff.mp hread
          obtain ⟨-, rfl⟩ := Prod.mk.inj heq
          exact ⟨ds, by simp [hds], hno⟩
      | succ k =>
          refine ⟨ds.set k d', by simp [hds], fun e he => ?_⟩
          obtain he | rfl := List.mem_or_eq_of_mem_set he
          · exact hno e he
          · rw [hds, List.getElem?_cons_succ] at hd
            rw [← Device.isRam_blank, Device.blank_read hread, Device.isRam_blank]
            exact hno d (List.mem_of_getElem? hd)

theorem eq_zero_of_ram (h : b.Fronted r) {r' : Ram} (hd : b.devices[i]? = some (.ram r')) :
    i = 0 := by
  by_cases hi : i = 0
  · exact hi
  · cases (h.covers_small hi hd).1

end Fronted

/-- Whoever answers a read of a halfword is a memory. -/
theorem route_half {bytes : List Byte} (hb : (b.readBytes addr 2).1 = some bytes) :
    ∃ i r', b.route addr 2 = some i ∧ b.devices[i]? = some (.ram r') := by
  unfold readBytes at hb
  split at hb
  · cases hb
  · rename_i i hroute
    split at hb
    · cases hb
    · rename_i d hd
      split at hb
      · rename_i hread
        obtain ⟨r', rfl⟩ := Device.isRam_of_read hread
        exact ⟨i, r', hroute, hd⟩
      · cases hb

/-- A halfword that can be read is one of the memory in front. -/
theorem Fronted.readBytes_half (h : b.Fronted r) {bytes : List Byte}
    (hb : (b.readBytes addr 2).1 = some bytes) :
    addr.toNat + 2 ≤ r.size ∧ b.readBytes addr 2 =
      (some [r.byte addr.toNat, r.byte (addr.toNat + 1)], b.usedLast 0) := by
  have hbase : r.base.toNat = 0 := congrArg BitVec.toNat h.base
  obtain ⟨i, r', hroute, hd⟩ := route_half hb
  obtain rfl := h.eq_zero_of_ram hd
  have howns := owns_of_route hroute
  rw [h.owns_zero] at howns
  have hsize := of_decide_eq_true howns
  obtain ⟨ds, hds, -⟩ := h.front
  refine ⟨hsize, ?_⟩
  rw [readBytes_of_route hroute (by rw [hds]; rfl) (⟨by omega, by omega⟩ : r.Covers addr 2), hbase]
  rfl

end Bus

/-- Every physical address is the one of some virtual address, unless that is refused. -/
theorem Window.exists_physical? (w : Window) {z : Word} (hz : z.toNat < maxRamSize) :
    ∃ v, ∀ a, w.physical? v = some a → a = z := by
  have hbase := w.base.low28_lt
  have hmax : maxRamSize = 0x10000000 := rfl
  let v : Word := BitVec.ofNat 32 ((z.toNat + 0x10000000 - w.base.low28 / 1024 * 1024) % 0x10000000)
  have hlow : v.low28 = (z.toNat + 0x10000000 - w.base.low28 / 1024 * 1024) % 0x10000000 := by
    rw [Word.low28, BitVec.toNat_ofNat]
    omega
  refine ⟨v, fun a ha => ?_⟩
  unfold Window.physical? at ha
  split at ha
  · cases ha
  · rw [← Option.some.inj ha, hlow]
    refine BitVec.eq_of_toNat_eq ?_
    rw [BitVec.toNat_ofNat]
    omega

namespace Platform

variable {p q : Platform} {addr z : Word} {v : Word} {r : Ram}

/-- All models but the windowed one use addresses as they are. -/
theorem physical_unwindowed (h : p.model ≠ .windowed) (mode : Mode) (addr : Word)
    (access : Access) : p.physical mode addr access = .ok addr := by
  unfold physical
  cases hm : p.model with
  | windowed => exact absurd hm h
  | generic | peripheral => rfl

theorem read_unwindowed (h : p.model ≠ .windowed) (addr : Word) :
    p.read .task addr .byte =
      match (p.bus.readBytes addr 1).1 with
      | some bytes => (.ok (Word.ofBytes bytes), { p with bus := (p.bus.readBytes addr 1).2 })
      | none =>
        (.error ⟨Access.read.violation, addr⟩, { p with bus := (p.bus.readBytes addr 1).2 }) :=
  load_allowed (by simp [Width.isAligned, Width.bytes, Nat.mod_one])
    (physical_unwindowed h .task addr .read)

/-- A read that is answered comes from the device that the address is routed to. -/
structure Answers (p : Platform) (addr : Word) (v : Word) (q : Platform) (i : Nat)
    (d d' : Device) (b : Byte) : Prop where
  route : p.bus.route addr 1 = some i
  device : p.bus.devices[i]? = some d
  covers : d.covers addr 1 = true
  read : d.read (addr.toNat - d.base.toNat) 1 = some ([b], d')
  value : v = b.setWidth 32
  after : q = { p with bus := { p.bus with devices := p.bus.devices.set i d', last := i } }

namespace Answers

variable {i : Nat} {d d' : Device} {b : Byte}

theorem last (ha : p.Answers addr v q i d d' b) : q.bus.last = i := by rw [ha.after]

theorem device' (ha : p.Answers addr v q i d d' b) : q.bus.devices[i]? = some d' := by
  obtain ⟨hi, -⟩ := List.getElem?_eq_some_iff.mp ha.device
  rw [ha.after]
  exact List.getElem?_set_self hi

/-- What was read from is where it was. -/
theorem covers_iff (ha : p.Answers addr v q i d d' b) (a : Word) (len : Nat) :
    d'.covers a len = d.covers a len := by
  rw [← Device.covers_blank, Device.blank_read ha.read, Device.covers_blank]

end Answers

theorem answers_of_read (h : p.model ≠ .windowed) (hr : p.read .task addr .byte = (.ok v, q)) :
    ∃ i d d' b, p.Answers addr v q i d d' b := by
  rw [read_unwindowed h] at hr
  cases hroute : p.bus.route addr 1 with
  | none =>
      rw [Bus.readBytes_unrouted hroute] at hr
      cases hr
  | some i =>
      obtain ⟨d, d', b, hd, hcovers, hread, hbytes⟩ := Bus.readBytes_byte hroute
      rw [hbytes] at hr
      obtain ⟨hv, hq⟩ := Prod.mk.inj hr
      refine ⟨i, d, d', b, hroute, hd, hcovers, hread, ?_, hq.symm⟩
      rw [← Except.ok.inj hv]
      exact BitVec.eq_of_toNat_eq (by simp [Word.ofBytes, natOfBytes])

/-- A read fails only where there is no device, and then nothing changes. -/
theorem unrouted_of_read {fault : MemFault} (h : p.model ≠ .windowed)
    (hr : p.read .task addr .byte = (.error fault, q)) :
    p.bus.route addr 1 = none ∧ q = p := by
  rw [read_unwindowed h] at hr
  cases hroute : p.bus.route addr 1 with
  | none =>
      rw [Bus.readBytes_unrouted hroute] at hr
      exact ⟨rfl, (Prod.mk.inj hr).2.symm⟩
  | some i =>
      obtain ⟨d, d', b, -, -, -, hbytes⟩ := Bus.readBytes_byte hroute
      rw [hbytes] at hr
      cases hr

theorem endsLoop_unrouted (h : p.model ≠ .windowed) (hroute : p.bus.route addr 1 = none) :
    p.EndsLoop addr := by
  right
  rw [read_unwindowed h, Bus.readBytes_unrouted hroute]
  exact ⟨_, rfl⟩

/-! ## The loop comes to memory -/

/-- Addresses are used as they are, and there is memory from address 0 on. -/
structure Direct (p : Platform) (r : Ram) : Prop where
  model : p.model ≠ .windowed
  bus : p.bus.Fronted r

/-- An address of memory is routed there. It is not if it belongs to the device that was
used last, too. -/
def Favours (p : Platform) (r : Ram) (addr : Word) : Prop :=
  addr.toNat < r.size → p.bus.route addr 1 = some 0

theorem Direct.read (h : p.Direct r) (hr : p.read .task addr .byte = (.ok v, q)) : q.Direct r := by
  obtain ⟨i, d, d', b, ha⟩ := answers_of_read h.model hr
  have hbus : q.bus = (p.bus.readBytes addr 1).2 := by
    rw [read_unwindowed h.model] at hr
    split at hr
    · rw [← (Prod.mk.inj hr).2]
    · cases hr
  exact ⟨by rw [ha.after]; exact h.model, hbus ▸ h.bus.readBytes addr⟩

theorem Direct.favours_of_last (h : p.Direct r) (hlast : p.bus.last = 0) (addr : Word) :
    p.Favours r addr :=
  fun haddr => h.bus.route_memory haddr (.inl hlast)

/-- A loop that is favoured once stays so: it leaves memory at its end only, and no other
device goes round the end of the address space. -/
theorem Favours.next (hf : p.Favours r addr) (h : p.Direct r)
    (hr : p.read .task addr .byte = (.ok v, q)) : q.Favours r (addr + 1) := by
  have hq := h.read hr
  obtain ⟨i, d, d', b, ha⟩ := answers_of_read h.model hr
  intro hnext
  have hsize := h.bus.size
  have hmax : maxRamSize = 0x10000000 := rfl
  refine hq.bus.route_memory hnext ?_
  by_cases hi : i = 0
  · exact .inl (ha.last.trans hi)
  · right
    rw [ha.last, Bus.owns_eq_covers ha.device', ha.covers_iff, Bool.eq_false_iff]
    intro hcovers
    obtain ⟨hlo, hhi⟩ := Device.covers_iff.mp ha.covers
    obtain ⟨hlo', hhi'⟩ := Device.covers_iff.mp hcovers
    have hsmall := (h.bus.covers_small hi ha.device).2
    have hadd : (addr + 1).toNat = (addr.toNat + 1) % 2 ^ 32 := by
      rw [BitVec.toNat_add]
      rfl
    have hlt := addr.isLt
    by_cases hmem : addr.toNat < r.size
    · exact hi (Option.some.inj (ha.route.symm.trans (hf hmem)))
    · omega

section Loops

variable {bytes : List Byte} {limit : Nat}

theorem Direct.reads (h : p.Direct r) (hr : p.Reads addr bytes q) :
    q.Direct r ∧ (p.Favours r addr → q.Favours r (addr + BitVec.ofNat 32 bytes.length)) := by
  induction hr with
  | nil p addr => exact ⟨h, fun hf => by simpa using hf⟩
  | cons head tail ih =>
      obtain ⟨hq, hfavours⟩ := ih (h.read head)
      refine ⟨hq, fun hf => ?_⟩
      rw [List.length_cons, Word.add_ofNat_succ]
      exact hfavours (hf.next h head)

/-- A zero byte of memory ends a loop that comes to memory. -/
theorem Direct.endsLoop (h : p.Direct r) (hf : p.Favours r z) (hz : z.toNat < r.size)
    (hbyte : r.byte z.toNat = 0) : p.EndsLoop z := by
  obtain ⟨ds, hds, -⟩ := h.bus.front
  have hbase : r.base.toNat = 0 := congrArg BitVec.toNat h.bus.base
  have hread := Bus.readBytes_of_route (hf hz) (by rw [hds]; rfl)
    (⟨by omega, by omega⟩ : r.Covers z 1)
  left
  rw [read_unwindowed h.model, hread]
  simp [hbase, hbyte, Word.ofBytes, natOfBytes]

/-- Every address is met within one turn of the address space. -/
theorem add_ofNat_sub (addr t : Word) : addr + BitVec.ofNat 32 (t - addr).toNat = t := by
  rw [BitVec.ofNat_toNat, BitVec.setWidth_eq, BitVec.add_comm, BitVec.sub_add_cancel]

theorem Direct.ends_favoured (h : p.Direct r) (hf : p.Favours r addr) (hz : z.toNat < r.size)
    (hbyte : r.byte z.toNat = 0) : ∃ x q, scanString [] 0x100000000 addr p = (some x, q) := by
  refine scanString_ends (z - addr).isLt fun bytes m hlen hreads => ?_
  obtain ⟨hm, hfavours⟩ := h.reads hreads
  have hmf := hfavours hf
  rw [hlen, add_ofNat_sub] at hmf
  rw [add_ofNat_sub]
  exact hm.endsLoop hmf hz hbyte

/-! ## The second loop -/

theorem layout_reads (hr : p.Reads addr bytes q) : q.bus.layout = p.bus.layout := by
  induction hr with
  | nil => rfl
  | cons head tail ih => exact ih.trans (Evolves.load head).bus.layout

/-- Where there is no device, there is none after a read. -/
theorem route_none_of_layout {b c : Bus} (hl : c.layout = b.layout)
    (h : b.route addr 1 = none) : c.route addr 1 = none := by
  have hmap : ∀ b : Bus, (∀ d ∈ b.devices, d.covers addr 1 = false) ↔
      ∀ d ∈ b.layout, d.covers addr 1 = false := by
    intro b
    simp [Bus.layout]
  rw [Bus.route_eq_none_iff, hmap] at h ⊢
  rwa [hl]

theorem ends_unrouted {t : Word} (h : p.Direct r) (ht : p.bus.route t 1 = none) (addr : Word) :
    ∃ x q, scanString [] 0x100000000 addr p = (some x, q) := by
  refine scanString_ends (t - addr).isLt fun bytes m hlen hreads => ?_
  rw [add_ofNat_sub]
  exact endsLoop_unrouted (h.reads hreads).1.model
    (route_none_of_layout (layout_reads hreads) ht)

/-- What the first loop may leave behind that lets a second one miss memory: a device
other than memory was used last, and read as zero. -/
def LastZero (p : Platform) (r : Ram) (y : Word) : Prop :=
  r.size ≤ y.toNat ∧ ∃ (m : Platform) (i : Nat) (d d' : Device), m.Answers y 0 p i d d' 0

theorem Direct.after_scan {x : Except MemFault (List Byte)} (h : p.Direct r)
    (hlast : p.bus.last = 0) (hs : scanString [] limit addr p = (some x, q)) :
    q.Direct r ∧
      (q.bus.last = 0 ∨ (∃ t, q.bus.route t 1 = none) ∨ ∃ y, q.LastZero r y) := by
  cases x with
  | error fault =>
      obtain ⟨bytes, m, -, -, hreads, hfault⟩ := reads_of_scanString_error hs
      obtain ⟨hm, -⟩ := h.reads hreads
      obtain ⟨hroute, rfl⟩ := unrouted_of_read hm.model hfault
      exact ⟨hm, .inr (.inl ⟨_, hroute⟩)⟩
  | ok path =>
      obtain ⟨bytes, -, -, -, hreads⟩ := (scanString_iff [] limit addr p).mp hs
      obtain ⟨m, hbytes, hzero⟩ := hreads.split
      obtain ⟨hm, hfavours⟩ := h.reads hbytes
      have hf := hfavours (h.favours_of_last hlast addr)
      generalize addr + BitVec.ofNat 32 bytes.length = y at hf hzero
      cases hzero with
      | cons head tail =>
          obtain rfl := reads_nil_iff.mp tail
          obtain ⟨i, d, d', b, ha⟩ := answers_of_read hm.model head
          refine ⟨hm.read head, ?_⟩
          by_cases hmem : y.toNat < r.size
          · left
            rw [ha.last]
            exact Option.some.inj (ha.route.symm.trans (hf hmem))
          · right; right
            obtain rfl := Byte.eq_of_setWidth ha.value
            exact ⟨y, Nat.le_of_not_lt hmem, m, i, d, d', ha⟩

/-- Reads of the registers of one console go to it one after the other. -/
theorem reads_console {c : Console} {i : Nat} (h : p.model ≠ .windowed)
    (hr : p.Reads addr bytes q) (hlast : p.bus.last = i)
    (hd : p.bus.devices[i]? = some (.console c))
    (hown : ∀ k < bytes.length, (Device.console c).covers (addr + BitVec.ofNat 32 k) 1 = true) :
    q.model ≠ .windowed ∧ q.bus.last = i ∧
      ∃ c', q.bus.devices[i]? = some (.console c') ∧ c.Alike c' := by
  induction hr generalizing c with
  | nil => exact ⟨h, hlast, c, hd, rfl, rfl, rfl, rfl⟩
  | @cons p m q addr b bytes head tail ih =>
      obtain ⟨j, d, d', b', ha⟩ := answers_of_read h head
      have hfirst : p.bus.owns addr 1 p.bus.last = true := by
        rw [hlast, Bus.owns_eq_covers hd]
        simpa using hown 0 (Nat.succ_pos _)
      obtain rfl : i = j :=
        hlast.symm.trans (Option.some.inj ((Bus.route_last hfirst).symm.trans ha.route))
      obtain rfl : d = .console c := Option.some.inj (ha.device.symm.trans hd)
      obtain ⟨c₁, hreg, rfl⟩ := Device.read_console.mp ha.read
      have hm : m.model ≠ .windowed := by
        rw [ha.after]
        exact h
      obtain ⟨hq, hlast', c', hc', halike'⟩ := ih hm ha.last ha.device' fun k hk => by
        rw [ha.covers_iff, ← Word.add_ofNat_succ]
        exact hown (k + 1) (Nat.succ_lt_succ hk)
      exact ⟨hq, hlast', c', hc', (Console.alike_of_read hreg).trans halike'⟩

theorem endsLoop_console {c : Console} {i : Nat} (h : p.model ≠ .windowed)
    (hlast : p.bus.last = i) (hd : p.bus.devices[i]? = some (.console c))
    (hcovers : (Device.console c).covers addr 1 = true)
    (hzero : ∃ d, c.readRegister (addr.toNat - c.base.toNat) = some (0, d)) : p.EndsLoop addr := by
  have hroute : p.bus.route addr 1 = some p.bus.last :=
    Bus.route_last (by rw [hlast, Bus.owns_eq_covers hd]; exact hcovers)
  obtain ⟨d, d', v, hd', -, hread, hbytes⟩ := Bus.readBytes_byte hroute
  rw [hlast] at hd'
  obtain rfl : d = .console c := Option.some.inj (hd'.symm.trans hd)
  obtain ⟨c', hzero⟩ := hzero
  have hsame := Device.read_console.mpr ⟨c', hzero, rfl⟩
  obtain ⟨hv, -⟩ := Prod.mk.inj (Option.some.inj (hread.symm.trans hsame))
  left
  rw [read_unwindowed h, hbytes, hv]
  rfl

/-- A console that begins in memory and ended the first loop behind it ends the second
loop there again, if that is not kept from it by the memory. -/
theorem Direct.ends_lastZero {y : Word} (h : p.Direct r) (hz : p.LastZero r y)
    (hlast : p.bus.last ≠ 0) (haddr : addr.toNat < r.size)
    (hown : p.bus.owns addr 1 p.bus.last = true) :
    ∃ x q, scanString [] 0x100000000 addr p = (some x, q) := by
  obtain ⟨hy, m, i, d, d', ha⟩ := hz
  rw [ha.last] at hlast hown
  rw [Bus.owns_eq_covers ha.device', ha.covers_iff] at hown
  have hcovers := ha.covers
  obtain ⟨hlo, hhi⟩ := Device.covers_iff.mp hown
  obtain ⟨hlo', hhi'⟩ := Device.covers_iff.mp hcovers
  cases d with
  | ram r' =>
      have hram := (h.bus.covers_small hlast ha.device').1
      rw [← Device.isRam_blank, Device.blank_read ha.read] at hram
      cases hram
  | gpio g =>
      change y.toNat + 1 ≤ g.base.toNat + 1 at hhi'
      change g.base.toNat ≤ addr.toNat at hlo
      omega
  | console c =>
      obtain ⟨c', hreg, rfl⟩ := Device.read_console.mp ha.read
      have halike := Console.alike_of_read hreg
      change c.base.toNat ≤ addr.toNat at hlo
      change y.toNat + 1 ≤ c.base.toNat + 5 at hhi'
      have hylt := y.isLt
      have hdist : (y - addr).toNat = y.toNat - addr.toNat := by
        rw [BitVec.toNat_sub]
        omega
      refine scanString_ends (y - addr).isLt fun bytes n hlen hreads => ?_
      rw [add_ofNat_sub]
      have hrun := reads_console h.model hreads ha.last ha.device' fun k hk => by
        rw [hlen, hdist] at hk
        have hadd : (addr + BitVec.ofNat 32 k).toNat = addr.toNat + k := by
          rw [BitVec.toNat_add, BitVec.toNat_ofNat]
          omega
        rw [ha.covers_iff]
        refine Device.covers_iff.mpr ⟨?_, ?_⟩
        · show c.base.toNat ≤ _
          omega
        · show _ ≤ c.base.toNat + 5
          omega
      obtain ⟨hmodel, hlast', c'', hd'', halike'⟩ := hrun
      have hbase : c''.base = c.base := halike'.base.trans halike.base
      refine endsLoop_console hmodel hlast' hd'' ?_ ?_
      · rw [Device.covers, Device.base, hbase]
        exact hcovers
      · rw [hbase]
        exact Console.zero_of_alike (halike.trans halike') (by omega) ⟨_, hreg⟩

end Loops

/-! ## Both loops -/

/-- Every loop that begins on a platform ends. -/
def LoopsEnd (p : Platform) : Prop :=
  ∀ addr, ∃ x q, scanString [] 0x100000000 addr p = (some x, q)

theorem Direct.loopsEnd_of_last (h : p.Direct r) (hlast : p.bus.last = 0) (hz : z.toNat < r.size)
    (hbyte : r.byte z.toNat = 0) : p.LoopsEnd :=
  fun addr => h.ends_favoured (h.favours_of_last hlast addr) hz hbyte

theorem Direct.loopsEnd_after {x : Except MemFault (List Byte)} {limit : Nat} (h : p.Direct r)
    (hlast : p.bus.last = 0) (hz : z.toNat < r.size) (hbyte : r.byte z.toNat = 0)
    (hs : scanString [] limit addr p = (some x, q)) : q.LoopsEnd := by
  intro addr'
  obtain ⟨hq, hlast' | ⟨t, ht⟩ | ⟨y, hy⟩⟩ := h.after_scan hlast hs
  · exact hq.loopsEnd_of_last hlast' hz hbyte addr'
  · exact ends_unrouted hq ht addr'
  · by_cases hmem : addr'.toNat < r.size
    · by_cases hfree : q.bus.last = 0 ∨ q.bus.owns addr' 1 q.bus.last = false
      · exact hq.ends_favoured (fun haddr => hq.bus.route_memory haddr hfree) hz hbyte
      · rw [not_or, Bool.not_eq_false] at hfree
        exact hq.ends_lastZero hy hfree.1 hmem hfree.2
    · exact hq.ends_favoured (fun haddr => absurd haddr hmem) hz hbyte

theorem reads_ram {bytes : List Byte} (hr : p.bus.devices = [.ram r])
    (hreads : p.Reads addr bytes q) : ∃ i, q = p.usedLast i := by
  induction hreads with
  | nil p addr => exact ⟨p.bus.last, rfl⟩
  | @cons p m q addr b bytes head tail ih =>
      obtain ⟨i, hi⟩ := load_ram hr .task addr .byte .read
      obtain rfl : m = p.usedLast i := (congrArg Prod.snd head).symm.trans hi
      obtain ⟨j, rfl⟩ := ih hr
      exact ⟨j, usedLast_usedLast p i j⟩

/-- Through a window all of memory is seen or some address is refused, so the loop comes to
the zero byte or to a fault. -/
theorem loopsEnd_windowed (hmodel : p.model = .windowed) (hr : p.bus.devices = [.ram r])
    (hbase : r.base = 0) (hsize : r.size ≤ maxRamSize) (hz : z.toNat < r.size)
    (hbyte : r.byte z.toNat = 0) : p.LoopsEnd := by
  intro addr
  obtain ⟨v, hv⟩ := p.data.exists_physical? (Nat.lt_of_lt_of_le hz hsize)
  refine scanString_ends (v - addr).isLt fun bytes m hlen hreads => ?_
  obtain ⟨i, rfl⟩ := reads_ram hr hreads
  have hal : Width.byte.isAligned v = true := by simp [Width.isAligned, Width.bytes, Nat.mod_one]
  have hmodel' : (p.usedLast i).model = .windowed := hmodel
  have hwindow : (p.usedLast i).windows.through .read = p.data := rfl
  rw [add_ofNat_sub]
  unfold EndsLoop read
  cases hw : p.data.physical? v with
  | none =>
      have hphys : (p.usedLast i).physical .task v .read = .error ⟨Access.read.violation, v⟩ := by
        rw [physical_task hmodel', hwindow, hw]
      rw [load_denied hal hphys]
      exact .inr ⟨_, rfl⟩
  | some a =>
      have hphys : (p.usedLast i).physical .task v .read = .ok a := by
        rw [physical_task hmodel', hwindow, hw]
      obtain rfl := hv a hw
      have hcovers : r.Covers a 1 := ⟨by rw [hbase]; exact Nat.zero_le _, by omega⟩
      have hbase' : r.base.toNat = 0 := congrArg BitVec.toNat hbase
      have hbytes : (p.usedLast i).bus.readBytes a Width.byte.bytes = _ :=
        (Bus.readBytes_ram (b := (p.usedLast i).bus) hr).trans (if_pos hcovers)
      rw [load_allowed hal hphys, hbytes]
      left
      simp [hbase', hbyte, Width.bytes, Word.ofBytes, natOfBytes]

theorem peeks_ram (hr : p.bus.devices = [.ram r]) (h : p.Peeks q) :
    q.model = p.model ∧ q.bus.devices = [.ram r] := by
  induction h with
  | refl => exact ⟨rfl, hr⟩
  | tail _ hread ih =>
      obtain ⟨addr, rfl⟩ := hread
      exact ⟨(Evolves.load rfl).model.trans ih.1, load_memory ih.2 .task addr .byte .read⟩

theorem readPath_snd {x : Except MemFault (List Byte)}
    (h : scanString [] 0x100000000 addr p = (some x, q)) : (p.readPath addr).2 = q := by
  rw [readPath, h]
  cases x <;> rfl

/-- With a zero byte in memory, and memory used last, the loop ends, and so does another one
after it. -/
theorem loopsEnd_of_zero (hb : p.bus.Fronted r)
    (hwindowed : p.model = .windowed → p.bus.devices = [.ram r]) (hlast : p.bus.last = 0)
    (hz : z.toNat < r.size) (hbyte : r.byte z.toNat = 0) :
    p.LoopsEnd ∧ ∀ addr, (p.readPath addr).2.LoopsEnd := by
  by_cases hmodel : p.model = .windowed
  · have hr := hwindowed hmodel
    refine ⟨loopsEnd_windowed hmodel hr hb.base hb.size hz hbyte, fun addr => ?_⟩
    obtain ⟨hmodel', hr'⟩ := peeks_ram hr (peeks_readPath p addr)
    exact loopsEnd_windowed (hmodel'.trans hmodel) hr' hb.base hb.size hz hbyte
  · have hdirect : p.Direct r := ⟨hmodel, hb⟩
    have hends := hdirect.loopsEnd_of_last hlast hz hbyte
    refine ⟨hends, fun addr => ?_⟩
    obtain ⟨x, q, hs⟩ := hends addr
    rw [readPath_snd hs]
    exact hdirect.loopsEnd_after hlast hz hbyte hs

end Platform

end TypedCore
