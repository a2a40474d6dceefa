import TypedCore.Proofs.Execution.Marks
import TypedCore.Proofs.Execution.Outcome
import TypedCore.Proofs.Execution.Tally
import TypedCore.Proofs.Memory.Alone
import TypedCore.Proofs.Memory.Beside

/-!
# Loading is an overlay

A program is placed segment by segment, and the arguments of an executable after
them. Where a bus has nothing but memory, what memory holds afterwards is an
overlay: a byte has what was placed there last, or is what it was
(`Image.byte?`, `Bus.Shows.place`).

Whether a program can be loaded depends on its addresses alone (`Image.Fits`), not
on what the bus or memory went through before. A block that does not fit in one
piece is tried again byte by byte, and addresses start over behind the last one;
neither helps, as some byte would have to lie outside memory all the same.
-/

namespace TypedCore

/-! ## What a program asks for -/

namespace Segment

/-- Whether every byte of a segment lies in a memory of `size` bytes from address 0 on. -/
def Fits (seg : Segment) (size : Nat) : Prop :=
  ∀ i < seg.data.length, (seg.addr + BitVec.ofNat 32 i).toNat < size

instance (seg : Segment) (size : Nat) : Decidable (seg.Fits size) :=
  inferInstanceAs (Decidable (∀ i < seg.data.length, (seg.addr + BitVec.ofNat 32 i).toNat < size))

/-- The byte that a segment has for an address, if it covers it. -/
def byte? (seg : Segment) (a : Nat) : Option Byte :=
  if seg.addr.toNat ≤ a then seg.data[a - seg.addr.toNat]? else none

/-- Memory contents with a segment laid over them. -/
def overlay (seg : Segment) (f : Nat → Byte) (a : Nat) : Byte := (seg.byte? a).getD (f a)

variable {seg : Segment} {size : Nat}

theorem overlay_nil (hdata : seg.data = []) (f : Nat → Byte) : seg.overlay f = f := by
  funext a
  simp [overlay, byte?, hdata]

theorem overlay_eq (seg : Segment) (f : Nat → Byte) (a : Nat) :
    seg.overlay f a = if seg.addr.toNat ≤ a ∧ a < seg.addr.toNat + seg.data.length then
      seg.data.getD (a - seg.addr.toNat) 0 else f a := by
  unfold overlay byte?
  by_cases ha : seg.addr.toNat ≤ a
  · by_cases hlast : a < seg.addr.toNat + seg.data.length
    · rw [if_pos ha, if_pos ⟨ha, hlast⟩, List.getD_eq_getElem?_getD,
        List.getElem?_eq_getElem (by omega), Option.getD_some, Option.getD_some]
    · rw [if_pos ha, if_neg (fun hin => hlast hin.2), List.getElem?_eq_none (by omega),
        Option.getD_none]
  · rw [if_neg ha, if_neg (fun hin => ha hin.1), Option.getD_none]

/-- A segment that fits does not go around the end of the address space: the byte that would lie
just behind memory would be one of its own. -/
theorem Fits.end_le (h : seg.Fits size) (hsize : size < 2 ^ 32) (hdata : 0 < seg.data.length) :
    seg.addr.toNat + seg.data.length ≤ size := by
  have hfirst := h 0 hdata
  rw [BitVec.add_zero] at hfirst
  refine Nat.le_of_not_lt fun hend => ?_
  have hbehind := h (size - seg.addr.toNat) (by omega)
  rw [BitVec.toNat_add, BitVec.toNat_ofNat] at hbehind
  omega

theorem fits_of_end_le (hsize : size < 2 ^ 32)
    (hend : seg.addr.toNat + seg.data.length ≤ size) : seg.Fits size := by
  intro i hi
  rw [BitVec.toNat_add, BitVec.toNat_ofNat]
  omega

end Segment

namespace Image

/-- Whether a program and the arguments it is given lie in a memory of `size` bytes from
address 0 on. -/
structure Fits (im : Image) (args : List (List Byte)) (size : Nat) : Prop where
  segments : ∀ seg ∈ im.segments, seg.Fits size
  arguments : im.isExecutable = true → (Arguments.block args).length ≤ size

/-- The fault of the first part of a program that does not fit. -/
def misfit? (im : Image) (args : List (List Byte)) (size : Nat) : Option ImageFault :=
  match im.segments.find? fun seg => ¬ seg.Fits size with
  | some seg => some (.segment seg.addr seg.data.length)
  | none =>
    if im.isExecutable ∧ size < (Arguments.block args).length then
      some (.arguments (Arguments.block args).length)
    else none

/-- What a program and its arguments have for an address: the byte of the argument block, if there
is one and it covers the address, and else that of the last segment that covers it. -/
def byte? (im : Image) (args : List (List Byte)) (a : Nat) : Option Byte :=
  (if im.isExecutable then (Arguments.block args)[a]? else none).or
    (im.segments.reverse.findSome? (·.byte? a))

variable {im : Image} {args : List (List Byte)} {size : Nat}

theorem misfit?_eq_none_iff : im.misfit? args size = none ↔ im.Fits args size := by
  unfold misfit?
  constructor
  · intro h
    split at h
    · cases h
    · rename_i hnone
      split at h
      · cases h
      · rename_i hargs
        refine ⟨fun seg hseg => ?_, fun hexec => ?_⟩
        · simpa using List.find?_eq_none.mp hnone seg hseg
        · exact Nat.le_of_not_lt fun hlt => hargs ⟨hexec, hlt⟩
  · rintro ⟨hsegments, harguments⟩
    have hnone : im.segments.find? (fun seg => ¬ seg.Fits size) = none :=
      List.find?_eq_none.mpr fun seg hseg => by simpa using hsegments seg hseg
    rw [hnone]
    exact if_neg fun h => absurd h.2 (Nat.not_lt.mpr (harguments h.1))

end Image

/-! ## Placing in memory -/

/-- A bus with nothing but a memory of `size` bytes from address 0 on, and what is in it. -/
def Bus.Shows (b : Bus) (size : Nat) (f : Nat → Byte) : Prop :=
  ∃ r : Ram, b.devices = [.ram r] ∧ r.base = 0 ∧ r.size = size ∧ ∀ a, r.byte a = f a

namespace Bus.Shows

variable {b : Bus} {size : Nat} {f : Nat → Byte}

/-- A block in one piece is taken exactly if it ends in memory. -/
theorem writeBytes (h : b.Shows size f) (seg : Segment) :
    ∃ b', b.writeBytes seg.addr seg.data =
        (decide (seg.addr.toNat + seg.data.length ≤ size), b') ∧
      b'.Shows size (if seg.addr.toNat + seg.data.length ≤ size then seg.overlay f else f) := by
  obtain ⟨r, hb, hbase, rfl, hbyte⟩ := h
  have hzero : r.base.toNat = 0 := congrArg BitVec.toNat hbase
  have hcovers : r.Covers seg.addr seg.data.length ↔
      seg.addr.toNat + seg.data.length ≤ r.size := by
    unfold Ram.Covers
    rw [hzero]
    simp
  rw [writeBytes_ram hb]
  by_cases hend : seg.addr.toNat + seg.data.length ≤ r.size
  · rw [if_pos (hcovers.mpr hend), decide_eq_true hend, if_pos hend]
    refine ⟨_, rfl, _, rfl, (Ram.base_setBytes ..).trans hbase, Ram.size_setBytes .., fun a => ?_⟩
    rw [hzero, Nat.sub_zero, Ram.byte_setBytes, hbyte]
    exact (seg.overlay_eq f a).symm
  · rw [if_neg (mt hcovers.mp hend), decide_eq_false hend, if_neg hend]
    exact ⟨b, rfl, r, hb, hbase, rfl, hbyte⟩

/-- Byte by byte, a block is taken only if each of its bytes lies in memory. -/
theorem writeEach (h : b.Shows size f) (addr : Word) (data : List Byte) :
    (∃ g, (b.writeEach addr data).2.Shows size g) ∧
      ((b.writeEach addr data).1 = true → Segment.Fits ⟨addr, data⟩ size) := by
  induction data generalizing b f addr with
  | nil => exact ⟨⟨f, h⟩, fun _ i hi => absurd hi (Nat.not_lt_zero i)⟩
  | cons byte rest ih =>
      obtain ⟨b₁, hfirst, hshows⟩ := h.writeBytes ⟨addr, [byte]⟩
      dsimp only at hfirst
      unfold Bus.writeEach
      rw [hfirst]
      by_cases haddr : addr.toNat + [byte].length ≤ size
      · rw [decide_eq_true haddr]
        obtain ⟨hafter, hrest⟩ := ih hshows (addr + 1)
        refine ⟨hafter, fun htaken i hi => ?_⟩
        cases i with
        | zero =>
            rw [BitVec.add_zero]
            exact haddr
        | succ i =>
            rw [Word.add_ofNat_succ]
            exact hrest htaken i (Nat.lt_of_succ_lt_succ hi)
      · rw [decide_eq_false haddr]
        exact ⟨⟨_, hshows⟩, fun htaken => absurd htaken Bool.false_ne_true⟩

/-- A segment is placed exactly if it fits, and memory is overlaid with it then. -/
theorem load (h : b.Shows size f) (hsize : size < 2 ^ 32) (seg : Segment) :
    ∃ b' g, b.load seg.addr seg.data = (decide (seg.Fits size), b') ∧ b'.Shows size g ∧
      (seg.Fits size → g = seg.overlay f) := by
  obtain ⟨b₁, hwhole, hshows⟩ := h.writeBytes seg
  unfold Bus.load
  rw [hwhole]
  by_cases hend : seg.addr.toNat + seg.data.length ≤ size
  · rw [if_pos hend] at hshows
    rw [decide_eq_true hend, decide_eq_true (Segment.fits_of_end_le hsize hend)]
    exact ⟨b₁, _, rfl, hshows, fun _ => rfl⟩
  · rw [if_neg hend] at hshows
    rw [decide_eq_false hend]
    obtain ⟨⟨g, hg⟩, htaken⟩ := hshows.writeEach seg.addr seg.data
    -- Only a segment of no bytes can fit without ending in memory.
    by_cases hdata : seg.data = []
    · have hfits : seg.Fits size := by simp [Segment.Fits, hdata]
      rw [decide_eq_true hfits, hdata]
      exact ⟨b₁, f, rfl, hshows, fun _ => (seg.overlay_nil hdata f).symm⟩
    · have hno : ¬ seg.Fits size := fun hfits =>
        hend (hfits.end_le hsize (List.length_pos_iff.mpr hdata))
      refine ⟨_, g, ?_, hg, fun hfits => absurd hfits hno⟩
      rw [decide_eq_false hno]
      exact Prod.ext (Bool.eq_false_iff.mpr fun h => hno (htaken h)) rfl

/-- Segments are placed as long as they fit, and each overlays what the ones before left. -/
theorem placeAll (h : b.Shows size f) (hsize : size < 2 ^ 32) (segments : List Segment) :
    ∃ b' g, Image.placeAll segments b =
        (match segments.find? fun seg => ¬ seg.Fits size with
          | some seg => .error (.segment seg.addr seg.data.length)
          | none => .ok (), b') ∧
      b'.Shows size g ∧
      ((∀ seg ∈ segments, seg.Fits size) →
        g = fun a => (segments.reverse.findSome? (·.byte? a)).getD (f a)) := by
  induction segments generalizing b f with
  | nil => exact ⟨b, f, rfl, h, fun _ => rfl⟩
  | cons seg rest ih =>
      obtain ⟨b₁, g₁, hload, hshows, hover⟩ := h.load hsize seg
      unfold Image.placeAll
      rw [hload, List.find?_cons]
      by_cases hfits : seg.Fits size
      · obtain ⟨b', g, hplace, hg, hrest⟩ := ih hshows
        simp only [hfits, not_true_eq_false, decide_true, decide_false]
        refine ⟨b', g, hplace, hg, fun hall => ?_⟩
        rw [hrest (List.forall_mem_cons.mp hall).2, hover hfits]
        funext a
        rw [List.reverse_cons, List.findSome?_append, List.findSome?_singleton, Option.getD_or]
        rfl
      · simp only [hfits, not_false_eq_true, decide_true, decide_false]
        exact ⟨b₁, g₁, rfl, hshows, fun hall => absurd (hall seg (List.mem_cons_self ..)) hfits⟩

/-- The argument block is placed exactly if memory is long enough for it. -/
theorem placeArguments (h : b.Shows size f) (args : List (List Byte)) :
    let block := Arguments.block args
    ∃ b', Arguments.place args b =
        (if size < block.length then .error (.arguments block.length) else .ok (), b') ∧
      b'.Shows size (if size < block.length then f else fun a => block[a]?.getD (f a)) := by
  intro block
  obtain ⟨b', hblock, hshows⟩ := h.writeBytes ⟨0, block⟩
  have hend : (0 : Word).toNat + block.length = block.length := Nat.zero_add _
  dsimp only at hblock
  rw [hend] at hblock hshows
  unfold Arguments.place
  rw [hblock]
  by_cases hfit : block.length ≤ size
  · have hlong : ¬ size < block.length := Nat.not_lt.mpr hfit
    rw [if_pos hfit] at hshows
    rw [decide_eq_true hfit, if_neg hlong, if_neg hlong]
    exact ⟨b', rfl, hshows⟩
  · have hlong : size < block.length := Nat.lt_of_not_le hfit
    rw [if_neg hfit] at hshows
    rw [decide_eq_false hfit, if_pos hlong, if_pos hlong]
    exact ⟨b', rfl, hshows⟩

/-- A program is placed exactly if it and its arguments fit, and is laid over memory then. -/
theorem place (h : b.Shows size f) (hsize : size < 2 ^ 32) (im : Image)
    (args : List (List Byte)) :
    ∃ b' g, im.place args b =
        (match im.misfit? args size with
          | some fault => .error fault
          | none => .ok (), b') ∧
      b'.Shows size g ∧
      (im.Fits args size → g = fun a => (im.byte? args a).getD (f a)) := by
  obtain ⟨b₁, g₁, hall, hshows, hover⟩ := h.placeAll hsize im.segments
  unfold Image.place Image.misfit?
  rw [hall]
  cases hfind : im.segments.find? (fun seg => ¬ seg.Fits size) with
  | some seg =>
      have hno : ¬ im.Fits args size := fun hfits =>
        absurd (hfits.segments seg (List.mem_of_find?_eq_some hfind))
          (by simpa using List.find?_some hfind)
      exact ⟨b₁, g₁, rfl, hshows, fun hfits => absurd hfits hno⟩
  | none =>
      have hg := hover (by simpa using List.find?_eq_none.mp hfind)
      cases hexec : im.isExecutable with
      | false =>
          refine ⟨b₁, g₁, by simp, hshows, fun _ => ?_⟩
          simp [hg, Image.byte?, hexec]
      | true =>
          obtain ⟨b₂, hblock, hafter⟩ := hshows.placeArguments args
          refine ⟨b₂, _, ?_, hafter, fun hfits => ?_⟩
          · simp only [hblock, if_true, true_and]
            split <;> rfl
          · rw [if_neg (Nat.not_lt.mpr (hfits.arguments hexec)), hg]
            funext a
            rw [Image.byte?, hexec, Option.getD_or]
            rfl

end Bus.Shows

/-- Only the peripheral model has more than memory, and memory is zero at first. -/
theorem Config.shows (c : Config) (hc : c.model ≠ .peripheral) :
    (Platform.ofConfig c).bus.Shows c.ramSize fun _ => 0 := by
  have hempty : ∀ base size a, Ram.byte { base, size } a = 0 := by simp [Ram.byte]
  unfold Platform.ofConfig Platform.ofConfigAt Config.devicesAt
  cases hm : c.model with
  | generic => exact ⟨_, rfl, rfl, rfl, hempty _ _⟩
  | windowed => exact ⟨_, rfl, rfl, rfl, hempty _ _⟩
  | peripheral => exact absurd hm hc

/-! ## Loading -/

namespace Machine

variable {m : Machine} {size : Nat} {f : Nat → Byte}

/-- The start state of a program: the program counter of the current mode is at its entry, and the
stack pointer where it is wanted. -/
theorem load_starts {image : Image} {args : List (List Byte)} {b : Bus}
    (h : image.place args m.platform.bus = (.ok (), b)) (sp : Word) :
    (m.load image args sp).1 = .ok () ∧
      (m.load image args sp).2.platform = { m.platform with bus := b } ∧
      (m.load image args sp).2.state.path = m.state.path.goto image.entry ∧
      ∀ i, (m.load image args sp).2.state.regs.read i =
        if i = stackReg then .int sp else m.state.regs.read i := by
  obtain ⟨s, hs⟩ := State.writeReg_ok (i := stackReg) (by decide) (m.state.setPc image.entry)
    (.int sp)
  have hload : m.load image args sp =
      (.ok (), { m with state := s, platform := { m.platform with bus := b } }) := by
    unfold load
    rw [h]
    simp only [hs]
  have hread : ∀ i, s.regs.read i = if i = stackReg then .int sp else m.state.regs.read i := by
    intro i
    rw [State.writeReg_read hs, State.regs_setPc]
    simp only [eq_comm]
  obtain ⟨regs, dirty, hstate⟩ := State.writeReg_eq hs
  rw [hload]
  refine ⟨rfl, rfl, ?_, hread⟩
  rw [hstate, ← State.path_setPc]
  rfl

theorem load_refused {image : Image} {args : List (List Byte)} {b : Bus} {fault : ImageFault}
    (h : image.place args m.platform.bus = (.error fault, b)) (sp : Word) :
    m.load image args sp =
      (.error (.image fault), { m with platform := { m.platform with bus := b } }) := by
  unfold load
  rw [h]

/-- Loading into a fresh machine of the generic or the windowed model succeeds exactly if every
byte of every segment lies in memory and, for an executable, the argument block does. Memory is
then the overlay of what was placed over zeros; the program counter of the start mode is the entry
point, the stack pointer is the configured one, and the other program counter, the mode and the
other registers are as they were. Else the fault names the first part that does not fit, and the
processor is left as it was. -/
theorem load_overlay (c : Config) (hc : c.model ≠ .peripheral) (hsize : c.ramSize ≤ maxRamSize)
    (image : Image) (args : List (List Byte)) :
    let fresh := Machine.ofConfig c (.ofConfig c)
    let r := fresh.load image args c.initialSp
    (r.1 = .ok () ↔ image.Fits args c.ramSize) ∧
    (r.1 = .ok () →
      r.2.platform.bus.Shows c.ramSize (fun a => (image.byte? args a).getD 0) ∧
      r.2.state.path = fresh.state.path.goto image.entry ∧
      ∀ i, r.2.state.regs.read i =
        if i = stackReg then .int c.initialSp else fresh.state.regs.read i) ∧
    (r.1 ≠ .ok () →
      (∃ fault, image.misfit? args c.ramSize = some fault ∧ r.1 = .error (.image fault)) ∧
      r.2.state = fresh.state) := by
  intro fresh r
  have hlimit : c.ramSize < 2 ^ 32 := Nat.lt_of_le_of_lt hsize (by decide)
  obtain ⟨b, g, hplace, hshows, hover⟩ := (c.shows hc).place hlimit image args
  cases hmisfit : image.misfit? args c.ramSize with
  | none =>
      have hfits := Image.misfit?_eq_none_iff.mp hmisfit
      rw [hmisfit] at hplace
      obtain ⟨hok, hplatform, hpath, hregs⟩ := load_starts (m := fresh) hplace c.initialSp
      refine ⟨iff_of_true hok hfits, fun _ => ⟨?_, hpath, hregs⟩, fun hno => absurd hok hno⟩
      rw [hplatform, ← hover hfits]
      exact hshows
  | some fault =>
      have hno : ¬ image.Fits args c.ramSize := fun hfits => by
        rw [Image.misfit?_eq_none_iff.mpr hfits] at hmisfit
        cases hmisfit
      rw [hmisfit] at hplace
      have hr : r = _ := load_refused (m := fresh) hplace c.initialSp
      have herror : r.1 = .error (.image fault) := congrArg Prod.fst hr
      have hfail : r.1 ≠ .ok () := by rw [herror]; nofun
      refine ⟨iff_of_false hfail hno, fun hok => absurd hok hfail,
        fun _ => ⟨⟨fault, rfl, herror⟩, ?_⟩⟩
      rw [hr]

/-- A windowed machine with 64 bytes of memory. -/
def narrow : Config := { model := .windowed, ramSize := 64 }

/-- Two segments, of which the second lies over the end of the first and the argument block over
its beginning, and a segment of no bytes where there is no memory. -/
def layered : Image :=
  ⟨0x20, [⟨0x10, [1, 2, 3, 4]⟩, ⟨0x13, [5, 6]⟩, ⟨0xffffffff, []⟩], true⟩

/-- The bytes around the borders after a load, and the fault of a segment that goes around the end
of the address space. -/
theorem load_overlay_layered :
    let fresh := Machine.ofConfig narrow (.ofConfig narrow)
    let r := fresh.load layered [[0x61]] narrow.initialSp
    let around : Image := ⟨0, [⟨0xffffffff, [1, 2]⟩], false⟩
    r.1 = .ok () ∧
      (∃ ram, r.2.platform.bus.devices = [.ram ram] ∧
        (List.range 8).map (fun i => ram.byte (0x0f + i)) = [0, 0x61, 0, 3, 5, 6, 0, 0]) ∧
      r.2.state.path = ⟨0x20, 0, .task⟩ ∧
      r.2.state.regs.read stackReg = .int 0x40 ∧
      (fresh.load around [] narrow.initialSp).1 = .error (.image (.segment 0xffffffff 2)) := by
  intro fresh r around
  have hmodel : narrow.model ≠ .peripheral := by decide
  have hsize : narrow.ramSize ≤ maxRamSize := by decide
  obtain ⟨hiff, hloaded, -⟩ := load_overlay narrow hmodel hsize layered [[0x61]]
  obtain ⟨hiff', -, hfailed⟩ := load_overlay narrow hmodel hsize around []
  have hok : r.1 = .ok () := hiff.mpr ⟨by decide +kernel, by decide +kernel⟩
  obtain ⟨⟨ram, hram, -, -, hbyte⟩, hpath, hregs⟩ := hloaded hok
  obtain ⟨⟨fault, hmisfit, herror⟩, -⟩ := hfailed fun h =>
    absurd ((hiff'.mp h).segments _ (List.mem_cons_self ..)) (by decide +kernel)
  have hfirst : around.misfit? [] narrow.ramSize = some (.segment 0xffffffff 2) := by
    decide +kernel
  obtain rfl := Option.some.inj (hmisfit.symm.trans hfirst)
  refine ⟨hok, ⟨ram, hram, ?_⟩, hpath, (hregs _).trans (if_pos rfl), herror⟩
  simp only [hbyte]
  decide +kernel

end Machine

end TypedCore
