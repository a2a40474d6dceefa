import Mathlib.Algebra.Group.Nat.Defs
import TypedCore.Proofs.Memory.Routing
import TypedCore.Proofs.Protection.Windows

/-!
# Memory as a map of bytes

Behind translation, routing and byte order, memory is a map from bus addresses
to bytes. `ByteMap` is that map, `MemCall` is a call of the memory interface, and
`MemCall.effect` says what a call does to the map: an aligned write that is
allowed and lies in memory replaces the bytes it covers, and nothing else does
anything.

`Platform.Holds` relates a platform to the map. One call is answered as the map
says and keeps the relation (`Holds.perform`), so a sequence of calls of any
length is. What is needed of the bus is that memory shares no address with
another device; which device was used last then plays no part.
-/

namespace TypedCore

/-! ## Byte maps -/

/-- The bytes of memory by bus address. -/
abbrev ByteMap := Nat → Byte

namespace ByteMap

/-- The number that the `n` bytes from `a` on spell, the low byte first. -/
def number (mem : ByteMap) (a n : Nat) : Word :=
  Word.ofBytes ((List.range n).map fun i => mem (a + i))

/-- The map with the bytes from `a` on replaced. -/
def write (mem : ByteMap) (a : Nat) (data : List Byte) : ByteMap :=
  fun x => if a ≤ x ∧ x < a + data.length then data.getD (x - a) 0 else mem x

end ByteMap

theorem natOfBytes_lt (bs : List Byte) : natOfBytes bs < 256 ^ bs.length := by
  induction bs with
  | nil => decide
  | cons b bs ih =>
      have hb : b.toNat < 256 := b.isLt
      rw [natOfBytes, List.length_cons, Nat.pow_succ]
      omega

/-- Two bytes spell a number of 16 bits. -/
theorem ByteMap.number_half (mem : ByteMap) (a : Nat) :
    ((mem.number a 2).setWidth 16).setWidth 32 = mem.number a 2 := by
  have hlt := natOfBytes_lt ((List.range 2).map fun i => mem (a + i))
  rw [List.length_map, List.length_range] at hlt
  apply BitVec.eq_of_toNat_eq
  simp only [number, Word.ofBytes, BitVec.toNat_setWidth, BitVec.toNat_ofNat]
  omega

/-! ## Calls -/

/-- Whether memory has all of `len` bytes at a bus address. -/
def Bus.inRam (b : Bus) (addr : Word) (len : Nat) : Bool :=
  b.devices.any fun d => d.isRam && d.covers addr len

theorem Bus.covered_of_inRam {b : Bus} {addr : Word} {len : Nat} (h : b.inRam addr len = true) :
    ∃ d ∈ b.devices, d.covers addr len = true := by
  obtain ⟨d, hd, hboth⟩ := List.any_eq_true.mp h
  exact ⟨d, hd, (Bool.and_eq_true_iff.mp hboth).2⟩

/-- A call of the memory interface. -/
inductive MemCall where
  | fetch (mode : Mode) (addr : Word)
  | read (mode : Mode) (addr : Word) (width : Width)
  | write (mode : Mode) (addr : Word) (width : Width) (value : Word)
  deriving DecidableEq

namespace MemCall

def mode : MemCall → Mode
  | fetch mode _ | read mode .. | write mode .. => mode

def addr : MemCall → Word
  | fetch _ addr | read _ addr _ | write _ addr .. => addr

def width : MemCall → Width
  | fetch .. => .half
  | read _ _ width | write _ _ width _ => width

def access : MemCall → Access
  | fetch .. => .fetch
  | read .. => .read
  | write .. => .write

def isAligned (call : MemCall) : Bool := call.width.isAligned call.addr

/-- The bus address that a platform translates the address of a call to. -/
def physical (call : MemCall) (p : Platform) : Except MemFault Word :=
  p.physical call.mode call.addr call.access

/-- The answer to a call, with the value if one is read, and the platform after it. -/
def perform (p : Platform) : MemCall → Except MemFault (Option Word) × Platform
  | fetch mode addr =>
    ((p.fetchHalf mode addr).1.map fun v => some (v.setWidth 32), (p.fetchHalf mode addr).2)
  | read mode addr width => ((p.read mode addr width).1.map some, (p.read mode addr width).2)
  | write mode addr width value =>
    ((p.write mode addr width value).1.map fun _ => none, (p.write mode addr width value).2)

/-- A platform after some calls. -/
def performAll (p : Platform) (calls : List MemCall) : Platform :=
  calls.foldl (fun p call => (call.perform p).2) p

/-- The fault of a call that fails. The address is the one of the call, and alignment is looked
at before anything else. -/
def failure (call : MemCall) : MemFault :=
  ⟨if call.isAligned then call.access.violation else .unaligned, call.addr⟩

/-- The platform after a call that is answered, or the call if it fails. -/
def attempt (call : MemCall) (p : Platform) : Except MemCall Platform :=
  match call.perform p with
  | (.ok _, q) => .ok q
  | (.error _, _) => .error call

/-- The platform after some calls if all of them are answered, or the first that fails. -/
def attemptAll (p : Platform) (calls : List MemCall) : Except MemCall Platform :=
  calls.foldlM (fun p call => call.attempt p) p

/-- The first of some calls that fails. -/
def firstFailed? (p : Platform) (calls : List MemCall) : Option MemCall :=
  match attemptAll p calls with
  | .ok _ => none
  | .error call => some call

/-- The value that a map gives for a call whose bytes begin at bus address `a`. -/
def value? (mem : ByteMap) (a : Nat) (call : MemCall) : Option Word :=
  match call with
  | write .. => none
  | _ => some (mem.number a call.width.bytes)

/-- The bus address of a call whose bytes all lie in memory, if it is aligned and allowed. -/
def target? (start : Platform) (call : MemCall) : Option Word :=
  match call.physical start with
  | .ok a => if call.isAligned && start.bus.inRam a call.width.bytes then some a else none
  | .error _ => none

/-- The map after a call. -/
def effect (start : Platform) (mem : ByteMap) (call : MemCall) : ByteMap :=
  match call, call.target? start with
  | write _ _ width value, some a => mem.write a.toNat (bytesOfNat width.bytes value.toNat)
  | _, _ => mem

/-- The map after some calls, zero everywhere before them. -/
def mapAfter (start : Platform) (calls : List MemCall) : ByteMap :=
  calls.foldl (effect start) fun _ => 0

/-- An answer is the one that memory as a map gives, on a platform with the model, the windows
and the devices of `start`. Of a device that is no memory only the refusals are said. -/
structure AnsweredOn (start : Platform) (mem : ByteMap) (call : MemCall)
    (answer : Except MemFault (Option Word)) : Prop where
  unaligned : call.isAligned = false → answer = .error ⟨.unaligned, call.addr⟩
  denied : call.isAligned = true → ∀ fault, call.physical start = .error fault →
    answer = .error ⟨call.access.violation, call.addr⟩
  uncovered : call.isAligned = true → ∀ a, call.physical start = .ok a →
    (∀ d ∈ start.bus.devices, d.covers a call.width.bytes = false) →
    answer = .error ⟨call.access.violation, call.addr⟩
  inRam : ∀ a, call.target? start = some a → answer = .ok (call.value? mem a.toNat)
  refused : ∀ fault, answer = .error fault →
    fault.addr = call.addr ∧ call.effect start mem = mem

/-! ### Calls that fail -/

theorem failure_isRaised (call : MemCall) : call.failure.cause.isRaised = true := by
  unfold failure
  split
  · cases call <;> rfl
  · rfl

theorem error_of_map {α β : Type} {f : α → β} {answer : Except MemFault α} {fault : MemFault}
    (h : answer.map f = .error fault) : answer = .error fault := by
  cases answer with
  | ok a => cases h
  | error e => exact congrArg _ (Except.error.inj h)

theorem load_error {p : Platform} {mode : Mode} {addr : Word} {width : Width} {access : Access}
    {fault : MemFault} (h : (p.load mode addr width access).1 = .error fault) :
    fault = ⟨if width.isAligned addr then access.violation else .unaligned, addr⟩ := by
  cases hal : width.isAligned addr with
  | true => exact Platform.load_fault_aligned hal (Prod.ext h rfl)
  | false =>
      rw [Platform.load_unaligned hal] at h
      exact (Except.error.inj h).symm

theorem write_error {p : Platform} {mode : Mode} {addr value : Word} {width : Width}
    {fault : MemFault} (h : (p.write mode addr width value).1 = .error fault) :
    fault = ⟨if width.isAligned addr then .memoryViolation else .unaligned, addr⟩ := by
  cases hal : width.isAligned addr with
  | true => exact Platform.write_fault_aligned hal (Prod.ext h rfl)
  | false =>
      rw [Platform.write_unaligned hal] at h
      exact (Except.error.inj h).symm

/-- Whatever lies behind a call, there is one fault that it can end in. -/
theorem perform_error {p : Platform} {call : MemCall} {fault : MemFault}
    (h : (call.perform p).1 = .error fault) : fault = call.failure := by
  cases call with
  | fetch mode addr =>
      rw [perform, Platform.fetchHalf_eq] at h
      exact load_error (error_of_map (error_of_map h))
  | read mode addr width => exact load_error (error_of_map h)
  | write mode addr width value => exact write_error (error_of_map h)

section Attempts

variable {p q : Platform} {call failed : MemCall} {calls : List MemCall}

theorem attempt_ok {answer : Option Word} (h : call.perform p = (.ok answer, q)) :
    call.attempt p = .ok q := by
  rw [attempt, h]

theorem attempt_error {fault : MemFault} (h : call.perform p = (.error fault, q)) :
    call.attempt p = .error call := by
  rw [attempt, h]

theorem attemptAll_ok (h : call.attempt p = .ok q) :
    attemptAll p (call :: calls) = attemptAll q calls := by
  rw [attemptAll, List.foldlM_cons, h]
  rfl

theorem attemptAll_error (h : call.attempt p = .error failed) :
    attemptAll p (call :: calls) = .error failed := by
  rw [attemptAll, List.foldlM_cons, h]
  rfl

theorem firstFailed?_ok (h : call.attempt p = .ok q) :
    firstFailed? p (call :: calls) = firstFailed? q calls := by
  rw [firstFailed?, attemptAll_ok h, firstFailed?]

theorem firstFailed?_error (h : call.attempt p = .error failed) :
    firstFailed? p (call :: calls) = some failed := by
  rw [firstFailed?, attemptAll_error h]

theorem firstFailed?_append (p : Platform) (calls later : List MemCall) :
    firstFailed? p (calls ++ later) =
      match attemptAll p calls with
      | .ok q => firstFailed? q later
      | .error call => some call := by
  unfold firstFailed? attemptAll
  rw [List.foldlM_append]
  cases calls.foldlM (fun p call => attempt call p) p <;> rfl

/-- What fails of one call is that call, with the fault that it ends in. -/
theorem firstFailed?_singleton (p : Platform) (call : MemCall) :
    (firstFailed? p [call]).map failure =
      match (call.perform p).1 with
      | .error fault => some fault
      | .ok _ => none := by
  cases hperform : call.perform p with
  | mk answer q =>
      cases answer with
      | ok v =>
          rw [firstFailed?_ok (attempt_ok hperform)]
          rfl
      | error fault =>
          rw [firstFailed?_error (attempt_error hperform),
            perform_error (congrArg Prod.fst hperform)]
          rfl

/-- A halfword is fetched, or the fetch fails as such a call does. -/
theorem fetchHalf_attempt (p : Platform) (mode : Mode) (addr : Word) :
    (∃ word q, p.fetchHalf mode addr = (.ok word, q) ∧ (fetch mode addr).attempt p = .ok q) ∨
      ∃ q, p.fetchHalf mode addr = (.error (fetch mode addr).failure, q) ∧
        (fetch mode addr).attempt p = .error (fetch mode addr) := by
  cases hf : p.fetchHalf mode addr with
  | mk answer q =>
      cases answer with
      | ok word => exact .inl ⟨word, q, rfl, attempt_ok (by rw [perform, hf]; rfl)⟩
      | error fault =>
          have hperform : (fetch mode addr).perform p = (.error fault, q) := by
            rw [perform, hf]
            rfl
          have hfault := perform_error (congrArg Prod.fst hperform)
          exact .inr ⟨q, by rw [hfault], attempt_error hperform⟩

end Attempts

/-! ### The ways to be answered -/

variable {start : Platform} {mem : ByteMap} {call : MemCall} {a : Word}
  {answer : Except MemFault (Option Word)} {fault : MemFault}

theorem target?_ok (hal : call.isAligned = true) (hphys : call.physical start = .ok a)
    (hin : start.bus.inRam a call.width.bytes = true) : call.target? start = some a := by
  unfold target?
  simp [hphys, hal, hin]

theorem target?_elsewhere (hphys : call.physical start = .ok a)
    (hin : start.bus.inRam a call.width.bytes = false) : call.target? start = none := by
  unfold target?
  simp [hphys, hin]

theorem of_target? (h : call.target? start = some a) :
    call.isAligned = true ∧ call.physical start = .ok a ∧
      start.bus.inRam a call.width.bytes = true := by
  unfold target? at h
  split at h
  · rename_i hphys
    split at h
    · rename_i hboth
      obtain rfl := Option.some.inj h
      obtain ⟨hal, hin⟩ := Bool.and_eq_true_iff.mp hboth
      exact ⟨hal, hphys, hin⟩
    · cases h
  · cases h

/-- A call that is not aligned, not allowed or not for memory has no effect on the map. -/
theorem effect_untargeted (h : call.target? start = none) : call.effect start mem = mem := by
  unfold effect
  rw [h]
  split
  · rename_i hsome
    cases hsome
  · rfl

theorem answeredOn_unaligned (hal : call.isAligned = false) :
    call.AnsweredOn start mem (.error ⟨.unaligned, call.addr⟩) := by
  have hnone : call.target? start = none := by
    cases ht : call.target? start with
    | none => rfl
    | some a => exact absurd (of_target? ht).1 (by simp [hal])
  exact {
    unaligned := fun _ => rfl
    denied := fun h => absurd h (by simp [hal])
    uncovered := fun h => absurd h (by simp [hal])
    inRam := fun a ht => by rw [hnone] at ht; cases ht
    refused := fun fault h => ⟨by rw [← Except.error.inj h], effect_untargeted hnone⟩ }

theorem answeredOn_denied (hal : call.isAligned = true)
    (hphys : call.physical start = .error fault) :
    call.AnsweredOn start mem (.error ⟨call.access.violation, call.addr⟩) := by
  have hnone : call.target? start = none := by
    unfold target?
    rw [hphys]
  exact {
    unaligned := fun h => absurd h (by simp [hal])
    denied := fun _ _ _ => rfl
    uncovered := fun _ a h => by rw [hphys] at h; cases h
    inRam := fun a ht => by rw [hnone] at ht; cases ht
    refused := fun fault h => ⟨by rw [← Except.error.inj h], effect_untargeted hnone⟩ }

theorem answeredOn_inRam (ht : call.target? start = some a) :
    call.AnsweredOn start mem (.ok (call.value? mem a.toNat)) := by
  obtain ⟨hal, hphys, hin⟩ := of_target? ht
  exact {
    unaligned := fun h => absurd h (by simp [hal])
    denied := fun _ fault h => by rw [hphys] at h; cases h
    uncovered := fun _ b h hno => by
      obtain rfl := Except.ok.inj (hphys.symm.trans h)
      obtain ⟨d, hd, hcovers⟩ := Bus.covered_of_inRam hin
      rw [hno d hd] at hcovers
      cases hcovers
    inRam := fun b hb => by obtain rfl := Option.some.inj (ht.symm.trans hb); rfl
    refused := fun fault h => by cases h }

/-- An access outside of memory may be answered by a device; if none has all of its bytes, it is
refused. -/
theorem answeredOn_elsewhere (hal : call.isAligned = true) (hphys : call.physical start = .ok a)
    (hin : start.bus.inRam a call.width.bytes = false)
    (huncovered : (∀ d ∈ start.bus.devices, d.covers a call.width.bytes = false) →
      answer = .error ⟨call.access.violation, call.addr⟩)
    (hfault : ∀ fault, answer = .error fault → fault.addr = call.addr) :
    call.AnsweredOn start mem answer := by
  have hnone := target?_elsewhere hphys hin
  exact {
    unaligned := fun h => absurd h (by simp [hal])
    denied := fun _ fault h => by rw [hphys] at h; cases h
    uncovered := fun _ b h => by obtain rfl := Except.ok.inj (hphys.symm.trans h); exact huncovered
    inRam := fun b hb => by rw [hnone] at hb; cases hb
    refused := fun fault h => ⟨hfault fault h, effect_untargeted hnone⟩ }

end MemCall

/-! ## Platforms that hold a map -/

namespace Bus

variable {b c : Bus} {addr : Word} {len k : Nat} {r : Ram}

/-- Buses of one layout have their devices at the same addresses. -/
theorem uncovered_of_layout (hl : c.layout = b.layout)
    (h : ∀ d ∈ b.devices, d.covers addr len = false) :
    ∀ d ∈ c.devices, d.covers addr len = false := by
  intro d hd
  have hmem : d.blank ∈ b.layout := hl ▸ List.mem_map_of_mem hd
  obtain ⟨e, he, heq⟩ := List.mem_map.mp hmem
  rw [← Device.covers_blank, ← heq, Device.covers_blank]
  exact h e he

theorem inRam_of_layout (hl : c.layout = b.layout) (addr : Word) (len : Nat) :
    c.inRam addr len = b.inRam addr len := by
  have hany : ∀ d : Bus, d.inRam addr len = d.layout.any fun d => d.isRam && d.covers addr len := by
    intro d
    simp [inRam, layout, Function.comp_def]
  rw [hany, hany, hl]

/-- Where device `k` is the one memory, an access lies in memory if that device has its bytes. -/
theorem inRam_eq (hone : b.RamAt k) (hk : b.devices[k]? = some (.ram r)) (addr : Word)
    (len : Nat) : b.inRam addr len = decide (r.Covers addr len) := by
  rw [Bool.eq_iff_iff, decide_eq_true_iff]
  constructor
  · intro hin
    obtain ⟨d, hd, hboth⟩ := List.any_eq_true.mp hin
    obtain ⟨hram, hcovers⟩ := Bool.and_eq_true_iff.mp hboth
    obtain ⟨i, hi⟩ := List.getElem?_of_mem hd
    cases d with
    | ram s =>
        obtain rfl := hone i s hi
        obtain ⟨⟩ := hk.symm.trans hi
        exact Device.covers_iff.mp hcovers
    | console c => cases hram
    | gpio g => cases hram
  · intro hc
    refine List.any_eq_true.mpr ⟨.ram r, List.mem_of_getElem? hk, ?_⟩
    exact Bool.and_eq_true_iff.mpr ⟨rfl, Device.covers_iff.mpr hc⟩

theorem RamAt.of_layout (h : b.RamAt k) (hl : c.layout = b.layout) : c.RamAt k := by
  intro i r hi
  have hblank : b.layout[i]? = some (Device.ram r).blank := by
    rw [← hl, layout, List.getElem?_map, hi]
    rfl
  rw [layout, List.getElem?_map] at hblank
  obtain ⟨d, hd, heq⟩ := Option.map_eq_some_iff.mp hblank
  cases d with
  | ram s => exact h i s hd
  | console c => cases heq
  | gpio g => cases heq

end Bus

namespace Platform

/-- A platform with the model, the windows and the devices of `start`, whose memory, device `k`,
has the bytes of a map. -/
structure Holds (start : Platform) (k : Nat) (mem : ByteMap) (p : Platform) : Prop where
  model : p.model = start.model
  windows : p.windows = start.windows
  layout : p.bus.layout = start.bus.layout
  ram : ∃ r, p.bus.devices[k]? = some (.ram r) ∧ ∀ i < r.size, r.byte i = mem (r.base.toNat + i)

theorem physical_congr {p q : Platform} {mode : Mode} {addr : Word} {access : Access}
    (hm : p.model = q.model) (hw : p.windows = q.windows) :
    p.physical mode addr access = q.physical mode addr access := by
  obtain ⟨hinst, hdata⟩ := Windows.mk.inj hw
  unfold physical
  rw [hm, hinst, hdata]

namespace Holds

variable {start p : Platform} {k : Nat} {mem : ByteMap} {call : MemCall} {a : Word}

theorem physical (h : start.Holds k mem p) (call : MemCall) :
    p.physical call.mode call.addr call.access = call.physical start :=
  physical_congr h.model h.windows

/-- The bus may change in everything but its layout and its memory. -/
theorem withBus (h : start.Holds k mem p) {bus : Bus} (hl : bus.layout = p.bus.layout)
    (hk : bus.devices[k]? = p.bus.devices[k]?) : start.Holds k mem { p with bus } where
  model := h.model
  windows := h.windows
  layout := hl.trans h.layout
  ram := by
    obtain ⟨r, hr, hbyte⟩ := h.ram
    exact ⟨r, hk.trans hr, hbyte⟩

/-- The bytes of an access to memory are those of the map. -/
theorem read_bytes {r : Ram} {len : Nat} (hbyte : ∀ i < r.size, r.byte i = mem (r.base.toNat + i))
    (hc : r.Covers a len) :
    Word.ofBytes ((List.range len).map fun i => r.byte (a.toNat - r.base.toNat + i)) =
      mem.number a.toNat len := by
  obtain ⟨hlow, hhigh⟩ := hc
  unfold ByteMap.number
  congr 1
  refine List.map_congr_left fun i hi => ?_
  have hi' : i < len := List.mem_range.mp hi
  rw [hbyte _ (by omega), show r.base.toNat + (a.toNat - r.base.toNat + i) = a.toNat + i by omega]

/-- Writing to memory and to the map keeps them the same. -/
theorem write_bytes {r : Ram} {data : List Byte}
    (hbyte : ∀ i < r.size, r.byte i = mem (r.base.toNat + i)) (hc : r.Covers a data.length) :
    ∀ i < (r.setBytes (a.toNat - r.base.toNat) data).size,
      (r.setBytes (a.toNat - r.base.toNat) data).byte i =
        mem.write a.toNat data ((r.setBytes (a.toNat - r.base.toNat) data).base.toNat + i) := by
  obtain ⟨hlow, hhigh⟩ := hc
  intro i hi
  rw [Ram.size_setBytes] at hi
  rw [Ram.byte_setBytes, Ram.base_setBytes]
  unfold ByteMap.write
  by_cases hin : a.toNat - r.base.toNat ≤ i ∧ i < a.toNat - r.base.toNat + data.length
  · rw [if_pos hin, if_pos (by omega)]
    congr 1
    omega
  · rw [if_neg hin, if_neg (by omega)]
    exact hbyte i hi

/-- An aligned call that is allowed is for memory, or else memory has no part in it. -/
theorem reaches (h : start.Holds k mem p) (hone : start.bus.RamAt k) (hal : call.isAligned = true)
    (hstart : call.physical start = .ok a) :
    (call.target? start = some a ∧ ∃ r, p.bus.devices[k]? = some (.ram r) ∧
        r.Covers a call.width.bytes ∧ ∀ i < r.size, r.byte i = mem (r.base.toNat + i)) ∨
      start.bus.inRam a call.width.bytes = false ∧ p.bus.owns a call.width.bytes k = false := by
  obtain ⟨r, hr, hbyte⟩ := h.ram
  have hin := Bus.inRam_eq (hone.of_layout h.layout) hr a call.width.bytes
  rw [Bus.inRam_of_layout h.layout] at hin
  by_cases hc : r.Covers a call.width.bytes
  · rw [decide_eq_true hc] at hin
    exact .inl ⟨call.target?_ok hal hstart hin, r, hr, hc, hbyte⟩
  · rw [decide_eq_false hc] at hin
    exact .inr ⟨hin, (Bus.owns_eq_covers hr).trans (decide_eq_false hc)⟩

/-- The bytes written, to the bus as to the map. -/
theorem withBytes (h : start.Holds k mem p) {r : Ram} {data : List Byte}
    (hr : p.bus.devices[k]? = some (.ram r))
    (hbyte : ∀ i < r.size, r.byte i = mem (r.base.toNat + i)) (hc : r.Covers a data.length) :
    start.Holds k (mem.write a.toNat data)
      { p with bus := { p.bus.usedLast k with
        devices := p.bus.devices.set k (.ram (r.setBytes (a.toNat - r.base.toNat) data)) } } where
  model := h.model
  windows := h.windows
  layout := by
    rw [← h.layout]
    exact Bus.map_blank_set hr (by simp [Device.blank, Ram.base_setBytes])
  ram := ⟨_, List.getElem?_set_self (List.getElem?_eq_some_iff.mp hr).1, write_bytes hbyte hc⟩

section Steps

variable (hapart : start.bus.RamApart) (hone : start.bus.RamAt k)

include hapart hone

/-- A read, of an instruction or of data, is answered from the map and leaves it. -/
theorem load (h : start.Holds k mem p) (call : MemCall) (hval : ∀ a, call.value? mem a =
      some (mem.number a call.width.bytes)) {f : Word → Word}
    (hf : ∀ a, f (mem.number a call.width.bytes) = mem.number a call.width.bytes) :
    call.AnsweredOn start mem
        ((p.load call.mode call.addr call.width call.access).1.map fun v => some (f v)) ∧
      start.Holds k mem (p.load call.mode call.addr call.width call.access).2 := by
  have hphys := h.physical call
  cases hal : call.isAligned with
  | false =>
      rw [load_unaligned hal]
      exact ⟨call.answeredOn_unaligned hal, h⟩
  | true =>
      cases hstart : call.physical start with
      | error fault =>
          rw [load_denied hal (hphys.trans hstart)]
          exact ⟨call.answeredOn_denied hal hstart, h⟩
      | ok a =>
          rw [load_allowed hal (hphys.trans hstart)]
          rcases h.reaches hone hal hstart with ⟨htarget, r, hr, hc, hbyte⟩ | ⟨hin, hown⟩
          · rw [Bus.readBytes_alone ((hapart.of_layout h.layout).alone hr) hr
              call.width.bytes_pos hc]
            have hanswer : call.AnsweredOn start mem _ := call.answeredOn_inRam htarget
            rw [hval, ← hf, ← read_bytes hbyte hc] at hanswer
            exact ⟨hanswer, h.withBus rfl rfl⟩
          · -- A device may answer, and change in doing so; memory does not.
            have hkeep := h.withBus (p.bus.layout_readBytes a call.width.bytes)
              (Bus.readBytes_elsewhere hown)
            refine ⟨call.answeredOn_elsewhere hal hstart hin ?_ ?_, ?_⟩
            · intro hno
              rw [Bus.readBytes_uncovered (Bus.uncovered_of_layout h.layout hno)]
              rfl
            · intro fault hfault
              split at hfault
              · cases hfault
              · rw [← Except.error.inj hfault]
            · split <;> exact hkeep

/-- A write in memory changes the bytes it covers, in memory as in the map. -/
theorem write (h : start.Holds k mem p) (mode : Mode) (addr : Word) (width : Width)
    (value : Word) :
    (MemCall.write mode addr width value).AnsweredOn start mem
        ((p.write mode addr width value).1.map fun _ => none) ∧
      start.Holds k ((MemCall.write mode addr width value).effect start mem)
        (p.write mode addr width value).2 := by
  have hphys : p.physical mode addr .write = (MemCall.write mode addr width value).physical start :=
    h.physical (.write mode addr width value)
  cases hal : (MemCall.write mode addr width value).isAligned with
  | false =>
      have hal' : width.isAligned addr = false := hal
      have hanswer : MemCall.AnsweredOn start mem _ _ := MemCall.answeredOn_unaligned hal
      rw [write_unaligned hal']
      -- What is refused has no effect on the map, so it is the old map that has to be held.
      exact ⟨hanswer, (hanswer.refused _ rfl).2.symm ▸ h⟩
  | true =>
      have hal' : width.isAligned addr = true := hal
      cases hstart : (MemCall.write mode addr width value).physical start with
      | error fault =>
          have hanswer : MemCall.AnsweredOn start mem _ _ := MemCall.answeredOn_denied hal hstart
          rw [write_denied hal' (hphys.trans hstart)]
          exact ⟨hanswer, (hanswer.refused _ rfl).2.symm ▸ h⟩
      | ok a =>
          rw [write_allowed hal' (hphys.trans hstart)]
          have hlen : (bytesOfNat width.bytes value.toNat).length =
              (MemCall.write mode addr width value).width.bytes := length_bytesOfNat _ _
          rcases h.reaches hone hal hstart with ⟨htarget, r, hr, hc, hbyte⟩ | ⟨hin, hown⟩
          · have heffect : (MemCall.write mode addr width value).effect start mem =
                mem.write a.toNat (bytesOfNat width.bytes value.toNat) := by
              unfold MemCall.effect
              rw [htarget]
            rw [← hlen] at hc
            rw [heffect, Bus.writeBytes_alone ((hapart.of_layout h.layout).alone hr) hr
              (hlen.symm ▸ width.bytes_pos) hc]
            exact ⟨MemCall.answeredOn_inRam htarget, h.withBytes hr hbyte hc⟩
          · rw [← hlen] at hown
            have hkeep := h.withBus (p.bus.layout_writeBytes a _) (Bus.writeBytes_elsewhere hown)
            rw [MemCall.effect_untargeted (MemCall.target?_elsewhere hstart hin)]
            refine ⟨MemCall.answeredOn_elsewhere hal hstart hin ?_ ?_, hkeep⟩
            · intro hno
              rw [← hlen] at hno
              rw [Bus.writeBytes_uncovered (Bus.uncovered_of_layout h.layout hno)]
              rfl
            · intro fault hfault
              split at hfault
              · cases hfault
              · rw [← Except.error.inj hfault]
                rfl

/-- Each call is answered from the map, and keeps memory and map the same. -/
theorem perform (h : start.Holds k mem p) (call : MemCall) :
    call.AnsweredOn start mem (call.perform p).1 ∧
      start.Holds k (call.effect start mem) (call.perform p).2 := by
  cases call with
  | fetch mode addr =>
      have hload := h.load hapart hone (.fetch mode addr) (fun _ => rfl)
        (f := fun v => (v.setWidth 16).setWidth 32) fun a => mem.number_half a
      have hperform : (MemCall.fetch mode addr).perform p =
          ((p.load mode addr .half .fetch).1.map fun v => some ((v.setWidth 16).setWidth 32),
            (p.load mode addr .half .fetch).2) := by
        simp only [MemCall.perform, fetchHalf_eq]
        cases (p.load mode addr .half .fetch).1 <;> rfl
      rw [hperform]
      exact hload
  | read mode addr width =>
      exact h.load hapart hone (.read mode addr width) (fun _ => rfl)
        (f := fun v => v) fun _ => rfl
  | write mode addr width value => exact h.write hapart hone mode addr width value

/-- A platform that starts with a memory of zeros holds the map after any calls. -/
theorem performAll (h : start.Holds k (fun _ => 0) start) (calls : List MemCall) :
    start.Holds k (MemCall.mapAfter start calls) (MemCall.performAll start calls) := by
  have hfold : ∀ (calls : List MemCall) (mem : ByteMap) (p : Platform), start.Holds k mem p →
      start.Holds k (calls.foldl (MemCall.effect start) mem)
        (calls.foldl (fun p call => (MemCall.perform p call).2) p) := by
    intro calls
    induction calls with
    | nil => exact fun mem p h => h
    | cons call calls ih => exact fun mem p h => ih _ _ (h.perform hapart hone call).2
  exact hfold calls _ start h

end Steps

end Holds

end Platform

/-! ## Configured platforms -/

namespace Config

theorem exists_ram (c : Config) (base : Word) :
    ∃ r : Ram, Device.ram r ∈ c.devicesAt base ∧ r.cells = ∅ := by
  unfold devicesAt
  split <;> exact ⟨_, .head _, rfl⟩

/-- Only the peripheral model has devices that memory could overlap. -/
theorem ramApart {c : Config} {base : Word}
    (hapart : c.model = .peripheral → (c.devicesAt base).Pairwise Device.Apart) :
    (Platform.ofConfigAt c base).bus.RamApart := by
  apply Bus.ramApart_ofDevices
  cases hm : c.model with
  | generic =>
      simp only [devicesAt, hm]
      exact List.pairwise_singleton _ _
  | windowed =>
      simp only [devicesAt, hm]
      exact List.pairwise_singleton _ _
  | peripheral =>
      refine (hapart hm).imp ?_
      intro d e h _
      exact h

end Config

namespace Platform

theorem holds_ofConfigAt (c : Config) (base : Word) (w : Windows) :
    ∃ k, ((ofConfigAt c base).withWindows w).bus.RamAt k ∧
      ((ofConfigAt c base).withWindows w).Holds k (fun _ => 0)
        ((ofConfigAt c base).withWindows w) := by
  obtain ⟨r, hr, hcells⟩ := c.exists_ram base
  have hmem : Device.ram r ∈ ((ofConfigAt c base).withWindows w).bus.devices :=
    (Bus.perm_ofDevices (c.devicesAt base)).mem_iff.mpr hr
  obtain ⟨k, hk⟩ := List.getElem?_of_mem hmem
  obtain ⟨j, hj⟩ := (c.oneRam base).ramAt
  obtain rfl : k = j := hj k r hk
  refine ⟨k, hj, rfl, rfl, rfl, r, hk, fun i _ => ?_⟩
  rw [Ram.byte, hcells]
  exact Std.TreeMap.getD_emptyc

/-- Whatever was fetched, read and written before, memory holds the map of the writes so far,
and a call is answered as the map says: with the number at its address if its bytes are in memory,
and with a fault that names the address as the program gave it if it is not aligned, not allowed
or not within one device. Where there are other devices, none may overlap another. -/
theorem answers_byteMap (c : Config) (base : Word) (w : Windows)
    (hapart : c.model = .peripheral → (c.devicesAt base).Pairwise Device.Apart)
    (calls : List MemCall) (call : MemCall) :
    let start := (ofConfigAt c base).withWindows w
    let p := MemCall.performAll start calls
    let mem := MemCall.mapAfter start calls
    (∀ r, Device.ram r ∈ p.bus.devices → ∀ i < r.size, r.byte i = mem (r.base.toNat + i)) ∧
      call.AnsweredOn start mem (call.perform p).1 := by
  intro start p mem
  have hstart : start.bus.RamApart := Config.ramApart hapart
  obtain ⟨k, hone, hholds⟩ := holds_ofConfigAt c base w
  have hp : start.Holds k mem p := hholds.performAll hstart hone calls
  refine ⟨?_, (hp.perform hstart hone call).1⟩
  intro r hr
  obtain ⟨i, hi⟩ := List.getElem?_of_mem hr
  obtain ⟨s, hs, hbyte⟩ := hp.ram
  obtain rfl : i = k := hone.of_layout hp.layout i r hi
  obtain ⟨⟩ := hs.symm.trans hi
  exact hbyte

/-- A console right behind memory, and a GPIO byte right behind the console. Half of a word that
was written is read back after both have been used, and a word that begins in the console and ends
behind it is refused. -/
theorem answers_byteMap_adjacent :
    let c : Config :=
      { model := .peripheral, ramSize := 64, consoleBase := 64, gpios := [⟨69, true⟩] }
    let start := (ofConfigAt c 0).withWindows ⟨.whole, .whole⟩
    let p := MemCall.performAll start [.write .task 8 .word 0x11223344,
      .write .scheduler 64 .byte 0x41, .read .task 69 .byte]
    (c.model = .peripheral → (c.devicesAt 0).Pairwise Device.Apart) ∧
      ((MemCall.read .task 10 .half).perform p).1 = .ok (some 0x1122) ∧
      ((MemCall.write .task 68 .word 5).perform p).1 = .error ⟨.memoryViolation, 68⟩ := by
  intro c start p
  have hapart : (c.devicesAt 0).Pairwise Device.Apart := by decide
  have hanswers := answers_byteMap c 0 ⟨.whole, .whole⟩ (fun _ => hapart)
    [.write .task 8 .word 0x11223344, .write .scheduler 64 .byte 0x41, .read .task 69 .byte]
  refine ⟨fun _ => hapart, ?_, ?_⟩
  · exact (hanswers (.read .task 10 .half)).2.inRam 10 (by decide)
  · exact (hanswers (.write .task 68 .word 5)).2.uncovered rfl 68 rfl (by decide)

end Platform

end TypedCore
