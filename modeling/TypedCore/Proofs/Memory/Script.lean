import TypedCore.Host.Syscall
import TypedCore.Machine
import TypedCore.Proofs.Memory.ByteMap

/-!
# Scripts of memory calls

What the machine asks of its platform in one go, to fetch an instruction or to
copy a path, is a sequence of calls of the memory interface in which the
answers so far decide on the next call. A `Script` is such a sequence as data:
`Script.run` performs it on a platform, and `Script.calls` lists the calls that
it makes there.

The functions that use the interface are each equal to the run of a script, so
a script's calls are all that they look at: platforms that answer these calls
alike cannot be told apart by any of them (`Script.run_alike`).
-/

namespace TypedCore

/-- A sequence of memory calls that ends in a value. -/
inductive Script (α : Type) where
  | done (a : α)
  | call (c : MemCall) (next : Except MemFault (Option Word) → Script α)

namespace Script

variable {α β : Type}

/-- Performs the calls one after the other. -/
def run : Script α → Platform → α × Platform
  | done a, p => (a, p)
  | call c next, p => (next (c.perform p).1).run (c.perform p).2

/-- The calls that are made, in order. -/
def calls : Script α → Platform → List MemCall
  | done _, _ => []
  | call c next, p => c :: (next (c.perform p).1).calls (c.perform p).2

/-- One script after another. -/
protected def bind : Script α → (α → Script β) → Script β
  | done a, next => next a
  | call c rest, next => .call c fun answer => (rest answer).bind next

instance : Monad Script where
  pure := done
  bind := Script.bind

@[simp] theorem run_pure (a : α) (p : Platform) : (pure a : Script α).run p = (a, p) := rfl

@[simp] theorem run_bind (s : Script α) (next : α → Script β) (p : Platform) :
    (s >>= next).run p = (next (s.run p).1).run (s.run p).2 := by
  show (s.bind next).run p = _
  induction s generalizing p with
  | done a => rfl
  | call c rest ih => exact ih _ _

/-- Platforms that answer some calls alike, and still do afterwards, are left alike by a script
that makes no other calls on one of them, and give it the same value. -/
theorem run_alike {R : Platform → Platform → Prop} {ok : MemCall → Prop}
    (hstep : ∀ {p q} (c : MemCall), R p q → ok c →
      (c.perform p).1 = (c.perform q).1 ∧ R (c.perform p).2 (c.perform q).2)
    (s : Script α) {p q : Platform} (h : R p q) (hok : ∀ c ∈ s.calls p, ok c) :
    (s.run p).1 = (s.run q).1 ∧ R (s.run p).2 (s.run q).2 := by
  induction s generalizing p q with
  | done a => exact ⟨rfl, h⟩
  | call c next ih =>
      obtain ⟨hfirst, hrest⟩ := List.forall_mem_cons.mp hok
      obtain ⟨hanswer, hafter⟩ := hstep c h hfirst
      unfold run
      rw [← hanswer]
      exact ih _ hafter hrest

/-! ## One call -/

/-- Fetches one halfword. -/
def fetchHalf (mode : Mode) (addr : Word) : Script (Except MemFault Half) :=
  .call (.fetch mode addr) fun answer => pure (answer.map fun v => (v.getD 0).setWidth 16)

def read (mode : Mode) (addr : Word) (width : Width) : Script (Except MemFault Word) :=
  .call (.read mode addr width) fun answer => pure (answer.map fun v => v.getD 0)

def write (mode : Mode) (addr : Word) (width : Width) (value : Word) :
    Script (Except MemFault Unit) :=
  .call (.write mode addr width value) fun answer => pure (answer.map fun _ => ())

variable (mode : Mode) (addr : Word) (p : Platform)

@[simp] theorem run_fetchHalf : (fetchHalf mode addr).run p = p.fetchHalf mode addr := by
  simp only [fetchHalf, run, MemCall.perform]
  obtain ⟨_ | v, q⟩ := p.fetchHalf mode addr <;> simp [Except.map]

@[simp] theorem run_read (width : Width) :
    (read mode addr width).run p = p.read mode addr width := by
  simp only [read, run, MemCall.perform]
  obtain ⟨_ | v, q⟩ := p.read mode addr width <;> rfl

@[simp] theorem run_write (width : Width) (value : Word) :
    (write mode addr width value).run p = p.write mode addr width value := by
  simp only [write, run, MemCall.perform]
  obtain ⟨_ | _, q⟩ := p.write mode addr width value <;> rfl

/-! ## Fetching -/

/-- Fetches the extension that follows the word of an instruction of a given length. -/
def fetchExtension (pc : Word) : Nat → Script (Except MemFault Word)
  | 2 => pure (.ok 0)
  | 4 => do
    match ← fetchHalf mode (pc + 2) with
    | .ok low => pure (.ok (low.setWidth 32))
    | .error fault => pure (.error fault)
  | _ => do
    match ← fetchHalf mode (pc + 2) with
    | .error fault => pure (.error fault)
    | .ok low =>
      match ← fetchHalf mode (pc + 4) with
      | .ok high => pure (.ok (high ++ low))
      | .error fault => pure (.error fault)

/-- Fetches and decodes the instruction at an address. -/
def fetch (pc : Word) : Script (Except MemFault Decoded) := do
  match ← fetchHalf mode pc with
  | .error fault => pure (.error fault)
  | .ok word =>
    match ← fetchExtension mode pc word.insnLength with
    | .ok ext => pure (.ok (decode word ext))
    | .error fault => pure (.error fault)

theorem run_fetchExtension (pc : Word) (len : Nat) :
    (fetchExtension mode pc len).run p = p.fetchExtension mode pc len := by
  fun_cases Platform.fetchExtension p mode pc len <;>
    simp only [fetchExtension, run_bind, run_pure, run_fetchHalf, *]

theorem run_fetch (pc : Word) : (fetch mode pc).run p = p.fetch mode pc := by
  fun_cases Platform.fetch p mode pc <;>
    simp only [fetch, run_bind, run_pure, run_fetchHalf, run_fetchExtension, *]

/-! ## Copying -/

/-- Reads `len` bytes of task memory one by one, in front of those already read
(in reverse). -/
def readBytesOnto (acc : List Byte) : Nat → Word → Script (Except MemFault (List Byte))
  | 0, _ => pure (.ok acc.reverse)
  | len + 1, addr => do
    match ← read .task addr .byte with
    | .ok v => readBytesOnto (v.setWidth 8 :: acc) len (addr + 1)
    | .error fault => pure (.error fault)

/-- Writes bytes to task memory one by one. -/
def writeBytes (addr : Word) : List Byte → Script (Except MemFault Unit)
  | [] => pure (.ok ())
  | b :: bs => do
    match ← write .task addr .byte (b.setWidth 32) with
    | .ok () => writeBytes (addr + 1) bs
    | .error fault => pure (.error fault)

/-- Reads task memory up to a zero byte, looking at no more than `limit` bytes. -/
def scanString (acc : List Byte) : Nat → Word → Script (Option (Except MemFault (List Byte)))
  | 0, _ => pure none
  | limit + 1, addr => do
    match ← read .task addr .byte with
    | .ok v =>
      if v = 0 then pure (some (.ok acc.reverse))
      else scanString (v.setWidth 8 :: acc) limit (addr + 1)
    | .error fault => pure (some (.error fault))

/-- Reads a path up to its zero byte. -/
def readPath (addr : Word) : Script (Option (List Byte)) := do
  match ← scanString [] 0x100000000 addr with
  | some (.ok path) => pure (some path)
  | _ => pure none

theorem run_readBytesOnto (acc : List Byte) (len : Nat) :
    (readBytesOnto acc len addr).run p = Platform.readBytesOnto acc len addr p := by
  fun_induction Platform.readBytesOnto acc len addr p with
  | case1 => rfl
  | case2 acc len addr p v q hread ih =>
      simp only [readBytesOnto, run_bind, run_read, hread, ih]
  | case3 acc len addr p fault q hread =>
      simp only [readBytesOnto, run_bind, run_read, run_pure, hread]

theorem run_writeBytes (data : List Byte) :
    (writeBytes addr data).run p = p.writeBytes addr data := by
  fun_induction Platform.writeBytes p addr data with
  | case1 => rfl
  | case2 p addr b bs q hwrite ih => simp only [writeBytes, run_bind, run_write, hwrite, ih]
  | case3 p addr b bs fault q hwrite =>
      simp only [writeBytes, run_bind, run_write, run_pure, hwrite]

theorem run_scanString (acc : List Byte) (limit : Nat) :
    (scanString acc limit addr).run p = Platform.scanString acc limit addr p := by
  fun_induction Platform.scanString acc limit addr p with
  | case1 => rfl
  | case2 acc limit addr p q hread =>
      simp only [scanString, run_bind, run_read, run_pure, hread, if_true]
  | case3 acc limit addr p v q hread hv ih =>
      simp only [scanString, run_bind, run_read, hread, hv, if_false, ih]
  | case4 acc limit addr p fault q hread =>
      simp only [scanString, run_bind, run_read, run_pure, hread]

theorem run_readPath : (readPath addr).run p = p.readPath addr := by
  unfold readPath Platform.readPath
  rw [run_bind, run_scanString]
  obtain ⟨_ | _ | path, q⟩ := Platform.scanString [] 0x100000000 addr p <;> rfl

end Script

end TypedCore
