import TypedCore.Word

/-!
# The host

What a program without an operating system of its own asks of the host. A
`HostCall` is a request with its arguments copied out of guest memory; a
`Host` answers requests, with a value or with an error number, and may
remember what it was asked. Nothing else is known about it.
-/

namespace TypedCore

/-- A request to the host. -/
inductive HostCall where
  | openFile (path : List Byte) (flags : Nat) (mode : Word)
  | close (fd : Int)
  | read (fd : Int) (len : Nat)
  | write (fd : Int) (data : List Byte)
  | seek (fd offset whence : Int)
  | unlink (path : List Byte)
  | processId
  | kill (pid signal : Int)
  | changeDir (path : List Byte)
  | changeMode (path : List Byte) (mode : Word)
  | time
  | link (old new : List Byte)
  | isTerminal (fd : Int)
  deriving DecidableEq, Repr

/-- What a request is answered with: bytes for a read, a number for the others. -/
abbrev HostCall.Answer : HostCall → Type
  | read .. => List Byte
  | _ => Int

/-- A host with a memory of type `σ`. A refusal gives an error number. -/
structure Host (σ : Type) where
  answer : (call : HostCall) → σ → Except Int call.Answer × σ

/-! ## Open flags -/

/-- The flags of `open`: the bit the guest sets and the bits that the host knows
the flag by. -/
def openFlags : List (Nat × Nat) := [
  -- write only, read and write
  (0x1, 0x1), (0x2, 0x2),
  -- append, create, truncate, exclusive
  (0x8, 0x400), (0x200, 0x40), (0x400, 0x200), (0x800, 0x80),
  -- synchronous, non-blocking, no controlling terminal, close on exec
  (0x2000, 0x101000), (0x4000, 0x800), (0x8000, 0x100), (0x40000, 0x80000),
  -- no symbolic link, directory
  (0x100000, 0x20000), (0x200000, 0x10000)]

/-- The host's flags for the guest's; a bit that is no flag is dropped. -/
def hostOpenFlags (guest : Word) : Nat :=
  openFlags.foldl (fun flags (bit, host) => if guest.toNat &&& bit ≠ 0 then flags ||| host else flags) 0

end TypedCore
