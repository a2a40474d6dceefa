import TypedCore.Host.Call
import TypedCore.Platform

/-!
# System calls

In the user environment the instruction `syscall` is followed by a
halfword with the number of the call. The arguments are in `$r4` to `$r7`,
the result goes to `$r4`, and if the call failed the error number goes to
the word that `$r3` points to. Paths and buffers are copied between guest
memory and the host; guest addresses are never handed over.

`Platform.service` decides what a call does, and `State.syscall` reads the
frame and delivers the result.
-/

namespace TypedCore

/-! ## Numbers -/

/-- The calls that have a meaning. -/
inductive Syscall where
  | exit
  | openFile
  | close
  | read
  | write
  | seek
  | unlink
  | processId
  | kill
  | fileStatus
  | changeDir
  | pathStatus
  | changeMode
  | setTimes
  | time
  | timeOfDay
  | processTimes
  | link
  | isTerminal
  deriving DecidableEq, Repr

def Syscall.ofNumber? : Nat → Option Syscall
  | 1 => some exit
  | 2 => some openFile
  | 3 => some close
  | 4 => some read
  | 5 => some write
  | 6 => some seek
  | 7 => some unlink
  | 8 => some processId
  | 9 => some kill
  | 10 => some fileStatus
  | 14 => some changeDir
  | 15 => some pathStatus
  | 16 => some changeMode
  | 17 => some setTimes
  | 18 => some time
  | 19 => some timeOfDay
  | 20 => some processTimes
  | 21 => some link
  | 256 => some isTerminal
  | _ => none

/-- The error numbers that calls fail with on their own account. -/
inductive CallError where
  /-- A path or buffer does not lie in memory. -/
  | badAddress
  /-- A file's data does not fit the caller's layout. -/
  | overflow
  deriving DecidableEq, Repr

def CallError.number : CallError → Int
  | badAddress => 14
  | overflow => 75

/-- How a call ends. -/
inductive SyscallReply where
  | value (v : Word)
  /-- The result register gets `ret`, the error word gets `errno`. -/
  | failed (ret : Word) (errno : Int)
  | halt (h : Halt)
  deriving DecidableEq, Repr

namespace SyscallReply

/-- A failure in the usual form: the result is minus one. -/
def error (errno : Int) : SyscallReply := failed 0xffffffff errno

/-- A failure on the call's own account. -/
def refused (e : CallError) : SyscallReply := error e.number

/-- The reply that passes on a host's answer; the result keeps its low 32 bits. -/
def ofAnswer : Except Int Int → SyscallReply
  | .ok v => value (BitVec.ofInt 32 v)
  | .error errno => error errno

end SyscallReply

/-! ## Guest memory -/

namespace Platform

/-- Reads `len` bytes of task memory one by one, in front of those already read
(in reverse). -/
def readBytesOnto (acc : List Byte) : (len : Nat) → Word → Platform →
    Except MemFault (List Byte) × Platform
  | 0, _, p => (.ok acc.reverse, p)
  | len + 1, addr, p =>
    match p.read .task addr .byte with
    | (.ok v, p) => readBytesOnto (v.setWidth 8 :: acc) len (addr + 1) p
    | (.error fault, p) => (.error fault, p)

/-- Reads `len` bytes of task memory one by one. -/
def readBytes (p : Platform) (addr : Word) (len : Nat) : Except MemFault (List Byte) × Platform :=
  readBytesOnto [] len addr p

/-- Writes bytes to task memory one by one. Those before a fault stay written. -/
def writeBytes (p : Platform) (addr : Word) : List Byte → Except MemFault Unit × Platform
  | [] => (.ok (), p)
  | b :: bs =>
    match p.write .task addr .byte (b.setWidth 32) with
    | (.ok (), p) => p.writeBytes (addr + 1) bs
    | (.error fault, p) => (.error fault, p)

/-- Reads task memory up to a zero byte, looking at no more than `limit` bytes;
`none` if the end is not among them. -/
def scanString (acc : List Byte) : (limit : Nat) → Word → Platform →
    Option (Except MemFault (List Byte)) × Platform
  | 0, _, p => (none, p)
  | limit + 1, addr, p =>
    match p.read .task addr .byte with
    | (.ok v, p) =>
      if v = 0 then (some (.ok acc.reverse), p)
      else scanString (v.setWidth 8 :: acc) limit (addr + 1) p
    | (.error fault, p) => (some (.error fault), p)

/-- Reads a path up to its zero byte. A path that does not end within the whole
address space is as unreadable as one that runs out of memory. -/
def readPath (p : Platform) (addr : Word) : Option (List Byte) × Platform :=
  match scanString [] 0x100000000 addr p with
  | (some (.ok path), p) => (some path, p)
  | (_, p) => (none, p)

end Platform

/-! ## Calls -/

/-- The arguments of a call. -/
structure SyscallArgs where
  first : Word
  second : Word
  third : Word
  deriving DecidableEq, Repr

/-- The longest buffer that one call transfers. -/
def maxTransfer : Nat := 0x10000000

variable {σ : Type}

/-- Asks the host and passes its answer on. -/
def Host.pass (host : Host σ) (call : HostCall) (h : σ) (toInt : call.Answer → Int) :
    SyscallReply × σ :=
  match host.answer call h with
  | (.ok v, h) => (.value (BitVec.ofInt 32 (toInt v)), h)
  | (.error errno, h) => (.error errno, h)

namespace Platform

/-- A call with one path: the host is asked only if the path can be read. -/
def withPath (p : Platform) (addr : Word) (h : σ)
    (ask : List Byte → SyscallReply × σ) : SyscallReply × Platform × σ :=
  match p.readPath addr with
  | (some path, p) =>
    let (reply, h) := ask path
    (reply, p, h)
  | (none, p) => (.refused .badAddress, p, h)

/-- Reads from the host into a buffer. The host is asked first, and what it gave is
gone even if the buffer turns out not to take it. -/
def serviceRead (p : Platform) (host : Host σ) (args : SyscallArgs) (h : σ) :
    SyscallReply × Platform × σ :=
  if maxTransfer < args.third.toNat then (.refused .badAddress, p, h)
  else
    match host.answer (.read args.first.toInt args.third.toNat) h with
    | (.error errno, h) => (.error errno, p, h)
    | (.ok data, h) =>
      if args.third.toNat < data.length then (.refused .badAddress, p, h)
      else
        match p.writeBytes args.second data with
        | (.ok (), p) => (.value (BitVec.ofNat 32 data.length), p, h)
        | (.error _, p) => (.refused .badAddress, p, h)

/-- Writes a buffer to the host, if all of it can be read. -/
def serviceWrite (p : Platform) (host : Host σ) (args : SyscallArgs) (h : σ) :
    SyscallReply × Platform × σ :=
  if maxTransfer < args.third.toNat then (.refused .badAddress, p, h)
  else
    match p.readBytes args.second args.third.toNat with
    | (.error _, p) => (.refused .badAddress, p, h)
    | (.ok data, p) =>
      let (reply, h) := host.pass (.write args.first.toInt data) h id
      (reply, p, h)

/-- Makes a second name for a file. Both paths are read before either is looked at. -/
def serviceLink (p : Platform) (host : Host σ) (args : SyscallArgs) (h : σ) :
    SyscallReply × Platform × σ :=
  let (old, p) := p.readPath args.first
  let (new, p) := p.readPath args.second
  match old, new with
  | some old, some new =>
    let (reply, h) := host.pass (.link old new) h id
    (reply, p, h)
  | _, _ => (.refused .badAddress, p, h)

/-- Tells the time, and stores it if an address is given. -/
def serviceTime (p : Platform) (host : Host σ) (args : SyscallArgs) (h : σ) :
    SyscallReply × Platform × σ :=
  match host.pass .time h id with
  | (.value now, h) =>
    if args.first = 0 then (.value now, p, h)
    else
      match p.write .task args.first .word now with
      | (.ok (), p) => (.value now, p, h)
      | (.error _, p) => (.refused .badAddress, p, h)
  | (reply, h) => (reply, p, h)

def service (p : Platform) (host : Host σ) (call : Option Syscall) (args : SyscallArgs) (h : σ) :
    Except HostFault SyscallReply × Platform × σ :=
  let ask (call : HostCall) (toInt : call.Answer → Int) : Except HostFault SyscallReply × Platform × σ :=
    let (reply, h) := host.pass call h toInt
    (.ok reply, p, h)
  let reply : SyscallReply × Platform × σ → Except HostFault SyscallReply × Platform × σ
    | (reply, p, h) => (.ok reply, p, h)
  let fd := args.first.toInt
  match call with
  | some .exit => (.ok (.halt (.exited args.first.toInt)), p, h)
  | some .openFile =>
    reply <| p.withPath args.first h fun path =>
      host.pass (.openFile path (hostOpenFlags args.second) args.third) h id
  | some .close => if fd ≤ 2 then (.ok (.value 0), p, h) else ask (.close fd) id
  | some .read => reply (p.serviceRead host args h)
  | some .write => reply (p.serviceWrite host args h)
  | some .seek => ask (.seek fd args.second.toInt args.third.toInt) id
  | some .unlink =>
    reply <| p.withPath args.first h fun path => host.pass (.unlink path) h id
  | some .processId => ask .processId id
  | some .kill => ask (.kill args.first.toInt args.second.toInt) id
  | some .fileStatus => (.ok (.refused .overflow), p, h)
  | some .changeDir =>
    reply <| p.withPath args.first h fun path => host.pass (.changeDir path) h id
  | some .changeMode =>
    reply <| p.withPath args.first h fun path =>
      host.pass (.changeMode path args.second) h id
  | some .link => reply (p.serviceLink host args h)
  | some .time => reply (p.serviceTime host args h)
  | some .isTerminal =>
    match host.pass (.isTerminal fd) h id with
    | (.failed _ errno, h) => (.ok (.failed 0 errno), p, h)
    | (answer, h) => (.ok answer, p, h)
  | some .pathStatus => (.error (.unimplemented .statCall), p, h)
  | some .setTimes => (.error (.unimplemented .utimeCall), p, h)
  | some .timeOfDay => (.error (.unimplemented .gettimeofdayCall), p, h)
  | some .processTimes => (.error (.unimplemented .timesCall), p, h)
  | none => (.ok (.halt (.bySignal .trap)), p, h)

end Platform

/-! ## The frame -/

/-- The register of the result and first argument. -/
def resultReg : Nat := 4

/-- The register that points to the error word. -/
def errorReg : Nat := 3

/-- What the reaction to an exception leaves behind: whether the run ends, and the
state, platform and host after it. -/
structure Response (σ : Type) where
  result : Except HostFault (Option Halt)
  state : State
  platform : Platform
  host : σ

/-- Delivers a reply to the guest. An error word that is not aligned ends the run;
one that does not lie in memory is dropped. -/
def State.deliver (s : State) (p : Platform) (reply : SyscallReply) :
    Except HostFault (Option Halt × State × Platform) := do
  match reply with
  | .value v => return (none, ← s.writeReg resultReg (.int v), p)
  | .failed ret errno =>
    let s ← s.writeReg resultReg (.int ret)
    let addr := (s.regs.read errorReg).value
    if addr.toNat % 4 ≠ 0 then return (some (.bySignal .bus), s, p)
    if addr = 0 then return (none, s, p)
    return (none, s, (p.write .task addr .word (BitVec.ofInt 32 errno)).2)
  | .halt h => return (some h, s, p)

/-- Services the call that the task just made. The task goes on behind the number,
unless that cannot be read: then the run ends as the fetch would have. -/
def State.syscall (s : State) (p : Platform) (host : Host σ) (h : σ) : Response σ :=
  let start := s.tpc.even
  match p.fetchHalf .task (start + 2) with
  | (.error fault, p) => ⟨.ok (some (.bySignal fault.cause.signal)), s, p, h⟩
  | (.ok number, p) =>
    let s := { s with nextTpc := start + 4 }
    let arg (i : Nat) : Word := (s.regs.read (resultReg + i)).value
    match p.service host (Syscall.ofNumber? number.toNat) ⟨arg 0, arg 1, arg 2⟩ h with
    | (.error e, p, h) => ⟨.error e, s, p, h⟩
    | (.ok reply, p, h) =>
      match s.deliver p reply with
      | .ok (halt, s, p) => ⟨.ok halt, s, p, h⟩
      | .error e => ⟨.error e, s, p, h⟩

end TypedCore
