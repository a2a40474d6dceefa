import TypedCore.CommandLine
import TypedCore.Host.Files
import TypedCore.Machine.Rehearsal

/-!
# The program

The command line on a real host: files are read, requests of the machine
are carried out, and lines are written. What is done in which order is
decided elsewhere; here it is only performed.

An open file is a path with an offset. Reads and writes go to the whole
file, so the host sees each of them at once. There is no way to ask for the
process number or to send a signal.
-/

namespace TypedCore.Program

/-! ## Requests -/

/-- An open file. -/
structure OpenFile where
  path : String
  offset : Nat
  flags : FileHost.OpenFlags

/-- The current directory and the open files; the first three descriptors are the
standard streams. -/
structure World where
  directory : String := "."
  files : Array (Option OpenFile) := #[none, none, none]

/-- The error number that stands for any other. -/
def otherError : Int := 5

/-- The error number in a code, which some failures give as its negative. -/
def errorOfCode (code : UInt32) : Int := code.toBitVec.toInt.natAbs

def errorNumber : IO.Error → Int
  | .alreadyExists _ code _ | .otherError code _ | .resourceBusy code _
  | .resourceVanished code _ | .unsupportedOperation code _ | .hardwareFault code _
  | .unsatisfiedConstraints code _ | .illegalOperation code _ | .protocolError code _
  | .timeExpired code _ | .interrupted _ code _ | .noFileOrDirectory _ code _
  | .invalidArgument _ code _ | .permissionDenied _ code _ | .resourceExhausted _ code _
  | .inappropriateType _ code _ | .noSuchThing _ code _ => errorOfCode code
  | .unexpectedEof | .userError _ => otherError

def attempt (act : IO α) : IO (Except Int α) := do
  try return .ok (← act)
  catch e => return .error (errorNumber e)

/-- Does something that gives no result but that it succeeds. -/
def attemptUnit (act : IO Unit) : IO (Except Int Int) := attempt do
  act
  return 0

namespace World

/-- Where a path of the guest lies; one that is no text lies nowhere. -/
def locate (w : World) (path : List Byte) : String :=
  match Text.ofBytes? path with
  | some p => if p.startsWith "/" then p else w.directory ++ "/" ++ p
  | none => ""

/-- The open file of a descriptor. -/
def file (w : World) (fd : Int) : Option OpenFile :=
  if fd < 0 then none else (w.files[fd.toNat]?).join

def setFile (w : World) (fd : Int) (f : Option OpenFile) : World :=
  { w with files := w.files.setIfInBounds fd.toNat f }

/-- Opens the lowest free descriptor above the standard streams. -/
def addFile (w : World) (f : OpenFile) : Int × World :=
  match (w.files.toList.drop 3).findIdx? Option.isNone with
  | some i => (i + 3, w.setFile (i + 3) (some f))
  | none => (w.files.size, { w with files := w.files.push (some f) })

end World

/-- The access rights in three bits. -/
def accessRight (bits : Nat) : IO.AccessRight :=
  { read := bits.testBit 2, write := bits.testBit 1, execution := bits.testBit 0 }

def setMode (path : String) (mode : Nat) : IO Unit :=
  IO.setAccessRights path
    { user := accessRight (mode / 64), group := accessRight (mode / 8), other := accessRight mode }

/-- Makes a file that does not exist yet. -/
def makeFile (path : String) (mode : Word) : IO Unit := do
  let _ ← IO.FS.Handle.mk path .writeNew
  setMode path (FileHost.newMode mode)

def openFile (w : World) (path : List Byte) (bits : Nat) (mode : Word) : IO (Int × World) := do
  let flags := FileHost.OpenFlags.ofBits bits
  let name := w.locate path
  if flags.create then
    if flags.exclusive then makeFile name mode
    else
      try let _ ← IO.FS.Handle.mk name .read
      catch _ => makeFile name mode
  if flags.truncate then
    let _ ← IO.FS.Handle.mk name .write
  else if flags.writable then
    let _ ← IO.FS.Handle.mk name .append
  else
    let _ ← IO.FS.Handle.mk name .read
  return w.addFile ⟨name, 0, flags⟩

def readFile (w : World) (fd : Int) (len : Nat) : IO (Except Int (List Byte) × World) := do
  if fd = 0 then
    return (← attempt do return Text.ofByteArray (← (← IO.getStdin).read len.toUSize), w)
  match w.file fd with
  | none => return (.error FileError.badDescriptor.number, w)
  | some f =>
    if !f.flags.readable then return (.error FileError.badDescriptor.number, w)
    match ← attempt (IO.FS.readBinFile f.path) with
    | .error e => return (.error e, w)
    | .ok all =>
      let data := Text.ofByteArray (all.extract f.offset (f.offset + len))
      return (.ok data, w.setFile fd (some { f with offset := f.offset + data.length }))

def writeStream (stream : IO.FS.Stream) (data : List Byte) : IO Unit := do
  stream.write (Text.toByteArray data)
  stream.flush

def writeFile (w : World) (fd : Int) (data : List Byte) : IO (Except Int Int × World) := do
  if fd = 1 ∨ fd = 2 then
    let stream ← if fd = 1 then IO.getStdout else IO.getStderr
    return (← attempt do
      writeStream stream data
      return data.length, w)
  match w.file fd with
  | none => return (.error FileError.badDescriptor.number, w)
  | some f =>
    if !f.flags.writable then return (.error FileError.badDescriptor.number, w)
    let written ← attempt do
      let old ← IO.FS.readBinFile f.path
      let offset := if f.flags.append then old.size else f.offset
      IO.FS.writeBinFile f.path
        ((FileData.ofByteArray old).write offset (Text.toByteArray data)).toByteArray
      return offset + data.length
    match written with
    | .error e => return (.error e, w)
    | .ok offset => return (.ok data.length, w.setFile fd (some { f with offset }))

def seek (w : World) (fd offset whence : Int) : IO (Except Int Int × World) := do
  match w.file fd with
  | none =>
    return (.error (if 0 ≤ fd ∧ fd ≤ 2 then FileError.noSeek else .badDescriptor).number, w)
  | some f =>
    match ← attempt (IO.FS.readBinFile f.path) with
    | .error e => return (.error e, w)
    | .ok all =>
      match FileHost.seekTarget f.offset (.ofData (.ofByteArray all)) offset whence with
      | .error e => return (.error e.number, w)
      | .ok target => return (.ok target, w.setFile fd (some { f with offset := target }))

def isTerminal (w : World) (fd : Int) : IO (Except Int Int) := do
  if 0 ≤ fd ∧ fd ≤ 2 then
    let stream ← if fd = 0 then IO.getStdin else if fd = 1 then IO.getStdout else IO.getStderr
    return if ← stream.isTty then .ok 1 else .error FileError.notATerminal.number
  return .error ((w.file fd).elim FileError.badDescriptor fun _ => .notATerminal).number

def perform (w : World) : (call : HostCall) → IO (Except Int call.Answer × World)
  | .openFile path flags mode => do
    match ← attempt (openFile w path flags mode) with
    | .ok (fd, w) => return (.ok fd, w)
    | .error e => return (.error e, w)
  | .close fd =>
    return if (w.file fd).isSome then (.ok 0, w.setFile fd none)
      else (.error FileError.badDescriptor.number, w)
  | .read fd len => readFile w fd len
  | .write fd data => writeFile w fd data
  | .seek fd offset whence => seek w fd offset whence
  | .unlink path => do return (← attemptUnit (IO.FS.removeFile (w.locate path)), w)
  | .processId => return (.ok FileHost.processId, w)
  | .kill _ _ => return (.error FileError.noProcess.number, w)
  | .changeDir path => do
    match ← attempt (IO.FS.realPath (w.locate path ++ "/.")) with
    | .ok _ => return (.ok 0, { w with directory := w.locate path })
    | .error e => return (.error e, w)
  | .changeMode path mode => do
    return (← attemptUnit (setMode (w.locate path) mode.toNat), w)
  | .time => do return (.ok (((← IO.monoMsNow) / 1000 : Nat) : Int), w)
  | .link old new => do
    return (← attemptUnit (IO.FS.hardLink (w.locate old) (w.locate new)), w)
  | .isTerminal fd => do return (← isTerminal w fd, w)

/-! ## Commands -/

/-- Reads a file that the command line names. -/
def contents (name : String) : IO FileContents := do
  try return .ok (Text.ofByteArray (← IO.FS.readBinFile name))
  catch e =>
    match FileError.ofNumber? (errorNumber e).toNat with
    | some why => return .error (.refused why)
    | none => return .error (.other (toString e))

def writeReport (r : Report) : IO UInt32 := do
  r.errors.forM fun line => IO.eprintln line
  r.output.forM fun line => IO.println line
  (← IO.getStdout).flush
  return r.status.toUInt32

/-- Writes what a machine transmitted, and its trace. -/
def writeNotes (console : IO.FS.Stream) (sent : List Byte) (lines : List String) : IO Unit := do
  if !sent.isEmpty then writeStream console sent
  lines.forM fun line => IO.eprintln line

/-- Runs a machine until it ends. -/
partial def runMachine (console : IO.FS.Stream) (m : Machine) (w : World) :
    IO (Except HostFault Halt × Machine) := do
  let first := m.rehearse
  writeNotes console first.machine.sent first.machine.traceLines
  let (result, m, w) ←
    match first.host with
    | none => pure (first.result, first.machine, w)
    | some call => do
      let (answer, w) ← perform w call
      let r := m.step (Host.prepared call answer) ()
      writeNotes console (r.machine.sent.drop first.machine.sent.length) []
      pure (r.result, r.machine, w)
  match result with
  | .ok none => runMachine console m.drained w
  | .ok (some halt) => return (.ok halt, m)
  | .error e => return (.error e, m)

def run (o : RunOptions) (name : String) : IO UInt32 := do
  let config ← o.config.mapM contents
  match o.start config name (← contents name) with
  | .error e => writeReport (.refusal e)
  | .ok start =>
    let console ← if start.consoleToStderr then IO.getStderr else IO.getStdout
    writeNotes console start.machine.sent []
    match start.result with
    | .error e => writeReport (.refusal e)
    | .ok () =>
      match ← runMachine console start.machine.drained {} with
      | (.ok halt, m) => writeReport (.ofHalt halt o.stats m)
      | (.error e, m) => writeReport (.ofFault e m)

end TypedCore.Program

open TypedCore in
def main (words : List String) : IO UInt32 := do
  match Command.parse words with
  | some (.run o name) => Program.run o name
  | some (.disasm name) => Program.writeReport (.ofProgram (← Program.contents name))
  | none =>
    IO.eprintln Command.usage
    return 2
