import TypedCore.CommandLine
import TypedCore.Host.Files
import TypedCore.Machine.Rehearsal

/-!
# Runs on a host in memory

A session is a machine together with the files that it works on. The
console, the trace and the final report go to descriptors of the same host
as the program's own output, so that everything stands in the order in
which it was written.
-/

namespace TypedCore

/-- A machine with its files. -/
structure Session where
  machine : Machine
  files : FileHost
  /-- The descriptor that the console transmits to; without one, what it transmits
  stays with the machine. -/
  console : Option Int := none
  /-- The descriptor that trace lines go to; without one they stay with the machine. -/
  trace : Option Int := none

namespace Session

/-- Writes bytes to a descriptor, if it takes them. -/
def put (s : Session) (fd : Int) (bytes : List Byte) : Session :=
  match s.files.writeFile fd bytes with
  | .ok (_, files) => { s with files }
  | .error _ => s

/-- Lines as they are written. -/
def lineBytes (lines : List String) : List Byte := lines.flatMap fun l => Text.toBytes (l ++ "\n")

/-- Writes out what a machine transmitted, but for the first bytes. -/
def putConsole (s : Session) (m : Machine) (done : Nat) : Session :=
  match s.console with
  | some fd => s.put fd (m.sent.drop done)
  | none => s

def putTrace (s : Session) (m : Machine) : Session :=
  match s.trace with
  | some fd => s.put fd (lineBytes m.traceLines)
  | none => s

/-- The machine without what has been written out. -/
def keep (s : Session) (m : Machine) : Machine :=
  let d := m.drained
  { m with
    trace := if s.trace.isSome then d.trace else m.trace
    platform := if s.console.isSome then d.platform else m.platform }

/-- The session of a run, with what was transmitted while its program was placed. -/
def ofStart (start : Start) (files : FileHost) : Session :=
  let s : Session :=
    { machine := start.machine, files
      console := some (if start.consoleToStderr then 2 else 1), trace := some 2 }
  { s.putConsole start.machine 0 with machine := s.keep start.machine }

/-- Retires one instruction. What it transmits and its trace line come before what
it asks of the host. -/
def step (s : Session) : Except HostFault (Option Halt) × Session :=
  let first := s.machine.rehearse
  let s := (s.putConsole first.machine 0).putTrace first.machine
  match first.host with
  | none => (first.result, { s with machine := s.keep first.machine })
  | some _ =>
    let r := s.machine.step FileHost.host s.files
    let s := { s with files := r.host }
    let s := s.putConsole r.machine first.machine.sent.length
    (r.result, { s with machine := s.keep r.machine })

/-- Retires instructions until the run ends, but no more than `n`. -/
def runFor : (n : Nat) → Session → Except HostFault (Option Halt) × Session
  | 0, s => (.ok none, s)
  | n + 1, s =>
    match s.step with
    | (.ok none, s) => runFor n s
    | r => r

end Session

namespace FileHost

def writeReport (h : FileHost) (r : Report) : FileHost :=
  let put (h : FileHost) (fd : Int) (lines : List String) : FileHost :=
    match h.writeFile fd (Session.lineBytes lines) with
    | .ok (_, h) => h
    | .error _ => h
  put (put h 1 r.output) 2 r.errors

/-- What reading a file that the command line names gives. -/
def fileContents (h : FileHost) (name : String) : FileContents :=
  (h.contents (Text.toBytes name)).mapError .refused

end FileHost

end TypedCore
