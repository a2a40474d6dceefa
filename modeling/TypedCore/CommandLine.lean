import TypedCore.Image.Listing
import TypedCore.Machine.Load
import TypedCore.Text.Utf8

/-!
# The command line

Two commands: `run` runs a program, and `disasm` lists it. What they do is
said here without any input or output: which options there are, how a run
is set up from the files it names, and what is reported at its end.

Options stand before the program. Behind it, a word that is no option
begins the arguments of the program, which take everything from there on.
-/

namespace TypedCore

/-! ## Commands -/

/-- The options of a run. -/
structure RunOptions where
  /-- A file with a configuration. -/
  config : Option String := none
  trace : Bool := false
  /-- A machine model in place of the configured one. -/
  model : Option MachineModel := none
  /-- An environment in place of the configured one. -/
  environment : Option Environment := none
  /-- Whether the profile is reported at the end. -/
  stats : Bool := false
  program : Option String := none
  /-- The arguments of the program. -/
  arguments : List String := []
  deriving DecidableEq, Repr

/-- A command. -/
inductive Command where
  | run (options : RunOptions) (program : String)
  | disasm (program : String)
  deriving DecidableEq, Repr

/-! ## Reading a command line -/

def MachineModel.ofName? : String → Option MachineModel
  | "generic" => some generic
  | "protected" => some windowed
  | "peripheral" => some peripheral
  | _ => none

def Environment.ofName? : String → Option Environment
  | "user" => some user
  | "operating" => some operating
  | "virtual" => some virtual
  | _ => none

/-- The option that a word is. -/
inductive OptionWord where
  /-- Two hyphens alone: no options follow. -/
  | separator
  | trace
  | stats
  /-- An option with a value, and the value if it is attached. -/
  | config (value : Option String)
  | model (value : Option String)
  | environment (value : Option String)
  /-- A hyphen with something behind it that is no option. -/
  | foreign
  /-- A word that cannot be an option. -/
  | plain
  deriving DecidableEq, Repr

namespace OptionWord

/-- A long option, without its hyphens. -/
def ofLong (name : List Char) (value : Option String) : OptionWord :=
  match String.ofList name, value with
  | "trace", none => trace
  | "stats", none => stats
  | "config", v => config v
  | "model", v => model v
  | "env", v => environment v
  | _, _ => foreign

/-- The value attached to a long option. -/
def attached? : List Char → Option String
  | '=' :: value => some (String.ofList value)
  | _ => none

/-- The value attached to a letter. -/
def attachedToLetter? : List Char → Option String
  | [] => none
  | '=' :: value => some (String.ofList value)
  | value => some (String.ofList value)

/-- The letters that stand for options; `h` asks for help. -/
def letters : List Char := ['c', 'h']

/-- What a word is. Behind the program, letters of which some are no option are none
of them. -/
def ofWord (behindProgram : Bool) (word : String) : OptionWord :=
  match word.toList with
  | ['-', '-'] => separator
  | '-' :: '-' :: long =>
    ofLong (long.takeWhile (· ≠ '=')) (attached? (long.dropWhile (· ≠ '=')))
  | '-' :: 'c' :: value =>
    if behindProgram && !value.all letters.contains then foreign else config (attachedToLetter? value)
  | '-' :: _ :: _ => foreign
  | _ => plain

end OptionWord

namespace RunOptions

/-- Sets an option that may be given once. -/
def once (old : Option α) (new : Option α) : Option (Option α) :=
  match old, new with
  | none, some a => some (some a)
  | _, _ => none

/-- A name of a file, which cannot be empty. -/
def fileName? (name : String) : Option String := if name.isEmpty then none else some name

def setConfig (o : RunOptions) (value : String) : Option RunOptions := do
  return { o with config := ← once o.config (fileName? value) }

def setModel (o : RunOptions) (value : String) : Option RunOptions := do
  return { o with model := ← once o.model (MachineModel.ofName? value) }

def setEnvironment (o : RunOptions) (value : String) : Option RunOptions := do
  return { o with environment := ← once o.environment (Environment.ofName? value) }

/-- Takes words none of which is an option any more. -/
def takePlain (o : RunOptions) (words : List String) : Option RunOptions :=
  match o.program, words with
  | some _, words => some { o with arguments := words }
  | none, program :: rest => do
    return { o with program := some (← fileName? program), arguments := rest }
  | none, [] => none

def takeWords (o : RunOptions) : List String → Option RunOptions
  | [] => some o
  | word :: rest =>
    match OptionWord.ofWord o.program.isSome word, rest with
    | .separator, rest => o.takePlain rest
    | .trace, rest => if o.trace then none else { o with trace := true }.takeWords rest
    | .stats, rest => if o.stats then none else { o with stats := true }.takeWords rest
    | .config (some v), rest => (o.setConfig v).bind (·.takeWords rest)
    | .model (some v), rest => (o.setModel v).bind (·.takeWords rest)
    | .environment (some v), rest => (o.setEnvironment v).bind (·.takeWords rest)
    | .config none, v :: rest => (o.setConfig v).bind (·.takeWords rest)
    | .model none, v :: rest => (o.setModel v).bind (·.takeWords rest)
    | .environment none, v :: rest => (o.setEnvironment v).bind (·.takeWords rest)
    | .config none, [] | .model none, [] | .environment none, [] => none
    | .foreign, rest =>
      if o.program.isSome then some { o with arguments := word :: rest } else none
    | .plain, rest =>
      if o.program.isSome then some { o with arguments := word :: rest }
      else (fileName? word).bind fun p => { o with program := some p }.takeWords rest

end RunOptions

/-- The command that a command line asks for; `none` if it is not well-formed. -/
def Command.parse : List String → Option Command
  | "run" :: words => do
    let o ← ({} : RunOptions).takeWords words
    return run o (← o.program)
  | ["disasm", "--", word] => (RunOptions.fileName? word).map disasm
  | ["disasm", word] | ["disasm", word, "--"] =>
    match OptionWord.ofWord false word with
    | .plain => (RunOptions.fileName? word).map disasm
    | _ => none
  | _ => none

def Command.usage : String :=
  "usage: run [--config FILE] [--trace] [--model MODEL] [--env ENV] [--stats] PROGRAM [ARGS]\n" ++
    "       disasm PROGRAM"

/-! ## Setting up a run -/

/-- What reading a file gave. -/
abbrev FileContents := Except FileFault (List Byte)

def Config.ofFile (contents : FileContents) : Except HostFault Config := do
  let bytes ← contents.mapError .file
  match Text.ofBytes? bytes with
  | none => throw (.file .notText)
  | some text => (Config.ofText text).mapError .config

def Image.ofFile (contents : FileContents) : Except HostFault Image := do
  (Image.parse (← contents.mapError .file)).mapError .image

/-- A machine with its program, or with as much of it as was placed before something did
not fit. Either way bytes may have gone to a console. -/
structure Start where
  machine : Machine
  /-- Whether the console transmits to the error output. -/
  consoleToStderr : Bool
  result : Except HostFault Unit

namespace RunOptions

/-- The configuration of a run: what the file says, if one is named, and then the options. -/
def configure (o : RunOptions) (file : Option FileContents) : Except HostFault Config := do
  let c ←
    match file with
    | some contents => Config.ofFile contents
    | none => pure {}
  return { c with
    trace := c.trace || o.trace
    model := o.model.getD c.model
    environment := o.environment.getD c.environment }

/-- Builds the machine of a run and loads the program into it. The program is the
first of its own arguments. -/
def start (o : RunOptions) (config : Option FileContents) (name : String)
    (program : FileContents) : Except HostFault Start := do
  let c ← o.configure config
  let image ← Image.ofFile program
  let (result, machine) := (Machine.ofConfig c (.ofConfig c)).load image
    ((name :: o.arguments).map Text.toBytes) c.initialSp
  return { consoleToStderr := c.consoleToStderr, machine, result }

end RunOptions

/-! ## Reports -/

/-- What a command says at its end. -/
structure Report where
  /-- Lines of output. -/
  output : List String := []
  /-- Lines of error output. -/
  errors : List String := []
  code : Int
  deriving DecidableEq, Repr

namespace Report

/-- The report on a command that could not begin. -/
def refusal (e : HostFault) : Report := { errors := ["[!] " ++ e.message], code := 1 }

def ofHalt (halt : Halt) (stats : Bool) (m : Machine) : Report where
  output := if stats then m.profile.report else []
  errors :=
    match halt with
    | .exited _ => []
    | .signalled _ =>
      ["[*] Program " ++ halt.text ++ " at pc 0x" ++ Text.hex m.state.pc.toNat]
  code := halt.exitCode

def ofFault (e : HostFault) (m : Machine) : Report where
  output := m.profile.report
  errors :=
    ["", "[!] FATAL: " ++ e.message,
      "    " ++ m.state.mode.pcName ++ " = 0x" ++ Text.hex m.state.pc.toNat] ++ m.state.regs.dump
  code := 1

def ofProgram (program : FileContents) : Report :=
  match Image.ofFile program >>= Image.listing with
  | .ok lines => { output := lines, code := 0 }
  | .error e => refusal e

/-- The exit status that the world sees: the low byte of the code. -/
def status (r : Report) : Nat := (r.code % 256).toNat

end Report

end TypedCore
