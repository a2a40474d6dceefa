import TypedCore.Host.FileError
import TypedCore.Word

/-!
# Faults of the simulator

A `HostFault` stops the simulator itself. Unlike an exception cause it is
never shown to the guest: the machine reached something that is not built,
or the program or the configuration could not be taken in at all.
-/

namespace TypedCore

/-- Parts of the machine that are documented but not built. -/
inductive MissingFeature where
  | interpolation
  | floatStatusRegister
  | statCall
  | utimeCall
  | gettimeofdayCall
  | timesCall
  deriving DecidableEq, Repr

def MissingFeature.name : MissingFeature → String
  | interpolation => "lane interpolation"
  | floatStatusRegister => "floating-point status CSR"
  | statCall => "stat syscall"
  | utimeCall => "utime syscall"
  | gettimeofdayCall => "gettimeofday syscall"
  | timesCall => "times syscall"

/-- Why a program image cannot be loaded. -/
inductive ImageFault where
  /-- The file is not a well-formed executable. -/
  | malformed
  /-- A segment does not lie in memory. -/
  | segment (addr : Word) (size : Nat)
  /-- The argument block does not lie in memory. -/
  | arguments (size : Nat)
  deriving DecidableEq, Repr

def ImageFault.message : ImageFault → String
  | malformed => "not a well-formed 32-bit executable"
  | segment addr size =>
    "segment at 0x" ++ Text.hex addr.toNat ++ " (" ++ Text.dec size ++
      " bytes) does not fit in memory"
  | arguments size => "argument block of " ++ Text.dec size ++ " bytes does not fit"

/-- Why a configuration is refused. -/
inductive ConfigFault where
  /-- The text is not a configuration document. -/
  | malformed
  /-- The memory size is out of range. -/
  | ramSize (size : Nat)
  deriving DecidableEq, Repr

def ConfigFault.message : ConfigFault → String
  | malformed => "not a configuration document"
  | ramSize size => "ram_size " ++ Text.dec size ++ " must be between 1 byte and 256 MiB"

/-- Why a file could not be read. -/
inductive FileFault where
  /-- The host refused it. -/
  | refused (why : FileError)
  /-- The contents are no text where text is needed. -/
  | notText
  | other (text : String)
  deriving DecidableEq, Repr

def FileFault.message : FileFault → String
  | refused why => why.message
  | notText => "stream did not contain valid UTF-8"
  | other text => text

/-- A fault of the simulator itself. -/
inductive HostFault where
  /-- A status register that the machine model does not have. -/
  | unknownCsr (addr : Word)
  /-- Something that is not built. -/
  | unimplemented (what : MissingFeature)
  /-- A memory reference with neither base nor displacement. -/
  | noMemoryOperand
  /-- A write to a register that does not exist. -/
  | reservedRegister (index : Nat)
  /-- A file that could not be read. -/
  | file (why : FileFault)
  /-- A program that could not be loaded. -/
  | image (why : ImageFault)
  /-- A configuration that was refused. -/
  | config (why : ConfigFault)
  deriving DecidableEq, Repr

def HostFault.message : HostFault → String
  | unknownCsr addr => "unknown CSR address 0x" ++ Text.hexPadded 3 addr.toNat
  | unimplemented what => "unimplemented: " ++ what.name
  | noMemoryOperand => "memory reference without base or displacement"
  | reservedRegister index => "write to reserved register index " ++ Text.dec index
  | file why => "I/O error: " ++ why.message
  | image why => "ELF load error: " ++ why.message
  | config why => "configuration error: " ++ why.message

end TypedCore
