import TypedCore.Text

/-!
# Refusals of the host

Why a host refuses a request about files or processes. A guest is told the
number of the refusal, and a user its wording.
-/

namespace TypedCore

/-- Why the host refuses a request. -/
inductive FileError where
  | notPermitted
  | notFound
  | noProcess
  | noSuchOffset
  | badDescriptor
  | accessDenied
  | exists
  | notADirectory
  | isADirectory
  | invalid
  | notATerminal
  | noSeek
  | nameTooLong
  deriving DecidableEq, Repr

namespace FileError

def number : FileError → Nat
  | notPermitted => 1
  | notFound => 2
  | noProcess => 3
  | noSuchOffset => 6
  | badDescriptor => 9
  | accessDenied => 13
  | .exists => 17
  | notADirectory => 20
  | isADirectory => 21
  | invalid => 22
  | notATerminal => 25
  | noSeek => 29
  | nameTooLong => 36

def text : FileError → String
  | notPermitted => "Operation not permitted"
  | notFound => "No such file or directory"
  | noProcess => "No such process"
  | noSuchOffset => "No such device or address"
  | badDescriptor => "Bad file descriptor"
  | accessDenied => "Permission denied"
  | .exists => "File exists"
  | notADirectory => "Not a directory"
  | isADirectory => "Is a directory"
  | invalid => "Invalid argument"
  | notATerminal => "Inappropriate ioctl for device"
  | noSeek => "Illegal seek"
  | nameTooLong => "File name too long"

/-- The wording of a refusal with its number. -/
def message (e : FileError) : String := e.text ++ " (os error " ++ Text.dec e.number ++ ")"

def all : List FileError :=
  [notPermitted, notFound, noProcess, noSuchOffset, badDescriptor, accessDenied, .exists,
    notADirectory, isADirectory, invalid, notATerminal, noSeek, nameTooLong]

def ofNumber? (n : Nat) : Option FileError := all.find? (·.number == n)

end FileError

end TypedCore
