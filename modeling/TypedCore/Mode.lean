import TypedCore.Cause

/-!
# Execution modes and kinds of access

The machine runs in one of two modes, each with its own program counter:
task mode for programs and scheduler mode for whatever switches between
them. A memory access is a fetch, a read or a write; which of the three it
is decides the protection window and the cause of a refusal.
-/

namespace TypedCore

/-- The execution mode. -/
inductive Mode where
  | task
  | scheduler
  deriving DecidableEq, Repr

namespace Mode

def isTask : Mode → Bool
  | task => true
  | scheduler => false

/-- Task mode if the flag is set. -/
def ofTaskFlag (flag : Bool) : Mode := if flag then task else scheduler

/-- The register that holds the program counter of a mode. -/
def pcName : Mode → String
  | task => "$tpc"
  | scheduler => "$spc"

def letter : Mode → String
  | task => "T"
  | scheduler => "S"

def name : Mode → String
  | task => "Task"
  | scheduler => "Scheduler"

end Mode

/-- Who handles an exception: nobody but the host in the user environment,
scheduler mode in the other two. -/
inductive Environment where
  | user
  | operating
  | virtual
  deriving DecidableEq, Repr

/-- Whether the host services the guest's system calls. -/
def Environment.isUser : Environment → Bool
  | user => true
  | _ => false

/-- What a memory access is for. -/
inductive Access where
  | fetch
  | read
  | write
  deriving DecidableEq, Repr

/-- The cause of a refused access. -/
def Access.violation : Access → Cause
  | fetch => .fetchViolation
  | read | write => .memoryViolation

end TypedCore
