import TypedCore.Host.Syscall

/-!
# Exceptions and interrupts

How the machine reacts to a raised cause. In the user environment there is
no scheduler: the host services `syscall`, and any other cause ends the run
with its signal. In the other environments an exception in task mode enters
scheduler mode, and one in scheduler mode ends the run.

An interrupt is taken between two instructions, only in task mode and only
where there is a scheduler. It raises a cause of its own and leaves the
task's program counter at the instruction that would have come next.
-/

namespace TypedCore.State

variable {σ : Type}

/-- Reacts to the cause that an instruction raised, before the shadow is committed. -/
def respond (s : State) (environment : Environment) (p : Platform) (host : Host σ) (h : σ) :
    Response σ :=
  if environment.isUser then
    if s.cause = .syscall then s.syscall p host h
    else ⟨.ok (some (.bySignal s.cause.signal)), s, p, h⟩
  else
    match s.mode with
    | .task => ⟨.ok none, { s with nextMode := .scheduler }, p, h⟩
    | .scheduler => ⟨.ok (some (.bySignal .trap)), s, p, h⟩

/-- The state after an interrupt, if it may be taken. -/
def takeInterrupt (s : State) (environment : Environment) : Option State :=
  if environment.isUser || !s.mode.isTask then none
  else some ({ s with cause := .hardwareInterrupt, faultAddr := none }.setMode .scheduler)

end TypedCore.State
