import TypedCore.Float.Fixed
import TypedCore.Insn.Class
import TypedCore.Mode

/-!
# The execution profile

What a run did, in counters: the instructions it retired, sorted by class
and by whether the word had an extension, and the events along the way. The
counters never influence a run; `Profile.report` shows them at its end.
-/

namespace TypedCore

/-- The place of a bucket: a class has one for words alone and one for words with an
extension. -/
def InsnClass.bucket (c : InsnClass) (extended : Bool) : Fin 44 :=
  ⟨2 * c.index + extended.toNat, by cases extended <;> simp <;> omega⟩

/-- The counters of a run. Each is a number of 64 bits for as long as fewer than `2 ^ 64`
instructions are retired. -/
structure Profile where
  retired : Nat := 0
  buckets : Vector Nat 44 := Vector.replicate 44 0
  /-- Instructions after which a program counter or the mode was not what falling
  through would have made it. -/
  taken : Nat := 0
  /-- Instructions retired in task mode. -/
  task : Nat := 0
  /-- Instructions retired in scheduler mode. -/
  scheduler : Nat := 0
  exceptions : Nat := 0
  /-- System calls that the host serviced. -/
  syscalls : Nat := 0
  interrupts : Nat := 0
  deriving DecidableEq, Repr

namespace Profile

/-- How many instructions a bucket has. -/
def count (p : Profile) (c : InsnClass) (extended : Bool) : Nat := p.buckets[c.bucket extended]

/-- Counts `n` instructions of `len` bytes. -/
def recordMany (p : Profile) (c : InsnClass) (len : Nat) (mode : Mode) (n : Nat) : Profile :=
  let b := c.bucket (decide (2 < len))
  { p with
    retired := p.retired + n
    buckets := p.buckets.set b (p.buckets[b] + n)
    task := if mode.isTask then p.task + n else p.task
    scheduler := if mode.isTask then p.scheduler else p.scheduler + n }

/-- Counts an instruction of `len` bytes. -/
def record (p : Profile) (c : InsnClass) (len : Nat) (mode : Mode) : Profile :=
  p.recordMany c len mode 1

def classTotal (p : Profile) (c : InsnClass) : Nat := p.count c false + p.count c true

/-- The buckets that are not empty, in order. -/
def classes (p : Profile) : List (InsnClass × Bool × Nat) :=
  (InsnClass.all.flatMap fun c => [(c, false, p.count c false), (c, true, p.count c true)]).filter
    fun (_, _, n) => n ≠ 0

/-! ## The report -/

/-- A count and its share of all retired instructions. -/
def share (p : Profile) (n : Nat) : String :=
  " (" ++ (Double.percentage n (max p.retired 1)).fixed 2 ++ "%)"

def classLine (p : Profile) : InsnClass × Bool × Nat → String
  | (c, extended, n) =>
    "  " ++ Text.padRight 36 (c.name ++ if extended then " (imm)" else "") ++ " " ++
      Text.padLeft ' ' 10 (Text.dec n) ++ p.share n

def report (p : Profile) : List String :=
  let bar := "".pushn '=' 58
  let rule := "".pushn '-' 58
  ["", bar, "BREW SIMULATION STATISTICS", bar,
    "sim_insts                " ++ Text.dec p.retired,
    "insts.task               " ++ Text.dec p.task ++ p.share p.task,
    "insts.scheduler          " ++ Text.dec p.scheduler ++ p.share p.scheduler,
    rule, "INSTRUCTION MIX"] ++
  p.classes.map p.classLine ++
  [rule, "CONTROL FLOW",
    "  taken                  " ++ Text.dec p.taken ++ p.share p.taken,
    "  exceptions             " ++ Text.dec p.exceptions,
    "  syscalls               " ++ Text.dec p.syscalls,
    "  interrupts             " ++ Text.dec p.interrupts,
    bar]

end Profile

end TypedCore
