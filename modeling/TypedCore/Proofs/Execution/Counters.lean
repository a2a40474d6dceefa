import Mathlib.Algebra.BigOperators.Group.List.Basic
import Mathlib.Algebra.GroupWithZero.Nat
import Mathlib.Algebra.Order.BigOperators.Group.List
import Mathlib.Algebra.Order.Group.Nat
import TypedCore.Proofs.Modes.FallThrough
import TypedCore.Proofs.Protection.Ownership

/-!
# Counters that agree

The counters of a profile are bumped at different points of a step, and a step can
end between them. They agree all the same (`Profile.Consistent`): what is sorted by
mode and what is sorted into buckets add up to what was retired, and no event is
counted more often than there were instructions for it.

All of it follows from what one step adds at once (`Profile.tally`) and from two facts
about the step: an instruction leads elsewhere at most once (`departures_le`), and in the
user environment no interrupt is taken (`isUser_of_takesInterrupt`). A fault of the
simulator that comes with the reaction leaves an instruction counted whose path is never
compared; so the counter of taken instructions can stay behind, but not run ahead.

The buckets are counters of their own: a recorded instruction is one more in its
bucket and leaves the others (`Profile.count_record`), since no two sorts share a
bucket.

The counters have no bound here, and a machine has 64 bits for each. None of them is
ahead of what was retired (`Profile.Consistent.fits`), and that is at most an instruction
for each action (`run_retired_le`), so in a run of fewer than `2 ^ 64` actions no counter
leaves its 64 bits.
-/

namespace TypedCore

/-! ## Buckets -/

namespace InsnClass

variable {c d : InsnClass} {extended extended' : Bool}

theorem getElem?_all_index (c : InsnClass) : all[(c.index : Nat)]? = some c := by
  cases c <;> rfl

theorem eq_of_index (h : c.index = d.index) : c = d := by
  have hc := getElem?_all_index c
  rw [h, getElem?_all_index d] at hc
  exact (Option.some.inj hc).symm

theorem mem_all (c : InsnClass) : c ∈ all :=
  List.mem_of_getElem? (getElem?_all_index c)

/-- No two sorts of instructions share a bucket. -/
theorem bucket_inj : c.bucket extended = d.bucket extended' ↔ c = d ∧ extended = extended' := by
  constructor
  · intro h
    have hval : 2 * c.index.val + extended.toNat = 2 * d.index.val + extended'.toNat :=
      congrArg Fin.val h
    have hle := extended.toNat_le
    have hle' := extended'.toNat_le
    have hindex : c.index = d.index := Fin.ext (by omega)
    refine ⟨eq_of_index hindex, ?_⟩
    rw [hindex] at hval
    cases extended <;> cases extended' <;> simp at hval ⊢
  · rintro ⟨rfl, rfl⟩
    rfl

/-- Every class is in the list of all, and just once. -/
theorem sum_all_single (c : InsnClass) : (all.map fun d => if d = c then 1 else 0).sum = 1 := by
  cases c <;> rfl

end InsnClass

namespace Profile

variable {p : Profile} {environment : Environment}

theorem count_record (p : Profile) (c d : InsnClass) (len : Nat) (mode : Mode) (extended : Bool) :
    (p.record c len mode).count d extended =
      p.count d extended + if (d, extended) = (c, decide (2 < len)) then 1 else 0 := by
  have hplace : (c.bucket (decide (2 < len))).val = (d.bucket extended).val ↔
      (d, extended) = (c, decide (2 < len)) := by
    rw [Prod.mk.injEq, ← InsnClass.bucket_inj, Fin.ext_iff]
    exact eq_comm
  unfold record recordMany count
  dsimp only [Fin.getElem_fin]
  rw [Vector.getElem_set]
  by_cases h : (d, extended) = (c, decide (2 < len))
  · obtain ⟨rfl, rfl⟩ := Prod.mk.inj h
    rw [if_pos rfl, if_pos rfl]
  · rw [if_neg (mt hplace.mp h), if_neg h, Nat.add_zero]

theorem classTotal_record (p : Profile) (c d : InsnClass) (len : Nat) (mode : Mode) :
    (p.record c len mode).classTotal d = p.classTotal d + if d = c then 1 else 0 := by
  unfold classTotal
  rw [count_record, count_record]
  by_cases h : d = c
  · cases decide (2 < len) <;> simp [h] <;> omega
  · simp [h]

/-- The instructions of all classes. -/
def sorted (p : Profile) : Nat := (InsnClass.all.map p.classTotal).sum

theorem sorted_record (p : Profile) (c : InsnClass) (len : Nat) (mode : Mode) :
    (p.record c len mode).sorted = p.sorted + 1 := by
  unfold sorted
  rw [List.map_congr_left fun d _ => p.classTotal_record c d len mode, List.sum_map_add,
    InsnClass.sum_all_single]

theorem modes_record (p : Profile) (c : InsnClass) (len : Nat) (mode : Mode) :
    (p.record c len mode).task + (p.record c len mode).scheduler = p.task + p.scheduler + 1 := by
  unfold record recordMany
  cases mode with
  | task => exact Nat.add_right_comm _ _ _
  | scheduler => rfl

/-- No bucket has more than all of them together. -/
theorem count_le_sorted (p : Profile) (c : InsnClass) (extended : Bool) :
    p.count c extended ≤ p.sorted := by
  have hclass : p.count c extended ≤ p.classTotal c := by
    cases extended with
    | false => exact Nat.le_add_right _ _
    | true => exact Nat.le_add_left _ _
  exact hclass.trans (List.le_sum_of_mem (List.mem_map_of_mem c.mem_all))

/-- What the counters of a run in a given environment say of one another. -/
structure Consistent (p : Profile) (environment : Environment) : Prop where
  modes : p.retired = p.task + p.scheduler
  classes : p.retired = p.sorted
  taken : p.taken ≤ p.retired
  exceptions : p.exceptions ≤ p.retired
  interrupts : p.interrupts ≤ p.retired
  syscalls : p.syscalls ≤ p.exceptions
  serviced : environment.isUser = false → p.syscalls = 0
  undisturbed : environment.isUser = true → p.interrupts = 0

/-- Every counter is a number of 64 bits. -/
structure Fits (p : Profile) : Prop where
  retired : p.retired < 2 ^ 64
  buckets : ∀ c extended, p.count c extended < 2 ^ 64
  taken : p.taken < 2 ^ 64
  task : p.task < 2 ^ 64
  scheduler : p.scheduler < 2 ^ 64
  exceptions : p.exceptions < 2 ^ 64
  syscalls : p.syscalls < 2 ^ 64
  interrupts : p.interrupts < 2 ^ 64

namespace Consistent

theorem empty (environment : Environment) : Consistent {} environment where
  modes := rfl
  classes := rfl
  taken := Nat.le_refl _
  exceptions := Nat.le_refl _
  interrupts := Nat.le_refl _
  syscalls := Nat.le_refl _
  serviced _ := rfl
  undisturbed _ := rfl

/-- Counters that agree fit as soon as the instructions retired do. -/
theorem fits (hp : p.Consistent environment) (hretired : p.retired < 2 ^ 64) : p.Fits := by
  have hmodes := hp.modes
  have hexceptions := hp.exceptions.trans_lt hretired
  exact
    { retired := hretired
      buckets := fun c extended => (hp.classes ▸ p.count_le_sorted c extended).trans_lt hretired
      taken := hp.taken.trans_lt hretired
      task := by omega
      scheduler := by omega
      exceptions := hexceptions
      syscalls := hp.syscalls.trans_lt hexceptions
      interrupts := hp.interrupts.trans_lt hretired }

/-- A serviced call is a raised cause. -/
theorem serviced_le (cause : Cause) (environment : Environment) :
    (cause == .syscall && environment.isUser).toNat ≤ cause.isRaised.toNat := by
  cases cause <;> cases environment <;> decide

/-- What one instruction adds keeps the counters in agreement, if it leads elsewhere at most
once and is not interrupted in the user environment. -/
theorem tally (hp : p.Consistent environment) {departures : Nat} {interrupted : Bool}
    (hdepartures : departures ≤ 1)
    (hinterrupted : interrupted = true → environment.isUser = false)
    (fetched : InsnClass × Nat) (mode : Mode) (cause : Cause) :
    (p.tally fetched mode cause environment departures interrupted).Consistent environment where
  modes := by
    have hmode := p.modes_record fetched.1 fetched.2 mode
    exact (congrArg (· + 1) hp.modes).trans hmode.symm
  classes := by
    have hsorted := p.sorted_record fetched.1 fetched.2 mode
    exact (congrArg (· + 1) hp.classes).trans hsorted.symm
  taken := Nat.add_le_add hp.taken hdepartures
  exceptions := Nat.add_le_add hp.exceptions cause.isRaised.toNat_le
  interrupts := Nat.add_le_add hp.interrupts interrupted.toNat_le
  syscalls := Nat.add_le_add hp.syscalls (serviced_le cause environment)
  serviced := by
    intro hno
    show p.syscalls + (cause == .syscall && environment.isUser).toNat = 0
    rw [hp.serviced hno, hno, Bool.and_false]
    rfl
  undisturbed := by
    intro hu
    cases interrupted with
    | true => rw [hinterrupted rfl] at hu; cases hu
    | false => exact hp.undisturbed hu

end Consistent

end Profile

/-! ## Steps -/

/-- In the user environment no interrupt is taken, however an instruction ends. -/
theorem Core.Ends.interruptPending_of_isUser {c d : Core} {halt x : Option Halt}
    (h : c.Ends halt x d) (hu : c.environment.isUser = true) :
    d.interruptPending = c.interruptPending := by
  refine (h.uninterrupted fun _ => ?_).2.2
  unfold State.takeInterrupt
  rw [hu]
  rfl

namespace Machine

variable {σ : Type} {m : Machine} {host : Host σ} {h : σ}

theorem departures_le (m : Machine) (host : Host σ) (h : σ) : m.departures host h ≤ 1 := by
  unfold departures
  split
  · exact Nat.zero_le 1
  · split <;> decide

theorem isUser_of_takesInterrupt (ht : m.takesInterrupt host h = true) :
    m.environment.isUser = false := by
  cases hu : m.environment.isUser with
  | false => rfl
  | true =>
      -- Only a step that retires its instruction gets as far as the interrupt.
      have hpending : (m.step host h).machine.interruptPending = m.interruptPending := by
        cases m.step_goes host h with
        | unbuilt e ha hl => exact hl.interruptPending
        | refused effects p e ha hc happly hl => exact hl.interruptPending
        | raised effects p ha hc hf => exact (step_reacted ha hc host h).2
        | retired effects p s q ha hc happly hr =>
            obtain ⟨x, d, hends, hl⟩ := hr
            exact hl.interruptPending.trans (hends.interruptPending_of_isUser hu)
      rw [untaken_of_pending hpending] at ht
      cases ht

/-- A step adds one instruction to the profile, or nothing if it fails first. -/
theorem step_tally (m : Machine) (host : Host σ) (h : σ) :
    (m.step host h).machine.profile =
        m.profile.tally (fetchedClass m.fetched.1.toOption) m.state.mode m.raised m.environment
          (m.departures host h) (m.takesInterrupt host h) ∨
      (∃ e, (m.step host h).result = .error e) ∧ (m.step host h).machine.profile = m.profile := by
  cases ha : m.attempt with
  | error e => exact .inr ⟨⟨e, (step_unbuilt ha host h).result⟩, step_profile_unbuilt ha host h⟩
  | ok result =>
      obtain ⟨effects, p⟩ := result
      cases happly : effects.apply m.begun p with
      | error e =>
          exact .inr ⟨⟨e, (step_refused ha happly host h).result⟩,
            step_profile_refused ha happly host h⟩
      | ok applied => exact .inl (step_profile ha happly host h)

theorem step_consistent (hm : m.profile.Consistent m.environment) (host : Host σ) (h : σ) :
    (m.step host h).machine.profile.Consistent m.environment := by
  rcases m.step_tally host h with htally | ⟨-, hsame⟩
  · rw [htally]
    exact hm.tally (m.departures_le host h) isUser_of_takesInterrupt _ _ _
  · rw [hsame]
    exact hm

/-! ## Runs -/

theorem act_environment (m : Machine) (host : Host σ) (h : σ) (a : Action) :
    (m.act host h a).1.environment = m.environment := by
  cases a with
  | step => exact m.step_environment host h
  | interrupt => rfl
  | load image args sp => exact (m.load_platform image args sp).2

theorem act_consistent (hm : m.profile.Consistent m.environment) (host : Host σ) (h : σ)
    (a : Action) : (m.act host h a).1.profile.Consistent m.environment := by
  cases a with
  | step => exact step_consistent hm host h
  | interrupt => exact hm
  | load image args sp =>
      rw [act, load_profile]
      exact hm

theorem run_consistent (host : Host σ) (acts : List Action) (m : Machine) (h : σ)
    (hm : m.profile.Consistent m.environment) :
    (m.run host h acts).1.profile.Consistent m.environment := by
  induction acts generalizing m h with
  | nil => exact hm
  | cons a acts ih =>
      have hact := act_consistent hm host h a
      have henv := m.act_environment host h a
      rw [← henv] at hact ⊢
      exact ih _ _ hact

/-- An action retires at most one instruction. -/
theorem act_retired_le (m : Machine) (host : Host σ) (h : σ) (a : Action) :
    (m.act host h a).1.profile.retired ≤ m.profile.retired + 1 := by
  cases a with
  | step =>
      show (m.step host h).machine.profile.retired ≤ _
      rcases m.step_tally host h with htally | ⟨-, hsame⟩
      · rw [htally]
        exact Nat.le_refl _
      · rw [hsame]
        exact Nat.le_add_right _ _
  | interrupt => exact Nat.le_add_right _ _
  | load image args sp =>
      rw [act, load_profile]
      exact Nat.le_add_right _ _

theorem run_retired_le (host : Host σ) (acts : List Action) (m : Machine) (h : σ) :
    (m.run host h acts).1.profile.retired ≤ m.profile.retired + acts.length := by
  induction acts generalizing m h with
  | nil => exact Nat.le_refl _
  | cons a acts ih =>
      have hact := m.act_retired_le host h a
      have hrest := ih (m.act host h a).1 (m.act host h a).2
      rw [List.length_cons]
      exact hrest.trans (by omega)

/-- In a run of fewer than `2 ^ 64` actions, from counters that started at nothing, every
counter stays a number of 64 bits. -/
theorem run_fits (m : Machine) (hfresh : m.profile = {}) (host : Host σ) (h : σ)
    (acts : List Action) (hlen : acts.length < 2 ^ 64) :
    (m.run host h acts).1.profile.Fits := by
  have hstart : m.profile.Consistent m.environment := hfresh ▸ .empty m.environment
  refine (run_consistent host acts m h hstart).fits ?_
  have hretired := run_retired_le host acts m h
  rw [hfresh, Nat.zero_add] at hretired
  exact hretired.trans_lt hlen

/-- The sort that the next instruction is counted under: its class, and whether it has an
extension. What cannot be fetched counts as an unknown halfword. -/
def sort (m : Machine) : InsnClass × Bool :=
  match m.fetched.1 with
  | .ok d => (d.insn.insnClass, decide (2 < d.len))
  | .error _ => (.unknown, false)

theorem sort_eq (m : Machine) :
    m.sort = ((fetchedClass m.fetched.1.toOption).1,
      decide (2 < (fetchedClass m.fetched.1.toOption).2)) := by
  unfold sort
  cases m.fetched.1 with
  | ok d => rfl
  | error fault => rfl

/-- A step that does not end in a fault of the simulator retires one instruction, in the
bucket of its sort. -/
theorem step_counts {x : Option Halt} (hresult : (m.step host h).result = .ok x) :
    (m.step host h).machine.profile.retired = m.profile.retired + 1 ∧
      ∀ c extended, (m.step host h).machine.profile.count c extended =
        m.profile.count c extended + if (c, extended) = m.sort then 1 else 0 := by
  rcases m.step_tally host h with htally | ⟨⟨e, he⟩, -⟩
  · rw [htally, sort_eq]
    exact ⟨rfl, fun c extended => Profile.count_record _ _ _ _ m.state.mode _⟩
  · rw [hresult] at he
    cases he

/-- After every run of a machine whose counters started at nothing the counters agree, and
each further step that does not end in a fault of the simulator retires one instruction in
the bucket of its sort. -/
theorem counters_agree (m : Machine) (hfresh : m.profile = {}) (host : Host σ) (h : σ)
    (acts : List Action) :
    let now := m.run host h acts
    let next := now.1.step host now.2
    now.1.profile.Consistent m.environment ∧
      ∀ x, next.result = .ok x →
        next.machine.profile.retired = now.1.profile.retired + 1 ∧
          ∀ c extended, next.machine.profile.count c extended =
            now.1.profile.count c extended + if (c, extended) = now.1.sort then 1 else 0 := by
  intro now next
  have hstart : m.profile.Consistent m.environment := hfresh ▸ .empty m.environment
  exact ⟨run_consistent host acts m h hstart, fun x hresult => step_counts hresult⟩

/-- A scheduler that enters task mode and, once an interrupt brings it back, reads the cause
into `$r1` and the address into `$r2`. -/
def alarmed : Machine where
  state := {}
  platform :=
    { model := .generic
      bus := { devices := [.ram (Ram.setBytes ⟨0, 64, ∅⟩ 0
        [0x08, 0x00, 0xf1, 0xf0, 2, 0, 0, 0, 0xf2, 0xf0, 3, 0, 0, 0])] } }
  environment := .operating

/-- A scheduler that an interrupt has brought back reads the cause: an instruction with an
extension. -/
theorem counters_agree_alarmed :
    let now := alarmed.reset.run Host.noting none [.interrupt, .step]
    let next := now.1.step Host.noting now.2
    alarmed.reset.profile = {} ∧ now.1.profile.Consistent .operating ∧
      now.1.profile.interrupts = 1 ∧ now.1.sort = (.move, true) ∧ next.result = .ok none ∧
      next.machine.profile.retired = 2 ∧ next.machine.profile.count .move true = 1 ∧
      next.machine.profile.count .move false = 0 := by
  intro now next
  have hsort : now.1.sort = (.move, true) := by decide +kernel
  have hresult : next.result = .ok none := by decide +kernel
  have hretired : now.1.profile.retired = 1 := by decide +kernel
  have hcounts : now.1.profile.count .move true = 0 ∧ now.1.profile.count .move false = 0 := by
    decide +kernel
  obtain ⟨hagree, hnext⟩ := counters_agree alarmed.reset rfl Host.noting none [.interrupt, .step]
  have hnow : alarmed.reset.run Host.noting none [.interrupt, .step] = now := rfl
  have hstep : now.1.step Host.noting now.2 = next := rfl
  rw [hnow, hstep, hsort, hretired] at hnext
  obtain ⟨hmore, hbuckets⟩ := hnext none hresult
  refine ⟨rfl, hagree, by decide +kernel, hsort, hresult, hmore, ?_, ?_⟩
  · rw [hbuckets, hcounts.1]
    rfl
  · rw [hbuckets, hcounts.2]
    rfl

end Machine

end TypedCore
