import TypedCore.Machine.Load
import TypedCore.Proofs.Execution.Step

/-!
# Runs

Between two resets a machine takes steps, is asked for interrupts, and may have
programs loaded. A run is a list of such actions; each starts where the one
before it ended, whether that was a halt, a fault of the simulator or neither.

Properties of a run are proved by induction on its actions, from what one action
does to any machine whatever.
-/

namespace TypedCore

/-- Something that is done to a machine. -/
inductive Action where
  | step
  | interrupt
  | load (image : Image) (args : List (List Byte)) (sp : Word)

namespace Machine

variable {σ : Type}

/-- The machine and the host after an action. -/
def act (host : Host σ) (m : Machine) (h : σ) : Action → Machine × σ
  | .step => ((m.step host h).machine, (m.step host h).host)
  | .interrupt => (m.raiseInterrupt, h)
  | .load image args sp => ((m.load image args sp).2, h)

/-- The machine and the host after a run. -/
def run (host : Host σ) (m : Machine) (h : σ) : List Action → Machine × σ
  | [] => (m, h)
  | a :: acts => run host (m.act host h a).1 (m.act host h a).2 acts

/-- The results of the steps of a run. -/
def results {σ : Type} (host : Host σ) (m : Machine) (h : σ) :
    List Action → List (Except HostFault (Option Halt))
  | [] => []
  | .step :: acts =>
    (m.step host h).result :: results host (m.step host h).machine (m.step host h).host acts
  | a :: acts => results host (m.act host h a).1 (m.act host h a).2 acts

/-- A load retires nothing. -/
theorem load_profile (m : Machine) (image : Image) (args : List (List Byte)) (sp : Word) :
    (m.load image args sp).2.profile = m.profile := by
  unfold load
  split
  · rfl
  · dsimp only
    split <;> rfl

/-! ## Interrupts -/

/-- Whether the next step ends by taking an interrupt. -/
def takesInterrupt (m : Machine) (host : Host σ) (h : σ) : Bool :=
  m.interruptPending && !(m.step host h).machine.interruptPending

theorem untaken_of_pending {m : Machine} {host : Host σ} {h : σ}
    (hp : (m.step host h).machine.interruptPending = m.interruptPending) :
    m.takesInterrupt host h = false := by
  unfold takesInterrupt
  rw [hp, Bool.and_not_self]

/-! ## Two runs -/

/-- A condition that every action of a run meets, in the machine and the host that it finds. -/
def Throughout (host : Host σ) (ok : Machine → σ → Action → Prop) (m : Machine) (h : σ) :
    List Action → Prop
  | [] => True
  | a :: acts => ok m h a ∧ Throughout host ok (m.act host h a).1 (m.act host h a).2 acts

namespace Throughout

variable {host : Host σ} {ok ok' : Machine → σ → Action → Prop} {m : Machine} {h : σ}
  {acts before : List Action}

theorem mono (hok : ∀ m h a, ok m h a → ok' m h a) (hm : m.Throughout host ok h acts) :
    m.Throughout host ok' h acts := by
  induction acts generalizing m h with
  | nil => trivial
  | cons a acts ih => exact ⟨hok m h a hm.1, ih hm.2⟩

theorem of_isPrefix (hm : m.Throughout host ok h acts) (hbefore : before <+: acts) :
    m.Throughout host ok h before := by
  obtain ⟨rest, rfl⟩ := hbefore
  induction before generalizing m h with
  | nil => trivial
  | cons a before ih => exact ⟨hm.1, ih hm.2⟩

end Throughout

/-- What two machines share before and after every action, they share after a run. -/
theorem run_related {host : Host σ} {R : Machine → Machine → Prop}
    {ok : Machine → σ → Action → Prop}
    (hstep : ∀ m n h, R m n → ok m h .step →
      (m.step host h).result = (n.step host h).result ∧
        (m.step host h).host = (n.step host h).host ∧
        R (m.step host h).machine (n.step host h).machine)
    (hinterrupt : ∀ m n, R m n → R m.raiseInterrupt n.raiseInterrupt)
    (hload : ∀ m n h image args sp, R m n → ok m h (.load image args sp) →
      R (m.load image args sp).2 (n.load image args sp).2)
    (acts : List Action) (m n : Machine) (h : σ) (hr : R m n)
    (hok : m.Throughout host ok h acts) :
    m.results host h acts = n.results host h acts ∧
      (m.run host h acts).2 = (n.run host h acts).2 ∧
      R (m.run host h acts).1 (n.run host h acts).1 := by
  induction acts generalizing m n h with
  | nil => exact ⟨rfl, rfl, hr⟩
  | cons a acts ih =>
      obtain ⟨hfirst, hrest⟩ := hok
      cases a with
      | step =>
          obtain ⟨hresult, hhost, hafter⟩ := hstep m n h hr hfirst
          obtain ⟨hresults, hothers⟩ := ih _ _ _ hafter hrest
          simp only [results, run, act, hresult, ← hhost]
          exact ⟨congrArg _ hresults, hothers⟩
      | interrupt => exact ih _ _ h (hinterrupt m n hr) hrest
      | load image args sp => exact ih _ _ h (hload m n h image args sp hr hfirst) hrest

end Machine

end TypedCore
