import TypedCore.Machine.Rehearsal
import TypedCore.Proofs.Execution.Run

/-!
# Who sets the windows

The windows change only when an instruction writes one of their status registers
(`step_windows`). There is no check of the mode on the way: a task that writes
such a register sets the window like the scheduler would. What holds is that
nothing else in task mode can touch them. So if no task does write them, a run
ends with the windows that the scheduler's own writes add up to.

Only environments with a scheduler are looked at. In the user environment there
is nobody that the windows could be protected for.
-/

namespace TypedCore

/-! ## Keeping the windows -/

/-- Two platforms of one model with the same windows. -/
structure Platform.SameWindows (p q : Platform) : Prop where
  model : q.model = p.model
  windows : q.windows = p.windows

namespace Platform

namespace SameWindows

variable {p q r : Platform}

theorem refl (p : Platform) : p.SameWindows p := ⟨rfl, rfl⟩

theorem trans (h₁ : p.SameWindows q) (h₂ : q.SameWindows r) : p.SameWindows r :=
  ⟨h₂.model.trans h₁.model, h₂.windows.trans h₁.windows⟩

theorem ofContents (h : p.SameContents q) : p.SameWindows q :=
  ⟨h.model, by unfold Platform.windows; rw [h.inst, h.data]⟩

end SameWindows

theorem load_sameWindows (p : Platform) (mode : Mode) (addr : Word) (width : Width)
    (access : Access) : p.SameWindows (p.load mode addr width access).2 := by
  unfold load
  split
  · split
    · exact .refl p
    · split <;> exact ⟨rfl, rfl⟩
  · exact .refl p

theorem write_sameWindows (p : Platform) (mode : Mode) (addr : Word) (width : Width)
    (value : Word) : p.SameWindows (p.write mode addr width value).2 := by
  unfold write
  split
  · split
    · exact .refl p
    · split <;> exact ⟨rfl, rfl⟩
  · exact .refl p

end Platform

theorem Insn.execute_sameWindows {insn : Insn} {s : State} {p q : Platform} {effects : Effects}
    (h : insn.execute s p = .ok (effects, q)) : p.SameWindows q := by
  cases insn.behaviour s with
  | unbuilt e hcsr hex => rw [hex] at h; cases h
  | silent effects' hcsr haddr hex =>
      rw [hex] at h
      cases h
      exact .refl p
  | load addr width use hcsr huse hex =>
      rw [hex] at h
      have hl := p.load_sameWindows s.mode addr width .read
      rcases Platform.loadThen_cases (Except.ok.inj h) with ⟨v, hread, -⟩ | ⟨fault, hread, -⟩
      · rw [show p.load s.mode addr width .read = _ from hread] at hl
        exact hl
      · rw [show p.load s.mode addr width .read = _ from hread] at hl
        exact hl
  | store addr width value hcsr hex =>
      rw [hex] at h
      have hw := p.write_sameWindows s.mode addr width (width.truncate value)
      rcases Platform.storeLow_cases (Except.ok.inj h) with ⟨hwrite, -⟩ | ⟨fault, hwrite, -⟩
      · rw [hwrite] at hw
        exact hw
      · rw [hwrite] at hw
        exact hw

/-! ## Writes of a window -/

/-- The status register of a window that an instruction writes, and the value it gets. -/
def Insn.windowWrite? (regs : RegFile) : Insn → Option (Word × Word)
  | csrWrite rd addr =>
    if 0x80 ≤ addr.toNat ∧ addr.toNat ≤ 0x83 then some (addr, (regs.read rd).value) else none
  | _ => none

/-- The windows after such a write, if there is one. -/
def Windows.after (w : Windows) : Option (Word × Word) → Windows
  | some (addr, value) => w.write addr value
  | none => w

/-- The windows after several writes. -/
def Windows.afterAll (w : Windows) (writes : List (Word × Word)) : Windows :=
  writes.foldl (fun w (addr, value) => w.write addr value) w

theorem Effects.apply_windows {e : Effects} {s t : State} {p q : Platform}
    (h : e.apply s p = .ok (t, q)) :
    p.SameWindows q ∨ ∃ addr value, e.csr = some (.write addr value) ∧
      (0x80 ≤ addr.toNat ∧ addr.toNat ≤ 0x83) ∧ q = p.withWindows (p.windows.write addr value) := by
  cases hc : e.cause.isRaised with
  | true =>
      rw [apply_raised hc] at h
      obtain ⟨-, rfl⟩ := Prod.mk.inj (Except.ok.inj h)
      exact .inl (.refl p)
  | false =>
      obtain ⟨u, -, h⟩ := apply_ok hc h
      cases hcsr : e.csr with
      | none =>
          rw [hcsr] at h
          obtain ⟨-, rfl⟩ := h
          exact .inl (.refl q)
      | some access =>
          rw [hcsr] at h
          cases access with
          | read rd addr =>
              obtain ⟨rfl, -⟩ := CsrAccess.apply_read h
              exact .inl (.refl q)
          | write addr value =>
              obtain ⟨-, hwrite⟩ := CsrAccess.apply_write h
              rcases Platform.writeCsr_cases hwrite with ⟨hlow, hhigh, -, hq⟩ | ⟨rfl, -⟩
              · exact .inr ⟨addr, value, rfl, ⟨hlow, hhigh⟩, hq⟩
              · exact .inl (.refl q)

/-! ## Steps -/

namespace Machine

variable {σ : Type} {m : Machine} {effects : Effects} {p : Platform} {host : Host σ} {h : σ}

/-- The window register that the next instruction writes, and the value it gets. -/
def windowWrite? (m : Machine) : Option (Word × Word) :=
  m.insn?.bind (Insn.windowWrite? m.state.regs)

theorem fetched_sameWindows (m : Machine) : m.platform.SameWindows m.fetched.2 := by
  obtain ⟨i, hi⟩ := Platform.fetch_snd m.platform m.state.mode m.state.pc.even
  exact .ofContents ((show m.fetched.2 = _ from hi) ▸ .usedLast m.platform i)

theorem attempt_sameWindows (ha : m.attempt = .ok (effects, p)) : m.platform.SameWindows p := by
  have hfetched := m.fetched_sameWindows
  unfold attempt at ha
  split at ha
  · rename_i fault q hf
    obtain ⟨-, rfl⟩ := Prod.mk.inj (Except.ok.inj ha)
    rw [hf] at hfetched
    exact hfetched
  · rename_i d q hf
    rw [hf] at hfetched
    exact hfetched.trans (Insn.execute_sameWindows ha)

/-- An instruction that writes a window is that write and nothing else. -/
theorem attempt_windowWrite {addr value : Word} (hw : m.windowWrite? = some (addr, value)) :
    (0x80 ≤ addr.toNat ∧ addr.toNat ≤ 0x83) ∧
      m.attempt = .ok ({ csr := some (.write addr value) }, m.fetched.2) := by
  obtain ⟨insn, hi, hwrite⟩ := Option.bind_eq_some_iff.mp hw
  unfold Insn.windowWrite? at hwrite
  split at hwrite
  · split at hwrite
    · rename_i rd addr' haddr
      obtain ⟨rfl, rfl⟩ := Prod.mk.inj (Option.some.inj hwrite)
      exact ⟨haddr, m.attempt_csr hi rfl⟩
    · cases hwrite
  · cases hwrite

theorem windowWrite?_of_csr {addr value : Word} (ha : m.attempt = .ok (effects, p))
    (hcsr : effects.csr = some (.write addr value))
    (haddr : 0x80 ≤ addr.toNat ∧ addr.toNat ≤ 0x83) : m.windowWrite? = some (addr, value) := by
  obtain ⟨insn, hi, haccess⟩ := m.insn?_of_csr ha hcsr
  obtain ⟨rd, rfl, rfl⟩ := Insn.csrAccess_write haccess
  unfold windowWrite?
  rw [hi]
  exact if_pos haddr

/-- On the windowed model, a write of a window is never refused. -/
theorem apply_windowWrite {addr v : Word} (hm : p.model = .windowed)
    (haddr : 0x80 ≤ addr.toNat ∧ addr.toNat ≤ 0x83) (s : State) :
    ({ csr := some (.write addr v) } : Effects).apply s p =
      .ok (s, p.withWindows (p.windows.write addr v)) := by
  refine CsrAccess.apply_write_ok ?_
  rw [Platform.writeCsr_windowed hm, if_pos haddr]

/-- A step sets the window that its instruction writes, and no other. -/
theorem step_windows (hm : m.platform.model = .windowed) (hu : m.environment.isUser = false)
    (host : Host σ) (h : σ) :
    (m.step host h).machine.platform.model = .windowed ∧
      (m.step host h).machine.platform.windows = m.platform.windows.after m.windowWrite? := by
  cases hw : m.windowWrite? with
  | some write =>
      obtain ⟨addr, value⟩ := write
      obtain ⟨haddr, ha⟩ := attempt_windowWrite hw
      have hf := m.fetched_sameWindows
      have happly := apply_windowWrite (v := value) (hf.model.trans hm) haddr m.begun
      obtain ⟨x, d, hends, hl⟩ := step_retired ha rfl happly host h
      have hd := Platform.SameWindows.ofContents hends.sameContents
      rw [hl.platform]
      refine ⟨hd.model.trans (hf.model.trans hm), hd.windows.trans ?_⟩
      change m.fetched.2.windows.write addr value = _
      rw [hf.windows]
      rfl
  | none =>
      suffices hs : m.platform.SameWindows (m.step host h).machine.platform from
        ⟨hs.model.trans hm, hs.windows⟩
      cases m.step_goes host h with
      | unbuilt e ha hl =>
          rw [hl.platform]
          exact m.fetched_sameWindows
      | refused effects p e ha hc happly hl =>
          rw [hl.platform]
          exact attempt_sameWindows ha
      | raised effects p ha hc hf =>
          have hp := Platform.SameWindows.ofContents hf.sameContents
          rw [State.respond_platform hu] at hp
          exact (attempt_sameWindows ha).trans hp
      | retired effects p s q ha hc happly hr =>
          have hq := Platform.SameWindows.ofContents hr.sameContents
          rcases Effects.apply_windows happly with hpq | ⟨addr, value, hcsr, haddr, -⟩
          · exact ((attempt_sameWindows ha).trans hpq).trans hq
          · rw [windowWrite?_of_csr ha hcsr haddr] at hw
            cases hw

/-! ## Runs -/

/-- The writes of windows that an action makes in scheduler mode: at most one. -/
def schedulerWrites (m : Machine) : Action → List (Word × Word)
  | .step => if m.state.mode = .scheduler then m.windowWrite?.toList else []
  | _ => []

/-- The writes of windows that a run makes in scheduler mode, in order. -/
def allSchedulerWrites (host : Host σ) (m : Machine) (h : σ) : List Action → List (Word × Word)
  | [] => []
  | a :: acts =>
    m.schedulerWrites a ++ allSchedulerWrites host (m.act host h a).1 (m.act host h a).2 acts

/-- No step of a run that starts in task mode writes a window. -/
def TasksSpareWindows (host : Host σ) (m : Machine) (h : σ) : List Action → Prop
  | [] => True
  | a :: acts =>
    (a = .step → m.state.mode = .task → m.windowWrite? = none) ∧
      TasksSpareWindows host (m.act host h a).1 (m.act host h a).2 acts

theorem load_platform (m : Machine) (image : Image) (args : List (List Byte)) (sp : Word) :
    m.platform.SameWindows (m.load image args sp).2.platform ∧
      (m.load image args sp).2.environment = m.environment := by
  unfold load
  split
  · exact ⟨⟨rfl, rfl⟩, rfl⟩
  · dsimp only
    split <;> exact ⟨⟨rfl, rfl⟩, rfl⟩

theorem act_windows (hm : m.platform.model = .windowed) (hu : m.environment.isUser = false)
    (host : Host σ) (h : σ) {a : Action}
    (hspare : a = .step → m.state.mode = .task → m.windowWrite? = none) :
    (m.act host h a).1.platform.model = .windowed ∧
      (m.act host h a).1.environment.isUser = false ∧
      (m.act host h a).1.platform.windows = m.platform.windows.afterAll (m.schedulerWrites a) := by
  cases a with
  | step =>
      obtain ⟨hmodel, hwindows⟩ := step_windows hm hu host h
      refine ⟨hmodel, by rw [act, step_environment]; exact hu, hwindows.trans ?_⟩
      unfold schedulerWrites
      cases hmode : m.state.mode with
      | task => rw [hspare rfl hmode]; rfl
      | scheduler => cases m.windowWrite? <;> rfl
  | interrupt => exact ⟨hm, hu, rfl⟩
  | load image args sp =>
      obtain ⟨hwindows, henv⟩ := m.load_platform image args sp
      exact ⟨hwindows.model.trans hm, by rw [act, henv]; exact hu, hwindows.windows⟩

/-- If no task writes a window, a run ends with the windows that the scheduler's writes make
of those it began with. -/
theorem run_windows {m : Machine} {h : σ} (acts : List Action) (hm : m.platform.model = .windowed)
    (hu : m.environment.isUser = false) (hspare : m.TasksSpareWindows host h acts) :
    (m.run host h acts).1.platform.windows =
      m.platform.windows.afterAll (m.allSchedulerWrites host h acts) := by
  induction acts generalizing m h with
  | nil => rfl
  | cons a acts ih =>
      obtain ⟨hfirst, hrest⟩ := hspare
      obtain ⟨hm', hu', hwindows⟩ := act_windows hm hu host h hfirst
      rw [run, ih hm' hu' hrest, hwindows, allSchedulerWrites]
      exact (List.foldl_append ..).symm

/-- Task mode touches a window only by a write of its status register, and then it sets what
the register holds; and where no task does that, the windows are the scheduler's work. -/
theorem windows_of_scheduler (m : Machine) (host : Host σ) (h : σ)
    (hm : m.platform.model = .windowed) (hu : m.environment.isUser = false) :
    (m.state.mode = .task → (m.step host h).machine.platform.windows =
      match m.windowWrite? with
      | some (addr, value) => m.platform.windows.write addr value
      | none => m.platform.windows) ∧
    ∀ acts, m.TasksSpareWindows host h acts →
      (m.run host h acts).1.platform.windows =
        m.platform.windows.afterAll (m.allSchedulerWrites host h acts) := by
  refine ⟨?_, ?_⟩
  · intro _
    rw [(step_windows hm hu host h).2]
    rfl
  · intro acts hspare
    exact run_windows acts hm hu hspare

/-- A scheduler about to move the data window to `$r4` and to enter a task that does nothing. -/
def warden : Machine where
  state :=
    { regs := RegFile.set {} 4 (.int 0x8000), mode := .scheduler, nextMode := .scheduler
      tpc := 0x20, nextTpc := 0x20 }
  platform :=
    { model := .windowed
      bus := { devices := [.ram (Ram.setBytes (Ram.setBytes ⟨0, 64, ∅⟩ 0
        [0xf4, 0xf1, 0x82, 0, 0, 0, 0x08, 0]) 0x20 [0x08, 0])] } }
  environment := .operating

/-- A task about to open its data window, of one page, as far as `$r4` says. -/
def intruder : Machine where
  state := { regs := RegFile.set {} 4 (.int 0x0fffffff) }
  platform :=
    { model := .windowed
      bus := { devices := [.ram (Ram.setBytes ⟨0, 64, ∅⟩ 0 [0xf4, 0xf1, 0x83, 0, 0, 0])] }
      data := ⟨0, 0⟩ }
  environment := .operating

theorem windows_of_scheduler_warden :
    (warden.run Host.noting none [.step, .step, .step]).1.state.mode = .task ∧
      (warden.run Host.noting none [.step, .step, .step]).1.platform.windows.data.base = 0x8000 ∧
      (intruder.step Host.noting none).machine.platform.windows.data.limit = 0x0fffffff := by
  have hspare : warden.TasksSpareWindows Host.noting none [.step, .step, .step] := by
    refine ⟨?_, ?_, ?_, trivial⟩
    · intro _ hmode
      cases hmode
    · intro _ _
      decide +kernel
    · intro _ _
      decide +kernel
  have hrun := (windows_of_scheduler warden Host.noting none rfl rfl).2 _ hspare
  have hstep := (windows_of_scheduler intruder Host.noting none rfl rfl).1 rfl
  have hmode : (warden.run Host.noting none [.step, .step, .step]).1.state.mode = .task := by
    decide +kernel
  refine ⟨hmode, ?_, ?_⟩
  · rw [hrun]
    decide +kernel
  · rw [hstep]
    decide +kernel

/-- Windows do not belong to the scheduler alone. -/
theorem task_can_open_window :
    ¬ ∀ m : Machine, m.platform.model = .windowed → m.environment.isUser = false →
      m.state.mode = .task →
        (m.step Host.noting none).machine.platform.windows = m.platform.windows := by
  intro hkept
  have hdata := congrArg (fun w : Windows => w.data.limit) (hkept intruder rfl rfl rfl)
  have hopened : (intruder.step Host.noting none).machine.platform.windows.data.limit =
      0x0fffffff := by decide +kernel
  rw [hopened] at hdata
  cases hdata

end Machine

end TypedCore
