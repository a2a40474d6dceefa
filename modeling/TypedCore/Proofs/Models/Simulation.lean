import TypedCore.Proofs.Execution.Calls
import TypedCore.Proofs.Execution.Coupling
import TypedCore.Proofs.HostFaults.Missing
import TypedCore.Proofs.Modes.FallThrough

/-!
# Platforms that answer alike

Two machine models can differ and still answer most of what a program asks
alike. A `Simulation` is a relation between platforms together with the calls,
the status registers and the images on which related platforms agree, and stay
related. What has to be shown of a model is only this, one call at a time.

All the rest is shown here. A step of two machines that are equal up to related
platforms is a script for both, so as long as it asks for nothing else they take
it alike, down to the counters (`Simulation.step`), and so do two runs
(`Simulation.results`). The condition is on the first run alone.
-/

namespace TypedCore

/-! ## Status registers -/

/-- Whether a status register of a platform is not one of a window, so that it is one of the latch
or none at all. -/
def Platform.SharesCsr (p : Platform) (addr : Word) : Prop :=
  p.model = .windowed → addr.toNat < 0x80 ∨ 0x83 < addr.toNat

namespace Platform

variable {p q : Platform} {addr : Word}

theorem readCsr_shared (h : p.SharesCsr addr) (l : ExceptionLatch) (mode : Mode) :
    p.readCsr l mode addr = (l.read mode addr).bind fun
      | some result => .ok result
      | none => .error (.unknownCsr addr) := by
  unfold readCsr
  split
  case h_5 => rfl
  all_goals
    rename_i hmodel haddr
    have hother := h hmodel
    omega

theorem writeCsr_shared (h : p.SharesCsr addr) (l : ExceptionLatch) (value : Word) :
    p.writeCsr l addr value = (l.write addr value).bind fun
      | some latch => .ok (p, latch)
      | none => .error (.unknownCsr addr) := by
  unfold writeCsr
  split
  case h_5 => rfl
  all_goals
    rename_i hmodel haddr
    have hother := h hmodel
    omega

end Platform

/-- An access to a register of the latch does not look at the platform. -/
theorem CsrAccess.apply_shared (access : CsrAccess) (s : State) :
    ∃ result : Except HostFault State, ∀ p : Platform, p.SharesCsr access.addr →
      access.apply s p = result.map fun t => (t, p) := by
  have hnowhere : ∀ addr, Platform.nowhere.SharesCsr addr := fun _ => nofun
  refine ⟨(access.apply s .nowhere).map Prod.fst, fun p hp => ?_⟩
  cases access with
  | read rd addr =>
      have hp : p.SharesCsr addr := hp
      unfold apply
      dsimp only
      rw [Platform.readCsr_shared hp, Platform.readCsr_shared (hnowhere addr)]
      obtain _ | _ | ⟨value, latch⟩ := s.latch.read s.mode addr
      · rfl
      · rfl
      · dsimp only [bind, Except.bind]
        cases { s with latch }.writeReg rd ⟨value, (s.regs.read rd).type⟩ <;> rfl
  | write addr value =>
      have hp : p.SharesCsr addr := hp
      unfold apply
      dsimp only
      rw [Platform.writeCsr_shared hp, Platform.writeCsr_shared (hnowhere addr)]
      obtain _ | _ | latch := s.latch.write addr value <;> rfl

/-- Effects do not look at the platform, unless they ask for a window. -/
theorem Effects.apply_shared (e : Effects) (s : State) :
    ∃ result : Except HostFault State, ∀ p : Platform,
      (∀ access, e.csr = some access → p.SharesCsr access.addr) →
      e.apply s p = result.map fun t => (t, p) := by
  cases hc : e.cause.isRaised with
  | true => exact ⟨.ok _, fun p _ => apply_raised hc s p⟩
  | false =>
      cases hsettle : e.settle s with
      | error fault =>
          refine ⟨.error fault, fun p _ => ?_⟩
          rw [apply_quiet hc, hsettle]
          rfl
      | ok t =>
          cases hcsr : e.csr with
          | none =>
              refine ⟨.ok t, fun p _ => ?_⟩
              rw [apply_quiet hc, hsettle, hcsr]
              rfl
          | some access =>
              obtain ⟨result, hresult⟩ := access.apply_shared t
              refine ⟨result, fun p hp => ?_⟩
              rw [apply_quiet hc, hsettle, hcsr]
              exact hresult p (hp access rfl)

/-! ## Simulations -/

/-- A relation between platforms, with the calls, status registers and images on which related
platforms agree. -/
structure Simulation where
  platform : Platform → Platform → Prop
  call : MemCall → Prop
  csr : Word → Prop
  image : Image → List (List Byte) → Prop
  perform {p q : Platform} (c : MemCall) : platform p q → call c →
    (c.perform p).1 = (c.perform q).1 ∧ platform (c.perform p).2 (c.perform q).2
  sharesCsr {p q : Platform} {addr : Word} : platform p q → csr addr →
    p.SharesCsr addr ∧ q.SharesCsr addr
  place {p q : Platform} (im : Image) (args : List (List Byte)) : platform p q → image im args →
    (im.place args p.bus).1 = (im.place args q.bus).1 ∧
      platform { p with bus := (im.place args p.bus).2 } { q with bus := (im.place args q.bus).2 }
  exit {p q : Platform} : platform p q →
    p.bus.takeExit.1 = q.bus.takeExit.1 ∧
      platform { p with bus := p.bus.takeExit.2 } { q with bus := q.bus.takeExit.2 }

/-- The status register that the next instruction accesses. -/
def Machine.csr? (m : Machine) : Option Word := m.insn?.bind Insn.csr?

namespace Simulation

variable (S : Simulation) {σ : Type}

/-- Equal states on related platforms. -/
def coupling : Coupling where
  state := Eq
  platform := S.platform
  mode h := congrArg State.mode h
  commit h := congrArg State.commit h
  interrupt h := h ▸ rfl
  exit := S.exit

/-- Two machines that are equal up to related platforms and the trace. -/
structure Machines (m n : Machine) : Prop where
  coupled : S.coupling.Machines m n
  taken : m.profile.taken = n.profile.taken

/-- Whether the platforms of a simulation agree on all that an action asks for. -/
def Allows (host : Host σ) (m : Machine) (h : σ) : Action → Prop
  | .step => (∀ c ∈ m.calls host h, S.call c) ∧ ∀ addr ∈ m.csr?, S.csr addr
  | .interrupt => True
  | .load image args _ => S.image image args

variable {S} {m n : Machine} {host : Host σ} {h : σ}

theorem Machines.state (hm : S.Machines m n) : m.state = n.state := hm.coupled.core.state

theorem Machines.platform (hm : S.Machines m n) : S.platform m.platform n.platform :=
  hm.coupled.core.platform

theorem Machines.profile (hm : S.Machines m n) : m.profile = n.profile :=
  Profile.eq_of_untaken hm.coupled.profile hm.taken

/-! ### Parts of a step -/

theorem script {α : Type} (s : Script α) {p q : Platform} (hp : S.platform p q)
    (hok : ∀ c ∈ s.calls p, S.call c) :
    (s.run p).1 = (s.run q).1 ∧ S.platform (s.run p).2 (s.run q).2 :=
  s.run_alike S.perform hp hok

theorem execute {insn : Insn} {s : State} {p q : Platform} (hp : S.platform p q)
    (hok : ∀ c, insn.access? s = some c → S.call c) :
    S.coupling.Attempts (insn.execute s p) (insn.execute s q) := by
  cases haccess : insn.access? s with
  | none =>
      obtain ⟨result, hresult⟩ := Insn.execute_apart haccess
      rw [hresult, hresult]
      cases result with
      | error e => exact .fails e
      | ok effects => exact .asks effects hp
  | some c =>
      obtain ⟨f, ⟨after, hafter⟩, hf⟩ := Insn.execute_access haccess
      obtain ⟨hanswer, hrest⟩ := S.perform c hp (hok c haccess)
      rw [hf, hf, hafter, hafter, ← hanswer]
      exact .asks _ hrest

theorem apply {e : Effects} {p q : Platform} (hp : S.platform p q)
    (hcsr : ∀ access, e.csr = some access → S.csr access.addr) (s : State) :
    S.coupling.Applied (e.apply s p) (e.apply s q) := by
  obtain ⟨result, hresult⟩ := e.apply_shared s
  rw [hresult p fun access ha => (S.sharesCsr hp (hcsr access ha)).1,
    hresult q fun access ha => (S.sharesCsr hp (hcsr access ha)).2]
  cases result with
  | error fault => exact .fails fault
  | ok t => exact .done rfl hp

theorem respond {s : State} {environment : Environment} {p q : Platform} (hp : S.platform p q)
    (hok : ∀ c ∈ (Script.respond s environment host h).calls p, S.call c) :
    S.coupling.Responses (s.respond environment p host h) (s.respond environment q host h) := by
  obtain ⟨hsame, hplatform⟩ := script _ hp hok
  rw [Script.run_respond, Script.run_respond] at hsame
  rw [Script.run_respond, Script.run_respond] at hplatform
  obtain ⟨hresult, hrest⟩ := Prod.mk.inj hsame
  obtain ⟨hstate, hhost⟩ := Prod.mk.inj hrest
  exact ⟨hresult, hstate, hplatform, hhost⟩

/-! ### Steps -/

section Steps

variable (hm : S.Machines m n) (hok : ∀ c ∈ m.calls host h, S.call c)

include hm hok

theorem fetched : m.fetched.1 = n.fetched.1 ∧ S.platform m.fetched.2 n.fetched.2 := by
  have hfetch : ∀ c ∈ (Script.fetch m.state.mode m.state.pc.even).calls m.platform, S.call c :=
    fun c hc => hok c (List.mem_append_left _ (List.mem_append_left _ hc))
  have hrun := script _ hm.platform hfetch
  rw [Script.run_fetch, Script.run_fetch] at hrun
  unfold Machine.fetched
  rw [← hm.state]
  exact hrun

theorem begun : m.begun = n.begun := by
  unfold Machine.begun
  rw [hm.state, (fetched hm hok).1]

theorem attempt : S.coupling.Attempts m.attempt n.attempt := by
  have hbegun := begun hm hok
  obtain ⟨hsame, hplatform⟩ := fetched hm hok
  cases hmf : m.fetched with
  | mk result p =>
      cases hnf : n.fetched with
      | mk result' q =>
          rw [hmf, hnf] at hsame hplatform
          obtain rfl : result = result' := hsame
          unfold Machine.attempt
          rw [hmf, hnf, ← hbegun]
          cases result with
          | error fault => exact .asks _ hplatform
          | ok d =>
              refine execute hplatform fun c hc => ?_
              refine hok c (List.mem_append_left _ (List.mem_append_right _ ?_))
              unfold Machine.insn?
              rw [hmf]
              exact Option.mem_toList.mpr hc

theorem steps (hcsr : ∀ addr ∈ m.csr?, S.csr addr) : S.coupling.Steps m n host h where
  machines := hm.coupled
  mode := congrArg State.mode hm.state
  fetched := (fetched hm hok).1
  found := (fetched hm hok).2
  begun := begun hm hok
  attempt := attempt hm hok
  apply effects p q ha hb := by
    have hattempt := attempt hm hok
    rw [ha, hb] at hattempt
    cases hattempt with
    | asks effects hp =>
        rw [← begun hm hok]
        refine apply hp (fun access haccess => ?_) m.begun
        obtain ⟨insn, hinsn, hinsn'⟩ := m.insn?_of_csr ha haccess
        refine hcsr access.addr ?_
        unfold Machine.csr?
        rw [hinsn]
        exact Insn.csr?_of_csrAccess hinsn'
  respond effects p q ha hb hc := by
    have hattempt := attempt hm hok
    rw [ha, hb] at hattempt
    cases hattempt with
    | asks effects hp =>
        have hraised : m.raisedState effects = n.raisedState effects := by
          unfold Machine.raisedState
          rw [begun hm hok, hm.state]
        have henvironment : m.environment = n.environment := hm.coupled.core.environment
        rw [← hraised, ← henvironment]
        refine respond hp fun c hmem => hok c (List.mem_append_right _ ?_)
        rw [ha]
        simp only [hc, if_true]
        exact hmem

end Steps

/-- As long as a machine asks for nothing that the platforms do not agree on, both take the same
steps and count them alike. -/
theorem step (hm : S.Machines m n) (hok : S.Allows host m h .step) :
    (m.step host h).result = (n.step host h).result ∧
      (m.step host h).host = (n.step host h).host ∧
      S.Machines (m.step host h).machine (n.step host h).machine := by
  obtain ⟨hcalls, hcsr⟩ := hok
  obtain ⟨hresult, hhost, hafter⟩ := (steps hm hcalls hcsr).coupled
  refine ⟨hresult, hhost, hafter, ?_⟩
  have hstate : (m.step host h).machine.state = (n.step host h).machine.state := hafter.core.state
  have hpending : m.interruptPending = n.interruptPending := hm.coupled.core.interruptPending
  have hstill : (m.step host h).machine.interruptPending =
      (n.step host h).machine.interruptPending := hafter.core.interruptPending
  have hpath : m.committedPath host h = n.committedPath host h := by
    unfold Machine.committedPath Machine.takesInterrupt
    rw [hstate, hpending, hstill]
  have honward : m.onward = n.onward := by
    rw [← Machine.begun_nextPath, begun hm hcalls, Machine.begun_nextPath]
  have hdepartures : m.departures host h = n.departures host h := by
    unfold Machine.departures
    rw [hresult, hpath, honward]
  rw [Machine.step_taken, Machine.step_taken, hm.taken, hdepartures]

theorem load (hm : S.Machines m n) {image : Image} {args : List (List Byte)}
    (hok : S.image image args) (sp : Word) :
    (m.load image args sp).1 = (n.load image args sp).1 ∧
      S.Machines (m.load image args sp).2 (n.load image args sp).2 := by
  obtain ⟨hplaced, hplatform⟩ := S.place image args hm.platform hok
  have hcore := hm.coupled.core
  have hwith : ∀ {p q : Platform} (s : State), S.platform p q →
      S.Machines { m with state := s, platform := p } { n with state := s, platform := q } :=
    fun s hp => ⟨⟨⟨rfl, hp, hcore.environment, hcore.interruptPending⟩, hm.coupled.record,
      hm.coupled.profile⟩, hm.taken⟩
  unfold Machine.load
  rw [← hm.state]
  generalize image.place args m.platform.bus = here at hplaced hplatform
  generalize image.place args n.platform.bus = there at hplaced hplatform
  obtain ⟨placed, b⟩ := here
  obtain ⟨placed', c⟩ := there
  obtain rfl : placed = placed' := hplaced
  cases placed with
  | error fault => exact ⟨rfl, hm.state ▸ hwith m.state hplatform⟩
  | ok placed =>
      dsimp only
      cases (m.state.setPc image.entry).writeReg Machine.stackReg (.int sp) with
      | error e => exact ⟨rfl, hm.state ▸ hwith m.state hplatform⟩
      | ok s => exact ⟨rfl, hwith s hplatform⟩

/-- Two runs that the platforms cannot tell apart. -/
theorem results (hm : S.Machines m n) (acts : List Action)
    (hok : m.Throughout host (S.Allows host) h acts) :
    m.results host h acts = n.results host h acts ∧
      (m.run host h acts).2 = (n.run host h acts).2 ∧
      S.Machines (m.run host h acts).1 (n.run host h acts).1 := by
  refine Machine.run_related (R := S.Machines) (fun m n h hm hok => step hm hok)
    (fun m n hm => ?_) (fun m n h image args sp hm hok => (load hm hok sp).2) acts m n h hm hok
  have hcore := hm.coupled.core
  exact ⟨⟨⟨hcore.state, hcore.platform, hcore.environment, rfl⟩, hm.coupled.record,
    hm.coupled.profile⟩, hm.taken⟩

end Simulation

end TypedCore
