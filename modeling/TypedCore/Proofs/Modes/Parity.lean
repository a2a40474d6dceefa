import TypedCore.Proofs.Execution.Coupling
import TypedCore.Proofs.Modes.FallThrough

/-!
# Bit 0 of program counters

A program counter keeps whatever was jumped to, and bit 0 is only cleared where
the counter is used. `State.evened` is the state with that bit cleared
everywhere, and two states with the same `evened` view differ in nothing else.
They take their steps side by side: this is the coupling `parity`.

There is one exception. The instruction that reads the task's program counter
reads it as it is, so in task mode it tells an odd program counter from an even
one, while its sibling that reads the active one does not. Steps are compared
without it; the last theorem of the module shows what it does.

The paths of two coupled machines can differ, and with them the count of taken
instructions: a scheduler that sets `tpc` to the value it has leads onward, and
one that sets it to the same address with bit 0 set does not. After one step from
states that only differ in the active program counter, that count is the same
too (`Machine.departures_withPc`): the instruction falls through to the same
address, and the one reaction that puts bit 0 back leads elsewhere anyhow.
-/

namespace TypedCore

namespace State

variable {s t : State}

/-- The state with bit 0 cleared in every program counter. -/
def evened (s : State) : State :=
  { s with
    tpc := s.tpc.even
    spc := s.spc.even
    nextTpc := s.nextTpc.even
    nextSpc := s.nextSpc.even }

theorem showsRegs_evened : ShowsRegs evened := ⟨fun _ => rfl, fun _ => rfl, fun _ _ _ => rfl⟩

theorem even_pc_of_evened (h : s.evened = t.evened) : s.pc.even = t.pc.even := by
  have hmode : s.mode = t.mode := (congrArg State.mode h :)
  have htpc : s.tpc.even = t.tpc.even := (congrArg State.tpc h :)
  have hspc : s.spc.even = t.spc.even := (congrArg State.spc h :)
  unfold pc
  rw [hmode]
  cases t.mode with
  | task => exact htpc
  | scheduler => exact hspc

theorem evened_beginInstruction (s : State) (len : Nat) :
    (s.evened.beginInstruction len).evened = (s.beginInstruction len).evened := by
  unfold beginInstruction fallThrough pc evened
  cases s.mode <;> simp <;> rfl

theorem evened_setPc (s : State) (pc : Word) :
    (s.evened.setPc pc).evened = (s.setPc pc).evened := by
  unfold setPc evened
  cases s.mode <;> simp

/-- The state with the active program counter and its shadow moved. -/
def withPc (s : State) (pc shadow : Word) : State :=
  match s.mode with
  | .task => { s with tpc := pc, nextTpc := shadow }
  | .scheduler => { s with spc := pc, nextSpc := shadow }

theorem evened_withPc {pc shadow : Word} (hpc : pc.even = s.pc.even)
    (hshadow : shadow.even = s.nextPc.even) : (s.withPc pc shadow).evened = s.evened := by
  unfold State.pc at hpc
  unfold nextPc at hshadow
  unfold withPc evened
  cases hmode : s.mode <;> rw [hmode] at hpc hshadow <;> simp [hpc, hshadow]

end State

/-! ## Instructions -/

namespace Insn

/-- Whether an instruction reads the task's program counter as it is. -/
def readsTaskPc : Insn → Bool
  | readPc _ .task => true
  | _ => false

theorem execute_congr {insn : Insn} {s t : State} (hregs : s.regs = t.regs)
    (hmode : s.mode = t.mode) (hpc : s.pc.even = t.pc.even)
    (htpc : insn.readsTaskPc = true → s.tpc = t.tpc) (p : Platform) :
    insn.execute s p = insn.execute t p := by
  cases insn with
  | readPc rd source =>
      cases source with
      | active => simp only [execute, hpc]
      | task => simp only [execute, htpc rfl]
  | memory op reg mem => simp only [execute, executeMemory, hregs, hmode]
  | _ => simp only [execute, hregs, hmode, hpc]

end Insn

/-! ## Effects -/

/-- The outcome of applying effects, with bit 0 cleared. -/
def evenedOutcome (r : Except HostFault (State × Platform)) : Except HostFault (State × Platform) :=
  r.map fun x => (x.1.evened, x.2)

namespace CsrAccess

theorem apply_read_eq (rd : Nat) (addr : Word) (s : State) (p : Platform) :
    (read rd addr).apply s p = (p.readCsr s.latch s.mode addr).bind fun r =>
      (({ s with latch := r.2 } : State).writeReg rd ⟨r.1, (s.regs.read rd).type⟩).map fun t =>
        (t, p) := by
  unfold apply
  dsimp only
  cases p.readCsr s.latch s.mode addr with
  | error e => rfl
  | ok r =>
      simp only [bind, Except.bind]
      cases ({ s with latch := r.2 } : State).writeReg rd ⟨r.1, (s.regs.read rd).type⟩ <;> rfl

theorem apply_evened (access : CsrAccess) (s : State) (p : Platform) :
    access.apply s.evened p = evenedOutcome (access.apply s p) := by
  cases access with
  | read rd addr =>
      rw [apply_read_eq, apply_read_eq]
      show (p.readCsr s.latch s.mode addr).bind _ = _
      cases p.readCsr s.latch s.mode addr with
      | error e => rfl
      | ok r =>
          have hwrite := State.showsRegs_evened.writeReg { s with latch := r.2 } rd
            ⟨r.1, (s.regs.read rd).type⟩
          refine (congrArg (Except.map fun t => (t, p)) hwrite).trans ?_
          dsimp only [Except.bind]
          cases ({ s with latch := r.2 } : State).writeReg rd ⟨r.1, (s.regs.read rd).type⟩ <;> rfl
  | write addr value =>
      unfold apply
      dsimp only
      rw [show s.evened.latch = s.latch from rfl]
      cases p.writeCsr s.latch addr value <;> rfl

end CsrAccess

namespace Effects

variable {e : Effects} {s t : State} {p q : Platform}

theorem evened_shadowed (e : Effects) (s : State) :
    (e.shadowed s.evened).evened = (e.shadowed s).evened := by
  unfold shadowed State.setNextPc State.evened
  cases e.nextPc <;> cases e.nextTpc <;> cases s.mode <;> simp

theorem settle_eq_map (e : Effects) (s : State) :
    e.settle s =
      (e.writes.foldlM (fun (s : State) (w : Nat × TypedWord) => s.writeReg w.1 w.2) s).map
        e.shadowed := by
  unfold settle
  cases e.writes.foldlM (fun (s : State) (w : Nat × TypedWord) => s.writeReg w.1 w.2) s <;> rfl

/-- Two outcomes with the same view are the same fault, or states with the same view. -/
theorem settle_evened (e : Effects) (s : State) :
    (e.settle s.evened).map State.evened = (e.settle s).map State.evened := by
  rw [settle_eq_map, settle_eq_map, State.showsRegs_evened.writeRegs]
  cases e.writes.foldlM (fun (s : State) (w : Nat × TypedWord) => s.writeReg w.1 w.2) s with
  | error fault => rfl
  | ok t => exact congrArg Except.ok (e.evened_shadowed t)

/-- What comes after the registers and the shadow looks at neither program counter. -/
theorem access_evened (e : Effects) (s : State) (p : Platform) :
    (match e.csr with
      | some access => access.apply s.evened p
      | none => .ok (s.evened, p)) =
      evenedOutcome (match e.csr with
        | some access => access.apply s p
        | none => .ok (s, p)) := by
  cases e.csr with
  | some access => exact access.apply_evened s p
  | none => rfl

theorem apply_evened (e : Effects) (s : State) (p : Platform) :
    evenedOutcome (e.apply s.evened p) = evenedOutcome (e.apply s p) := by
  cases hc : e.cause.isRaised with
  | true =>
      rw [apply_raised hc, apply_raised hc]
      simp [evenedOutcome, Except.map, State.evened]
  | false =>
      rw [apply_quiet hc, apply_quiet hc]
      have hsettle := e.settle_evened s
      cases ha : e.settle s.evened with
      | error fault =>
          cases hb : e.settle s with
          | ok u => rw [ha, hb] at hsettle; cases hsettle
          | error fault' => rw [ha, hb] at hsettle; cases hsettle; rfl
      | ok t =>
          cases hb : e.settle s with
          | error fault => rw [ha, hb] at hsettle; cases hsettle
          | ok u =>
              rw [ha, hb] at hsettle
              have htu : t.evened = u.evened := Except.ok.inj hsettle
              have ht := e.access_evened t p
              rw [htu, e.access_evened u p] at ht
              exact ht.symm

end Effects

/-! ## Reactions -/

/-- A reaction with bit 0 cleared. -/
def Response.evened {σ : Type} (r : Response σ) : Response σ := { r with state := r.state.evened }

namespace State

variable {σ : Type}

theorem deliver_evened (s : State) (p : Platform) (reply : SyscallReply) :
    s.evened.deliver p reply =
      (s.deliver p reply).map fun r => (r.1, r.2.1.evened, r.2.2) := by
  cases reply with
  | halt x => rfl
  | value v =>
      unfold deliver
      dsimp only
      rw [showsRegs_evened.writeReg]
      cases s.writeReg resultReg (.int v) <;> rfl
  | failed ret errno =>
      unfold deliver
      dsimp only
      rw [showsRegs_evened.writeReg]
      cases s.writeReg resultReg (.int ret) with
      | error e => rfl
      | ok t =>
          simp only [Except.map, bind, Except.bind, showsRegs_evened.regs]
          split
          · rfl
          · split <;> rfl

theorem delivered_evened (s : State) (p : Platform) (reply : SyscallReply) (h : σ) :
    (s.evened.delivered p reply h).evened = (s.delivered p reply h).evened := by
  unfold delivered
  rw [deliver_evened]
  cases s.deliver p reply <;> simp [Except.map, Response.evened, evened]

theorem syscall_evened (s : State) (p : Platform) (host : Host σ) (h : σ) :
    (s.evened.syscall p host h).evened = (s.syscall p host h).evened := by
  have htpc : s.evened.tpc.even = s.tpc.even := Word.even_even s.tpc
  cases hf : p.fetchHalf .task (s.tpc.even + 2) with
  | mk fetched q =>
      cases fetched with
      | error fault =>
          rw [syscall_unfetched hf, syscall_unfetched (htpc ▸ hf)]
          simp [Response.evened, evened]
      | ok number =>
          -- Behind the number is an even address, so there is nothing left to clear.
          have hbehind : ({ s.evened with nextTpc := s.tpc.even + 4 } : State) =
              State.evened { s with nextTpc := s.tpc.even + 4 } := by
            unfold evened
            rw [Word.even_add _ rfl]
          rw [syscall_fetched hf, syscall_fetched (htpc ▸ hf), htpc, hbehind,
            show s.evened.callArgs = s.callArgs from rfl]
          obtain ⟨e | reply, p', h'⟩ := q.service host (Syscall.ofNumber? number.toNat) s.callArgs h
          · simp [Response.evened, evened]
          · exact delivered_evened _ p' reply h'

theorem respond_evened (s : State) (environment : Environment) (p : Platform) (host : Host σ)
    (h : σ) :
    (s.evened.respond environment p host h).evened = (s.respond environment p host h).evened := by
  have hcause : s.evened.cause = s.cause := rfl
  have hmode : s.evened.mode = s.mode := rfl
  unfold respond
  rw [hcause, hmode]
  split
  · split
    · exact syscall_evened s p host h
    · simp [Response.evened, evened]
  · split <;> simp [Response.evened, evened]

end State

/-! ## The coupling -/

/-- States that differ at most in bit 0 of program counters, and the same platform. -/
def parity : Coupling where
  state s t := s.evened = t.evened
  platform := Eq
  mode h := (congrArg State.mode h :)
  commit h := congrArg State.commit h
  interrupt h := congrArg (fun s : State =>
    { s with cause := .hardwareInterrupt, faultAddr := none }.setMode .scheduler) h
  exit h := h ▸ ⟨rfl, rfl⟩

namespace Machine

variable {σ : Type} {m n : Machine} {host : Host σ} {h : σ}

/-- Whether the next instruction reads the task's program counter as it is. -/
def ReadsTaskPc (m : Machine) : Prop := ∃ insn, m.insn? = some insn ∧ insn.readsTaskPc = true

theorem fetched_parity (hp : parity.Machines m n) : m.fetched = n.fetched := by
  have hmode : m.state.mode = n.state.mode := parity.mode hp.core.state
  have hpc : m.state.pc.even = n.state.pc.even := State.even_pc_of_evened hp.core.state
  have hplatform : m.platform = n.platform := hp.core.platform
  unfold fetched
  rw [hplatform, hmode, hpc]

theorem begun_parity (hp : parity.Machines m n) : m.begun.evened = n.begun.evened := by
  have hstate : m.state.evened = n.state.evened := hp.core.state
  unfold begun
  rw [fetched_parity hp, ← State.evened_beginInstruction, hstate, State.evened_beginInstruction]

theorem attempt_parity (hp : parity.Machines m n)
    (hpc : m.ReadsTaskPc → m.state.tpc = n.state.tpc) : m.attempt = n.attempt := by
  have hbegun := begun_parity hp
  have hf := fetched_parity hp
  unfold attempt
  rw [← hf]
  cases hfetched : m.fetched with
  | mk result p =>
      cases result with
      | error fault => rfl
      | ok d =>
          have hregs : m.begun.regs = n.begun.regs := (congrArg State.regs hbegun :)
          have hmode : m.begun.mode = n.begun.mode := (congrArg State.mode hbegun :)
          refine Insn.execute_congr hregs hmode (State.even_pc_of_evened hbegun)
            (fun hreads => ?_) p
          refine hpc ⟨d.insn, ?_, hreads⟩
          unfold insn?
          rw [hfetched]
          rfl

theorem applied_parity {effects : Effects} {s t : State} {p : Platform}
    (hst : s.evened = t.evened) :
    parity.Applied (effects.apply s p) (effects.apply t p) := by
  have hsame : evenedOutcome (effects.apply s p) = evenedOutcome (effects.apply t p) := by
    rw [← effects.apply_evened s, hst, effects.apply_evened t]
  cases hs : effects.apply s p with
  | error e =>
      cases ht : effects.apply t p with
      | error e' => rw [hs, ht] at hsame; cases hsame; exact .fails e
      | ok result => rw [hs, ht] at hsame; cases hsame
  | ok result =>
      cases ht : effects.apply t p with
      | error e => rw [hs, ht] at hsame; cases hsame
      | ok result' =>
          rw [hs, ht] at hsame
          obtain ⟨hstate, hplatform⟩ := Prod.mk.inj (Except.ok.inj hsame)
          exact .done hstate hplatform

theorem respond_parity {s t : State} (hst : s.evened = t.evened) (environment : Environment)
    (p : Platform) (host : Host σ) (h : σ) :
    parity.Responses (s.respond environment p host h) (t.respond environment p host h) := by
  have hsame : (s.respond environment p host h).evened =
      (t.respond environment p host h).evened := by
    rw [← State.respond_evened s, hst, State.respond_evened t]
  exact ⟨(congrArg Response.result hsame :), (congrArg Response.state hsame :),
    (congrArg Response.platform hsame :), (congrArg Response.host hsame :)⟩

theorem raisedState_parity (hp : parity.Machines m n) (effects : Effects) :
    (m.raisedState effects).evened = (n.raisedState effects).evened := by
  have hbegun := begun_parity hp
  have htpc : m.state.tpc.even = n.state.tpc.even := (congrArg State.tpc hp.core.state :)
  have hset := congrArg (fun s : State => { s with
    cause := effects.cause, faultAddr := effects.faultAddr, nextTpc := n.state.tpc.even }) hbegun
  unfold raisedState
  refine Eq.trans ?_ hset
  unfold State.evened
  rw [htpc]

theorem attempted_parity (hp : parity.Machines m n)
    (hpc : m.ReadsTaskPc → m.state.tpc = n.state.tpc) {effects effects' : Effects}
    {p q : Platform} (ha : m.attempt = .ok (effects, p)) (hb : n.attempt = .ok (effects', q)) :
    effects = effects' ∧ p = q := by
  rw [attempt_parity hp hpc, hb] at ha
  obtain ⟨rfl, rfl⟩ := Prod.mk.inj (Except.ok.inj ha)
  exact ⟨rfl, rfl⟩

theorem steps_parity (hp : parity.Machines m n)
    (hpc : m.ReadsTaskPc → m.state.tpc = n.state.tpc) (host : Host σ) (h : σ) :
    parity.Steps m n host h where
  machines := hp
  mode := parity.mode hp.core.state
  fetched := congrArg Prod.fst (fetched_parity hp)
  found := congrArg Prod.snd (fetched_parity hp)
  begun := begun_parity hp
  attempt := by
    rw [attempt_parity hp hpc]
    cases n.attempt with
    | error e => exact .fails e
    | ok result => exact .asks result.1 rfl
  apply effects p q ha hb := by
    obtain ⟨-, rfl⟩ := attempted_parity hp hpc ha hb
    exact applied_parity (begun_parity hp)
  respond effects p q ha hb hc := by
    obtain ⟨-, rfl⟩ := attempted_parity hp hpc ha hb
    have henvironment : m.environment = n.environment := hp.core.environment
    rw [henvironment]
    exact respond_parity (raisedState_parity hp effects) n.environment p host h

/-! ## One step from the other parity -/

section WithPc

variable {pc shadow : Word}

theorem parity_withPc (hpc : pc.even = m.state.pc.even)
    (hshadow : shadow.even = m.state.nextPc.even) :
    parity.Machines m { m with state := m.state.withPc pc shadow } where
  core := ⟨(State.evened_withPc hpc hshadow).symm, rfl, rfl, rfl⟩
  record := rfl
  profile := rfl

theorem onward_withPc (hpc : pc.even = m.state.pc.even)
    (hshadow : shadow.even = m.state.nextPc.even) :
    ({ m with state := m.state.withPc pc shadow } : Machine).onward = m.onward := by
  have hf := fetched_parity (parity_withPc hpc hshadow)
  have heven := State.even_pc_of_evened (State.evened_withPc hpc hshadow)
  unfold onward
  rw [← hf, heven]
  unfold State.withPc
  cases m.state.mode <;> rfl

theorem callReachesHost_withPc (hpc : pc.even = m.state.pc.even)
    (hshadow : shadow.even = m.state.nextPc.even)
    (hattempt : m.attempt = ({ m with state := m.state.withPc pc shadow } : Machine).attempt) :
    m.CallReachesHost ↔
      ({ m with state := m.state.withPc pc shadow } : Machine).CallReachesHost := by
  have hf := fetched_parity (parity_withPc hpc hshadow)
  have htpc : m.state.tpc.even = (m.state.withPc pc shadow).tpc.even :=
    (congrArg State.tpc (State.evened_withPc hpc hshadow).symm :)
  unfold CallReachesHost callNumber raised
  rw [hattempt, hf, htpc]

end WithPc

/-! ## Runs -/

theorem load_parity (hp : parity.Machines m n) (image : Image) (args : List (List Byte))
    (sp : Word) : parity.Machines (m.load image args sp).2 (n.load image args sp).2 := by
  have hplatform : m.platform = n.platform := hp.core.platform
  have hset : (m.state.setPc image.entry).evened = (n.state.setPc image.entry).evened := by
    have hstate : m.state.evened = n.state.evened := hp.core.state
    rw [← State.evened_setPc, hstate, State.evened_setPc]
  have hwrite := congrArg (fun s : State => s.writeReg stackReg (.int sp)) hset
  simp only [State.showsRegs_evened.writeReg] at hwrite
  unfold load
  rw [← hplatform]
  obtain ⟨placed, bus⟩ := image.place args m.platform.bus
  cases placed with
  | error fault =>
      exact ⟨⟨hp.core.state, rfl, hp.core.environment, hp.core.interruptPending⟩, hp.record,
        hp.profile⟩
  | ok placed =>
      dsimp only
      cases hm : (m.state.setPc image.entry).writeReg stackReg (.int sp) with
      | error e =>
          cases hn : (n.state.setPc image.entry).writeReg stackReg (.int sp) with
          | error e' =>
              exact ⟨⟨hp.core.state, rfl, hp.core.environment, hp.core.interruptPending⟩,
                hp.record, hp.profile⟩
          | ok t => rw [hm, hn] at hwrite; cases hwrite
      | ok s =>
          cases hn : (n.state.setPc image.entry).writeReg stackReg (.int sp) with
          | error e' => rw [hm, hn] at hwrite; cases hwrite
          | ok t =>
              rw [hm, hn] at hwrite
              exact ⟨⟨Except.ok.inj hwrite, rfl, hp.core.environment, hp.core.interruptPending⟩,
                hp.record, hp.profile⟩

/-- Bit 0 of the program counter is ignored by every step but one that reads the task's program
counter in task mode. Machines that differ only in it take the same step, down to the counters, and
from then on differ in bit 0 of program counters at most. So do two runs, up to the counter of
taken instructions, as long as no step reads the task's program counter. -/
theorem parity_ignored (host : Host σ) (h : σ) :
    (∀ (m : Machine) (pc shadow : Word), pc.even = m.state.pc.even →
      shadow.even = m.state.nextPc.even → (m.ReadsTaskPc → m.state.mode = .scheduler) →
      let n := { m with state := m.state.withPc pc shadow }
      (m.step host h).result = (n.step host h).result ∧
        (m.step host h).host = (n.step host h).host ∧
        parity.Machines (m.step host h).machine (n.step host h).machine ∧
        (m.step host h).machine.profile = (n.step host h).machine.profile) ∧
    ∀ (m n : Machine) (acts : List Action), parity.Machines m n →
      m.Throughout host (fun m _ a => a = .step → ¬ m.ReadsTaskPc) h acts →
      m.results host h acts = n.results host h acts ∧
        (m.run host h acts).2 = (n.run host h acts).2 ∧
        parity.Machines (m.run host h acts).1 (n.run host h acts).1 := by
  refine ⟨?_, ?_⟩
  · intro m pc shadow hpc hshadow hreads n
    have hp : parity.Machines m n := parity_withPc hpc hshadow
    have htpc : m.ReadsTaskPc → m.state.tpc = n.state.tpc := by
      intro hr
      show m.state.tpc = (m.state.withPc pc shadow).tpc
      unfold State.withPc
      rw [hreads hr]
    have hattempt : m.attempt = n.attempt := attempt_parity hp htpc
    obtain ⟨hresult, hhost, hafter⟩ := (steps_parity hp htpc host h).coupled
    have htaken : m.departures host h = n.departures host h :=
      departures_congr hattempt (parity.mode hp.core.state) (onward_withPc hpc hshadow).symm
        (callReachesHost_withPc hpc hshadow hattempt) hresult
    refine ⟨hresult, hhost, hafter, Profile.eq_of_untaken hafter.profile ?_⟩
    rw [step_taken, step_taken, htaken]
  · intro m n acts hp hrun
    refine run_related (R := parity.Machines) (fun m n h hr hok => ?_) (fun m n hr => ?_)
      (fun m n h image args sp hr _ => load_parity hr image args sp) acts m n h hp hrun
    · exact (steps_parity hr (fun hreads => absurd hreads (hok rfl)) host h).coupled
    · exact ⟨⟨hr.core.state, hr.core.platform, hr.core.environment, rfl⟩, hr.record, hr.profile⟩

/-- The task at the last halfword of memory with bit 0 of its program counter clear. -/
def evenBrink : Machine := { brink with state := brink.state.withPc 0xfffffffe 0 }

/-- Behind the fence that stands there, the fetch fails for both. -/
theorem parity_ignored_brink :
    (brink.step Host.noting none).machine.profile =
        (evenBrink.step Host.noting none).machine.profile ∧
      brink.results Host.noting none [.step, .step] =
        evenBrink.results Host.noting none [.step, .step] := by
  have hi : brink.insn? = some (.fence 0) := by decide +kernel
  have hfirst : ¬ brink.ReadsTaskPc := by
    rintro ⟨insn, hinsn, hreads⟩
    obtain rfl := Option.some.inj (hi.symm.trans hinsn)
    cases hreads
  have hnext : (brink.step Host.noting none).machine.insn? = none := by decide +kernel
  have hsecond : ¬ (brink.step Host.noting none).machine.ReadsTaskPc := by
    rintro ⟨insn, hinsn, hreads⟩
    rw [hnext] at hinsn
    cases hinsn
  obtain ⟨hstep, hruns⟩ := parity_ignored Host.noting none
  obtain ⟨-, -, -, hprofile⟩ :=
    hstep brink 0xfffffffe 0 (by decide) (by decide) fun hreads => absurd hreads hfirst
  exact ⟨hprofile,
    (hruns brink evenBrink [.step, .step] (parity_withPc (by decide) (by decide))
      ⟨fun _ => hfirst, fun _ => hsecond, trivial⟩).1⟩

/-- A task that reads its program counter into `$r4`. -/
def introspective : Machine where
  state := { mode := .task, tpc := 16, nextTpc := 16 }
  platform :=
    { model := .generic
      bus := { devices := [.ram (Ram.setBytes ⟨0, 64, ∅⟩ 16 [0x54, 0x00])] } }
  environment := .operating

theorem parity_shows :
    ¬ ∀ (m : Machine) (pc shadow : Word), pc.even = m.state.pc.even →
      shadow.even = m.state.nextPc.even →
      let n := { m with state := m.state.withPc pc shadow }
      (m.step Host.noting none).machine.state.regs =
        (n.step Host.noting none).machine.state.regs := by
  intro h
  have hregs := congrArg (fun f => (RegFile.read f 4).value)
    (h introspective 17 17 (by decide) (by decide))
  revert hregs
  decide +kernel

end Machine

end TypedCore
