import TypedCore.Proofs.Execution.StoreLoad
import TypedCore.Proofs.Memory.Evolution
import TypedCore.Proofs.Memory.Record

/-!
# Exit requests

A GPIO byte that is set up to end the run keeps what is written to it until the bus is
asked for exit requests, at the end of the step. So between two steps no request waits
(`Platform.AtRest`). The one access of a step either leaves the bus quiet, or it is the
write of a single byte to such a GPIO byte: then that device asks for an exit and no
other does (`Bus.Asks`), and the step ends with it (`Machine.step_requested`). Any other
step ends without an exit status, and with a quiet bus (`Machine.step_unrequested`).

Everything else a step does with the bus is reading, in the fetch and in the reaction to
a cause that the host does not get to see, and no read changes a request. A refused write
changes nothing either; but where devices share no address, the write of a byte to a GPIO
byte is never refused (`Bus.Quiet.writeBytes_terminating`).
-/

namespace TypedCore

/-! ## Devices -/

namespace Device

/-- The exit status that a device asks for. -/
def request? : Device → Option Byte
  | gpio g => g.pending
  | _ => none

variable {d d' : Device} {offset len : Nat} {data out : List Byte}

theorem takeExit?_eq (d : Device) :
    d.takeExit? = d.request?.map fun b => (.exited b.toNat, d.settled) := by
  cases d <;> rfl

theorem request?_settled (d : Device) : d.settled.request? = none := by
  cases d <;> rfl

theorem request?_of_read {bytes : List Byte} (h : d.read offset len = some (bytes, d')) :
    d'.request? = d.request? := by
  cases d with
  | ram _ | console _ | gpio _ =>
      obtain ⟨_, -, heq⟩ := Option.map_eq_some_iff.mp h
      obtain ⟨-, rfl⟩ := Prod.mk.inj heq
      rfl

/-- Only a single byte that is written to a terminating GPIO byte makes a request. -/
theorem request?_of_write (h : d.write offset data = some (d', out)) :
    d'.request? = d.request? ∨ ∃ g b, d = .gpio g ∧ g.terminates = true ∧ data = [b] := by
  cases d with
  | ram _ | console _ =>
      obtain ⟨_, -, heq⟩ := Option.map_eq_some_iff.mp h
      obtain ⟨rfl, -⟩ := Prod.mk.inj heq
      exact .inl rfl
  | gpio g =>
      obtain ⟨g', hwrite, heq⟩ := Option.map_eq_some_iff.mp h
      obtain ⟨rfl, -⟩ := Prod.mk.inj heq
      unfold Gpio.write at hwrite
      split at hwrite
      · rename_i b
        split at hwrite
        · rename_i ht
          exact .inr ⟨g, b, rfl, ht, rfl⟩
        · obtain rfl := Option.some.inj hwrite
          exact .inl rfl
      · cases hwrite

theorem write_terminating {g : Gpio} (ht : g.terminates = true) (b : Byte) :
    (gpio g).write 0 [b] = some (gpio { g with pending := some b }, []) := by
  simp [write, Gpio.write, ht]

end Device

/-! ## The bus -/

namespace Bus

/-- No exit request waits. -/
def Quiet (b : Bus) : Prop := ∀ d : Device, d ∈ b.devices → d.request? = none

instance (b : Bus) : Decidable b.Quiet :=
  inferInstanceAs (Decidable (∀ d ∈ b.devices, Device.request? d = none))

/-- One device asks for an exit, and no other. -/
def Asks (b : Bus) (x : Byte) : Prop :=
  ∃ (k : Nat) (d : Device), b.devices[k]? = some d ∧ d.request? = some x ∧
    ∀ (i : Nat) (e : Device), i ≠ k → b.devices[i]? = some e → e.request? = none

variable {b : Bus} {addr : Word} {len k : Nat} {data : List Byte} {x : Byte}

theorem Quiet.set {d : Device} (h : b.Quiet) (hd : d.request? = none) :
    ∀ e ∈ b.devices.set k d, e.request? = none := by
  intro e he
  rcases List.mem_or_eq_of_mem_set he with hmem | rfl
  · exact h e hmem
  · exact hd

theorem Quiet.takeExit (h : b.Quiet) : b.takeExit = (none, b) := by
  have hnone : b.devices.findIdx? (·.takeExit?.isSome) = none := by
    rw [List.findIdx?_eq_none_iff]
    intro d hd
    rw [Device.takeExit?_eq, h d hd]
    rfl
  unfold Bus.takeExit
  rw [hnone]

/-- The one request is collected. -/
theorem Asks.takeExit (h : b.Asks x) :
    b.takeExit.1 = some (.exited x.toNat) ∧ b.takeExit.2.Quiet := by
  obtain ⟨k, d, hk, hd, hothers⟩ := h
  obtain ⟨hlen, hget⟩ := List.getElem?_eq_some_iff.mp hk
  have hexit : d.takeExit? = some (.exited x.toNat, d.settled) := by
    rw [Device.takeExit?_eq, hd]
    rfl
  have hfirst : b.devices.findIdx? (·.takeExit?.isSome) = some k := by
    rw [List.findIdx?_eq_some_iff_getElem]
    refine ⟨hlen, by rw [hget, hexit]; rfl, fun i hi => ?_⟩
    have hnone := hothers i _ (Nat.ne_of_lt hi) (List.getElem?_eq_getElem (Nat.lt_trans hi hlen))
    rw [Device.takeExit?_eq, hnone]
    exact Bool.false_ne_true
  have htake : b.takeExit =
      (some (.exited x.toNat), { b with devices := b.devices.set k d.settled }) := by
    unfold Bus.takeExit
    rw [hfirst]
    simp only [hk, Option.bind_some, hexit]
  rw [htake]
  refine ⟨rfl, fun e he => ?_⟩
  obtain ⟨i, hi⟩ := List.mem_iff_getElem?.mp he
  by_cases hik : i = k
  · subst hik
    rw [List.getElem?_set_self hlen] at hi
    obtain rfl := Option.some.inj hi
    exact d.request?_settled
  · rw [List.getElem?_set_ne (Ne.symm hik)] at hi
    exact hothers i e hik hi

theorem Quiet.readBytes (h : b.Quiet) (addr : Word) (len : Nat) :
    (b.readBytes addr len).2.Quiet := by
  unfold Bus.readBytes
  split
  · exact h
  · split
    · exact h
    · rename_i d hd
      split
      · rename_i bytes d' hread
        exact h.set ((Device.request?_of_read hread).trans (h d (List.mem_of_getElem? hd)))
      · exact h

/-- A write that asks for nothing: not a single byte, or not to a GPIO byte that ends runs. -/
theorem Quiet.writeBytes (h : b.Quiet)
    (hno : ∀ g x, .gpio g ∈ b.devices → g.terminates = true → addr = g.base → data ≠ [x]) :
    (b.writeBytes addr data).2.Quiet := by
  unfold Bus.writeBytes
  split
  · exact h
  · rename_i i hroute
    split
    · exact h
    · rename_i d hd
      have hmem := List.mem_of_getElem? hd
      split
      · rename_i d' out hwrite
        refine h.set ?_
        rcases Device.request?_of_write hwrite with hkept | ⟨g, x, rfl, ht, rfl⟩
        · exact hkept.trans (h d hmem)
        · have hcovers : (Device.gpio g).covers addr 1 = true :=
            owns_eq_covers hd ▸ owns_of_route hroute
          obtain ⟨hlow, hhigh⟩ := Device.covers_iff.mp hcovers
          have haddr : addr = g.base := by
            change g.base.toNat ≤ addr.toNat at hlow
            change addr.toNat + 1 ≤ g.base.toNat + 1 at hhigh
            exact BitVec.eq_of_toNat_eq (by omega)
          exact absurd rfl (hno g x hmem ht haddr)
      · exact h

/-- A byte that is written to a GPIO byte that ends runs is taken, and asked for. -/
theorem Quiet.writeBytes_terminating {g : Gpio} (h : b.Quiet) (ha : b.DevicesApart)
    (hg : .gpio g ∈ b.devices) (ht : g.terminates = true) (x : Byte) :
    (b.writeBytes g.base [x]).1 = true ∧ (b.writeBytes g.base [x]).2.Asks x := by
  obtain ⟨k, hk⟩ := List.mem_iff_getElem?.mp hg
  have hcovers : (Device.gpio g).covers g.base 1 = true :=
    Device.covers_iff.mpr ⟨Nat.le_refl _, Nat.le_refl _⟩
  have hroute : b.route g.base [x].length = some k :=
    route_of_owns (ha.alone k) Nat.one_pos ((owns_eq_covers hk).trans hcovers)
  have hoffset : g.base.toNat - (Device.gpio g).base.toNat = 0 := Nat.sub_self _
  unfold Bus.writeBytes
  rw [hroute]
  simp only [hk, hoffset, Device.write_terminating ht, true_and]
  refine ⟨k, _, List.getElem?_set_self (List.getElem?_eq_some_iff.mp hk).1, rfl, ?_⟩
  intro i e hik he
  rw [List.getElem?_set_ne (Ne.symm hik)] at he
  exact h e (List.mem_of_getElem? he)

end Bus

/-! ## Platforms -/

/-- Between two steps: peripherals that share no address, and no exit request that waits. -/
structure Platform.AtRest (p : Platform) : Prop where
  model : p.model = .peripheral
  apart : p.bus.DevicesApart
  quiet : p.bus.Quiet

namespace Platform

variable {p : Platform} {addr : Word} {width : Width}

theorem AtRest.usedLast (h : p.AtRest) (i : Nat) : (p.usedLast i).AtRest :=
  ⟨h.model, h.apart, h.quiet⟩

theorem AtRest.physical (h : p.AtRest) (mode : Mode) (addr : Word) (access : Access) :
    p.physical mode addr access = .ok addr := by
  unfold Platform.physical
  rw [h.model]

theorem AtRest.load (h : p.AtRest) (mode : Mode) (addr : Word) (width : Width)
    (access : Access) : (p.load mode addr width access).2.bus.Quiet := by
  cases hal : width.isAligned addr with
  | false => rw [load_unaligned hal]; exact h.quiet
  | true =>
      rw [load_allowed hal (h.physical mode addr access)]
      split
      · exact h.quiet.readBytes addr width.bytes
      · exact h.quiet.readBytes addr width.bytes

/-- A write that asks for nothing: of more than a byte, or not to a GPIO byte that ends runs. -/
theorem AtRest.write (h : p.AtRest)
    (hno : ∀ g, .gpio g ∈ p.bus.devices → g.terminates = true → ¬ (addr = g.base ∧ width = .byte))
    (mode : Mode) (value : Word) : (p.write mode addr width value).2.bus.Quiet := by
  cases hal : width.isAligned addr with
  | false => rw [write_unaligned hal]; exact h.quiet
  | true =>
      rw [write_allowed hal (h.physical mode addr .write)]
      refine h.quiet.writeBytes ?_
      intro g x hg ht haddr hdata
      have hlen := congrArg List.length hdata
      rw [length_bytesOfNat] at hlen
      refine hno g hg ht ⟨haddr, ?_⟩
      cases width with
      | byte => rfl
      | half => cases hlen
      | word => cases hlen

theorem AtRest.write_terminating {g : Gpio} (h : p.AtRest) (hg : .gpio g ∈ p.bus.devices)
    (ht : g.terminates = true) (mode : Mode) (x : Byte) :
    ∃ q, p.write mode g.base .byte (x.setWidth 32) = (.ok (), q) ∧ q.bus.Asks x := by
  have hal : Width.byte.isAligned g.base = true := by
    simp [Width.isAligned, Width.bytes, Nat.mod_one]
  have hdata : bytesOfNat Width.byte.bytes (x.setWidth 32).toNat = [x] := by
    have hx : BitVec.ofNat 8 (x.setWidth 32).toNat = x := by
      apply BitVec.eq_of_toNat_eq
      simp [x.isLt]
    exact congrArg (fun y => [y]) hx
  obtain ⟨htaken, hasks⟩ := h.quiet.writeBytes_terminating h.apart hg ht x
  rw [write_allowed hal (h.physical mode g.base .write), hdata, htaken]
  exact ⟨_, rfl, hasks⟩

end Platform

/-! ## Steps -/

namespace Core.Ends

variable {c d : Core} {halt y : Option Halt} {x : Byte}

theorem quiet (h : c.Ends halt y d) (hq : c.platform.bus.Quiet) :
    y = halt ∧ d.platform.bus.Quiet := by
  cases h with
  | halted halt => exact ⟨rfl, hq⟩
  | exited halt bus hexit => rw [hq.takeExit] at hexit; cases hexit
  | interrupted s hexit hpending hs => exact ⟨rfl, hq⟩
  | wentOn hexit hs => exact ⟨rfl, hq⟩

/-- A device that asks for an exit gets it. -/
theorem asked (h : c.Ends none y d) (ha : c.platform.bus.Asks x) :
    y = some (.exited x.toNat) ∧ d.platform.bus.Quiet := by
  obtain ⟨hsome, hquiet⟩ := ha.takeExit
  cases h with
  | exited halt bus hexit =>
      rw [hexit] at hsome hquiet
      exact ⟨hsome, hquiet⟩
  | interrupted s hexit hpending hs => rw [hsome] at hexit; cases hexit
  | wentOn hexit hs => rw [hsome] at hexit; cases hexit

end Core.Ends

namespace Machine

variable {σ : Type} {m : Machine} {effects : Effects} {p : Platform} {host : Host σ} {h : σ}
  {x : Byte}

/-- The next instruction stores the byte `x` to a GPIO byte that ends runs. -/
def TerminatingStore (m : Machine) (x : Byte) : Prop :=
  ∃ g, .gpio g ∈ m.platform.bus.devices ∧ g.terminates = true ∧
    m.access? = some (.write m.state.mode g.base .byte (x.setWidth 32))

/-- The host services the next instruction, a system call, to its end. -/
def Services (m : Machine) (host : Host σ) (h : σ) : Prop :=
  m.CallReachesHost ∧ ∃ halt, (m.step host h).result = .ok halt

theorem fetched_atRest (hm : m.platform.AtRest) : m.fetched.2.AtRest := by
  obtain ⟨i, hi⟩ := m.fetched_usedLast
  rw [hi]
  exact hm.usedLast i

theorem fetched_devices (m : Machine) : m.fetched.2.bus.devices = m.platform.bus.devices := by
  obtain ⟨i, hi⟩ := m.fetched_usedLast
  rw [hi]
  rfl

theorem access?_insn {call : MemCall} (hcall : m.access? = some call) :
    ∃ insn, m.insn? = some insn ∧ insn.access? m.begun = some call :=
  Option.bind_eq_some_iff.mp hcall

/-- A store to a GPIO byte that ends runs does not fault, and asks for an exit. -/
theorem attempt_requested (hm : m.platform.AtRest) (hst : m.TerminatingStore x) :
    ∃ effects p, m.attempt = .ok (effects, p) ∧ effects.cause = .none ∧ p.bus.Asks x ∧
      m.accessFault? = none := by
  obtain ⟨g, hg, ht, hcall⟩ := hst
  obtain ⟨insn, hi, haccess⟩ := access?_insn hcall
  obtain ⟨f, -, hf⟩ := Insn.execute_access haccess
  have ha : m.attempt = .ok (f m.fetched.2) := (m.attempt_of_insn? hi).trans (hf _)
  rw [← fetched_devices] at hg
  obtain ⟨q, hwrite, hasks⟩ := (fetched_atRest hm).write_terminating hg ht m.state.mode x
  have hfault : m.accessFault? = none := by
    rw [accessFault?, hcall]
    simp [MemCall.perform, hwrite, Except.map]
  refine ⟨_, _, ha, ?_⟩
  cases Insn.execute_recorded (hf m.fetched.2) with
  | untouched hnone hrecord hq => rw [haccess] at hnone; cases hnone
  | read addr width v hread hq hcause hrecord => rw [haccess] at hread; cases hread
  | wrote addr width v hstore hq hcause hrecord =>
      simp only [haccess, Option.some.injEq, MemCall.write.injEq] at hstore
      obtain ⟨hmode, rfl, rfl, hvalue⟩ := hstore
      rw [← hmode, ← hvalue, hwrite] at hq
      obtain rfl := (Prod.mk.inj hq).2
      exact ⟨hcause, hasks, hfault⟩
  | refused call fault hcall' hperform heffects =>
      obtain rfl := Option.some.inj (haccess.symm.trans hcall')
      simp [MemCall.perform, hwrite, Except.map] at hperform

/-- Any other instruction leaves the devices without a request. -/
theorem attempt_unrequested (hm : m.platform.AtRest) (hno : ∀ x, ¬ m.TerminatingStore x)
    (ha : m.attempt = .ok (effects, p)) : p.bus.Quiet := by
  rcases attempt_recorded ha with ⟨fault, -, -, rfl⟩ | ⟨insn, hi, hrecorded⟩
  · exact (fetched_atRest hm).quiet
  · cases hrecorded with
    | untouched hcall hrecord hq => exact hq ▸ (fetched_atRest hm).quiet
    | read addr width v hcall hread hcause hrecord =>
        have hq := (fetched_atRest hm).load m.begun.mode addr width .read
        have hload : m.fetched.2.load m.begun.mode addr width .read = (.ok v, p) := hread
        rwa [hload] at hq
    | wrote addr width v hcall hwrite hcause hrecord =>
        have hother : ∀ g, .gpio g ∈ m.fetched.2.bus.devices → g.terminates = true →
            ¬ (addr = g.base ∧ width = .byte) := by
          rintro g hg ht ⟨rfl, rfl⟩
          rw [fetched_devices] at hg
          refine hno (v.setWidth 8) ⟨g, hg, ht, ?_⟩
          have haccess : m.access? = insn.access? m.begun := by rw [access?, hi]; rfl
          rw [haccess, hcall, Width.truncate_eq]
          rfl
        have hq := (fetched_atRest hm).write hother m.begun.mode (width.truncate v)
        rwa [hwrite] at hq
    | refused call fault hcall hperform heffects =>
        obtain ⟨i, rfl⟩ := MemCall.perform_refused hperform
        exact (fetched_atRest hm).quiet

theorem verdict_ne_exited (m : Machine) (status : Int) : m.verdict ≠ some (.exited status) := by
  unfold verdict
  split
  · split <;> nofun
  · split <;> nofun

/-- The instruction of a step that cannot be applied makes no access. -/
theorem access?_of_lacks {e : HostFault} (hl : m.Lacks e) : m.access? = none := by
  cases hl with
  | interpolation hi => rw [access?, hi]; rfl
  | csr hi haddr he =>
      rename_i insn addr
      rw [access?, hi]
      cases insn <;> first | rfl | cases haddr
  | call hu hi hn hw => rw [access?, hi]; rfl

/-- A store to a GPIO byte that ends runs ends the run, and leaves no request behind. -/
theorem step_requested (hm : m.platform.AtRest) (hst : m.TerminatingStore x) (host : Host σ)
    (h : σ) : (m.step host h).result = .ok (some (.exited x.toNat)) ∧
      (m.step host h).machine.platform.bus.Quiet := by
  obtain ⟨effects, p, ha, hcause, hasks, -⟩ := attempt_requested hm hst
  cases m.step_goes host h with
  | unbuilt e ha' hl => rw [ha] at ha'; cases ha'
  | refused effects' p' e ha' hc happly hl =>
      obtain ⟨g, -, -, hcall⟩ := hst
      rw [access?_of_lacks (lacks_of_refused ha' hc happly)] at hcall
      cases hcall
  | raised effects' p' ha' hc hf =>
      obtain ⟨rfl, rfl⟩ := Prod.mk.inj (Except.ok.inj (ha.symm.trans ha'))
      rw [hcause] at hc
      cases hc
  | retired effects' p' s q ha' hc happly hr =>
      obtain ⟨rfl, rfl⟩ := Prod.mk.inj (Except.ok.inj (ha.symm.trans ha'))
      obtain ⟨y, d, hends, hl⟩ := hr
      rw [← Effects.apply_bus hc happly] at hasks
      obtain ⟨rfl, hquiet⟩ := hends.asked hasks
      rw [hl.platform]
      exact ⟨hl.result, hquiet⟩

/-- No other step that the host has no part in ends with an exit status. -/
theorem step_unrequested (hm : m.platform.AtRest) (hno : ∀ x, ¬ m.TerminatingStore x)
    (host : Host σ) (h : σ) (hs : ¬ m.Services host h) :
    (∀ status, (m.step host h).result ≠ .ok (some (.exited status))) ∧
      (m.step host h).machine.platform.bus.Quiet := by
  cases m.step_goes host h with
  | unbuilt e ha hl =>
      rw [hl.result, hl.platform]
      exact ⟨nofun, (fetched_atRest hm).quiet⟩
  | refused effects p e ha hc happly hl =>
      rw [hl.result, hl.platform]
      exact ⟨nofun, attempt_unrequested hm hno ha⟩
  | raised effects p ha hc hf =>
      obtain ⟨i, rfl⟩ := attempt_raised ha hc
      cases hresult : (m.step host h).result with
      | error e =>
          obtain ⟨j, hj⟩ := step_usedLast_of_error hresult
          rw [hj]
          exact ⟨nofun, hm.quiet⟩
      | ok halt =>
          obtain ⟨mode, j, hrespond, -⟩ :=
            respond_of_not_reachesHost ha (fun hc => hs ⟨hc, halt, hresult⟩) host h
          rw [hrespond] at hf
          obtain ⟨y, d, hends, hl⟩ := hf
          obtain ⟨rfl, hquiet⟩ := hends.quiet hm.quiet
          obtain rfl := Except.ok.inj (hresult.symm.trans hl.result)
          rw [hl.platform]
          exact ⟨fun status heq => m.verdict_ne_exited status (Except.ok.inj heq), hquiet⟩
  | retired effects p s q ha hc happly hr =>
      obtain ⟨y, d, hends, hl⟩ := hr
      have hq : q.bus.Quiet := by
        rw [Effects.apply_bus hc happly]
        exact attempt_unrequested hm hno ha
      obtain ⟨rfl, hquiet⟩ := hends.quiet hq
      rw [hl.result, hl.platform]
      exact ⟨nofun, hquiet⟩

/-! ## Runs -/

/-- What a run may do: no system call is serviced to its end, and what is loaded does not ask for
an exit. -/
def Unserviced (host : Host σ) (m : Machine) (h : σ) : Action → Prop
  | .step => ¬ m.Services host h
  | .interrupt => True
  | .load image args sp => (m.load image args sp).2.platform.bus.Quiet

theorem act_atRest (hm : m.platform.AtRest) (host : Host σ) (h : σ) {a : Action}
    (ha : Unserviced host m h a) : (m.act host h a).1.platform.AtRest := by
  have hevolves := m.act_evolves host h a
  refine ⟨hevolves.model.trans hm.model, hm.apart.of_layout hevolves.bus.layout, ?_⟩
  cases a with
  | step =>
      by_cases hst : ∃ x, m.TerminatingStore x
      · obtain ⟨x, hst⟩ := hst
        exact (step_requested hm hst host h).2
      · exact (step_unrequested hm (not_exists.mp hst) host h ha).2
  | interrupt => exact hm.quiet
  | load image args sp => exact ha

theorem run_atRest (host : Host σ) (acts : List Action) (m : Machine) (h : σ)
    (hm : m.platform.AtRest) (hok : m.Throughout host (Unserviced host) h acts) :
    (m.run host h acts).1.platform.AtRest := by
  induction acts generalizing m h with
  | nil => exact hm
  | cons a acts ih => exact ih _ _ (act_atRest hm host h hok.1) hok.2

/-- In every run without serviced system calls from a machine with peripherals that share no
address, a reset one or any other at which no exit request waits: none waits between two steps; a
step ends with an exit status exactly if its instruction stores that byte to a GPIO byte that ends
runs, which never faults; and no other instruction makes a request at any time. -/
theorem exits_exactly (hm : m.platform.AtRest) (host : Host σ) (h : σ) (acts : List Action)
    (hok : m.Throughout host (Unserviced host) h acts) :
    let now := m.run host h acts
    let next := now.1.step host now.2
    now.1.platform.bus.Quiet ∧
      (¬ now.1.Services host now.2 → ∀ status, next.result = .ok (some (.exited status)) ↔
        ∃ x, now.1.TerminatingStore x ∧ status = x.toNat) ∧
      (∀ x, now.1.TerminatingStore x → now.1.accessFault? = none) ∧
      ((∀ x, ¬ now.1.TerminatingStore x) →
        ∀ effects p, now.1.attempt = .ok (effects, p) → p.bus.Quiet) := by
  intro now next
  have hnow : now.1.platform.AtRest := run_atRest host acts m h hm hok
  refine ⟨hnow.quiet, fun hs status => ⟨fun hexit => ?_, ?_⟩, fun x hst => ?_,
    fun hno effects p ha => attempt_unrequested hnow hno ha⟩
  · by_cases hst : ∃ x, now.1.TerminatingStore x
    · obtain ⟨x, hst⟩ := hst
      have hresult := (step_requested hnow hst host now.2).1
      cases hresult.symm.trans hexit
      exact ⟨x, hst, rfl⟩
    · exact absurd hexit ((step_unrequested hnow (not_exists.mp hst) host now.2 hs).1 status)
  · rintro ⟨x, hst, rfl⟩
    exact (step_requested hnow hst host now.2).1
  · obtain ⟨effects, p, -, -, -, hfault⟩ := attempt_requested hnow hst
    exact hfault

/-- A task that stores 7 to a GPIO byte, and then to another that ends runs. -/
def farewell : Machine where
  state := { regs := ((RegFile.set {} 0 (.int 7)).set 5 (.int 0x50)).set 6 (.int 0x51) }
  platform :=
    { model := .peripheral
      bus := { devices := [
        .ram (Ram.setBytes ⟨0, 64, ∅⟩ 0 [0x50, 0xe5, 0x60, 0xe5]),
        .console { base := 0x40 },
        .gpio { base := 0x50, terminates := false },
        .gpio { base := 0x51, terminates := true }] } }
  environment := .operating

/-- The second store ends the run, although an interrupt waits by then. -/
theorem exits_exactly_farewell :
    let now := farewell.run Host.noting none [.step, .interrupt]
    farewell.platform.AtRest ∧
      farewell.Throughout Host.noting (Unserviced Host.noting) none [.step, .interrupt] ∧
      now.1.TerminatingStore 7 ∧
      (now.1.step Host.noting now.2).result = .ok (some (.exited 7)) := by
  intro now
  have hrest : farewell.platform.AtRest := ⟨rfl, by decide, by decide⟩
  have hok : farewell.Throughout Host.noting (Unserviced Host.noting) none [.step, .interrupt] :=
    ⟨fun hs => Bool.false_ne_true hs.1.1, trivial, trivial⟩
  have hport : now.1.platform.bus.devices[3]? = some (.gpio ⟨0x51, true, none⟩) := by rfl
  have hstore : now.1.TerminatingStore 7 := by
    have hi : now.1.insn? = some (.memory (.store .byte) 0 ⟨some 6, none, false⟩) := by
      decide +kernel
    refine ⟨_, List.mem_of_getElem? hport, rfl, ?_⟩
    rw [access?, hi]
    rfl
  have hs : ¬ now.1.Services Host.noting now.2 := fun hs => Bool.false_ne_true hs.1.1
  have hexit := (exits_exactly hrest Host.noting none [.step, .interrupt] hok).2.1 hs 7
  exact ⟨hrest, hok, hstore, hexit.mpr ⟨7, hstore, rfl⟩⟩

end Machine

end TypedCore
