import TypedCore.Proofs.Calls.Service
import TypedCore.Proofs.Memory.Alone

/-!
# The frame of a system call

A call may write the caller's registers and memory in few places: the result
register, the buffer of a read, the word for the time, and the error word. That it
writes nowhere else is shown for each part that touches memory, as a relation
between the platforms before and after (`Platform.Wrote`) which composes: reading
writes nowhere, one write does so in its own bytes, and a copy in the bytes it
counts off, around the end of the address space if need be.

A call that ends the run, or that has no meaning, does none of this.
-/

namespace TypedCore

/-! ## Addresses -/

/-- The addresses of a buffer, the last of which may wrap around to the first of all. -/
def Word.buffer (a : Word) (len : Nat) : Nat → Prop :=
  fun x => ∃ k < len, x = (a + BitVec.ofNat 32 k).toNat

theorem Word.buffer_cons {a : Word} {len x : Nat} (h : (a + 1).buffer len x) :
    a.buffer (len + 1) x := by
  obtain ⟨k, hk, rfl⟩ := h
  exact ⟨k + 1, by omega, congrArg BitVec.toNat (a.add_ofNat_succ k).symm⟩

theorem Word.buffer_head {a : Word} {x : Nat} (len : Nat) (h : a.span 1 x) :
    a.buffer (len + 1) x := by
  obtain ⟨hlow, hhigh⟩ := h
  refine ⟨0, by omega, ?_⟩
  rw [BitVec.add_zero]
  omega

/-- Where a call may store what it has for the caller. -/
def Syscall.writes (call : Option Syscall) (args : SyscallArgs) : Nat → Prop :=
  match call with
  | some .read => args.second.buffer args.third.toNat
  | some .time => args.first.span 4
  | _ => fun _ => False

/-- Where a reply may store an error number: in a word that is given and aligned, if the call
failed. -/
def SyscallReply.writes (reply : SyscallReply) (errorAddr : Word) : Nat → Prop :=
  fun x => (∃ ret errno, reply = .failed ret errno) ∧
    errorAddr ≠ 0 ∧ errorAddr.toNat % 4 = 0 ∧ errorAddr.span 4 x

/-- The halt that a reply asks for. -/
def SyscallReply.halt? : SyscallReply → Option Halt
  | halt h => some h
  | _ => none

@[simp] theorem Host.pass_halt? {σ : Type} (host : Host σ) (call : HostCall) (h : σ)
    (toInt : call.Answer → Int) : (host.pass call h toInt).1.halt? = none := by
  unfold pass
  split <;> rfl

/-! ## Copying -/

/-- A platform of the generic model with nothing but memory. -/
structure Platform.IsGeneric (p : Platform) : Prop where
  model : p.model = .generic
  memory : ∃ r : Ram, p.bus.devices = [.ram r]

/-- Generic platforms before and after something that wrote to some addresses at most. -/
structure Platform.Wrote (S : Nat → Prop) (p q : Platform) : Prop where
  generic : q.IsGeneric
  changed : p.ChangedIn S q

namespace Platform

variable {σ : Type} {S T : Nat → Prop} {p q q' : Platform} {mode : Mode} {addr value : Word}
  {width : Width} {access : Access}

theorem IsGeneric.physical (hp : p.IsGeneric) (mode : Mode) (addr : Word) (access : Access) :
    p.physical mode addr access = .ok addr := by
  unfold Platform.physical
  rw [hp.model]

namespace Wrote

theorem refl (hp : p.IsGeneric) : p.Wrote S p := by
  obtain ⟨r, hr⟩ := hp.memory
  exact ⟨hp, r, r, hr, hr, .refl r⟩

theorem trans (h₁ : p.Wrote S q) (h₂ : q.Wrote S q') : p.Wrote S q' :=
  ⟨h₂.generic, h₁.changed.trans h₂.changed⟩

theorem mono (h : p.Wrote S q) (hS : ∀ x, S x → T x) : p.Wrote T q := by
  obtain ⟨r, r', hr, hr', hc⟩ := h.changed
  exact ⟨h.generic, r, r', hr, hr', hc.base, hc.size, fun j hj => hc.bytes j fun hs => hj (hS _ hs)⟩

theorem usedLast (hp : p.IsGeneric) (i : Nat) : p.Wrote S (p.usedLast i) := by
  obtain ⟨r, hr⟩ := hp.memory
  exact ⟨⟨hp.model, r, hr⟩, r, r, hr, hr, .refl r⟩

theorem load {x : Except MemFault Word} (hp : p.IsGeneric)
    (h : p.load mode addr width access = (x, q)) : p.Wrote S q := by
  obtain ⟨r, hr⟩ := hp.memory
  obtain ⟨i, hi⟩ := load_ram hr mode addr width access
  rw [h] at hi
  obtain rfl : q = p.usedLast i := hi
  exact usedLast hp i

/-- A write changes its own bytes, or nothing. -/
theorem write {x : Except MemFault Unit} (hp : p.IsGeneric)
    (h : p.write mode addr width value = (x, q)) : p.Wrote (addr.span width.bytes) q := by
  obtain ⟨r, hr⟩ := hp.memory
  cases x with
  | error fault =>
      obtain ⟨i, rfl⟩ := write_refused h
      exact usedLast hp i
  | ok u =>
      have hmodel := (Evolves.write h).model
      obtain ⟨a, ha, hc, hq⟩ := write_memory hr h
      obtain rfl := Except.ok.inj ((hp.physical mode addr .write).symm.trans ha)
      exact ⟨⟨hmodel.trans hp.model, _, hq⟩, r, _, hr, hq,
        Ram.changedIn_setBytes hc (length_bytesOfNat _ _)⟩

theorem readBytesOnto (acc : List Byte) (len : Nat) (addr : Word) (hp : p.IsGeneric) :
    p.Wrote S (readBytesOnto acc len addr p).2 := by
  fun_induction Platform.readBytesOnto acc len addr p with
  | case1 => exact refl hp
  | case2 acc len addr p v q hread ih =>
      have hq : p.Wrote S q := load hp hread
      exact hq.trans (ih hq.generic)
  | case3 acc len addr p fault q hread => exact load hp hread

theorem scanString (acc : List Byte) (limit : Nat) (addr : Word) (hp : p.IsGeneric) :
    p.Wrote S (scanString acc limit addr p).2 := by
  fun_induction Platform.scanString acc limit addr p with
  | case1 => exact refl hp
  | case2 acc limit addr p q hread => exact load hp hread
  | case3 acc limit addr p v q hread hv ih =>
      have hq : p.Wrote S q := load hp hread
      exact hq.trans (ih hq.generic)
  | case4 acc limit addr p fault q hread => exact load hp hread

theorem readPath (hp : p.IsGeneric) (addr : Word) : p.Wrote S (p.readPath addr).2 := by
  have hscan : p.Wrote S (Platform.scanString [] 0x100000000 addr p).2 := scanString _ _ _ hp
  unfold Platform.readPath
  split <;> rename_i h <;> rw [h] at hscan <;> exact hscan

theorem writeBytes (addr : Word) (data : List Byte) (hp : p.IsGeneric) :
    p.Wrote (addr.buffer data.length) (p.writeBytes addr data).2 := by
  fun_induction Platform.writeBytes p addr data with
  | case1 => exact refl hp
  | case2 p addr b bs q hwrite ih =>
      have hq := write hp hwrite
      exact (hq.mono fun x hx => Word.buffer_head _ hx).trans
        ((ih hq.generic).mono fun x hx => Word.buffer_cons hx)
  | case3 p addr b bs fault q hwrite =>
      exact (write hp hwrite).mono fun x hx => Word.buffer_head _ hx

/-! ## Servicing -/

variable (host : Host σ) (args : SyscallArgs) (h : σ)

theorem withPath (hp : p.IsGeneric) (addr : Word) (ask : List Byte → SyscallReply × σ) :
    p.Wrote S (p.withPath addr h ask).2.1 := by
  have hpath : p.Wrote S (p.readPath addr).2 := readPath hp addr
  unfold Platform.withPath
  split <;> rename_i hr <;> rw [hr] at hpath <;> exact hpath

theorem serviceRead (hp : p.IsGeneric) :
    p.Wrote (args.second.buffer args.third.toNat) (p.serviceRead host args h).2.1 := by
  unfold Platform.serviceRead
  split
  · exact refl hp
  · split
    · exact refl hp
    · rename_i data h' hanswer
      split
      · exact refl hp
      · rename_i hlen
        have hdata : p.Wrote (args.second.buffer args.third.toNat)
            (p.writeBytes args.second data).2 := by
          refine (writeBytes args.second data hp).mono ?_
          rintro x ⟨k, hk, rfl⟩
          exact ⟨k, by omega, rfl⟩
        split <;> rename_i hw <;> rw [hw] at hdata <;> exact hdata

theorem serviceWrite (hp : p.IsGeneric) : p.Wrote S (p.serviceWrite host args h).2.1 := by
  have hread : p.Wrote S (p.readBytes args.second args.third.toNat).2 := readBytesOnto _ _ _ hp
  unfold Platform.serviceWrite
  split
  · exact refl hp
  · split <;> rename_i hr <;> rw [hr] at hread <;> exact hread

theorem serviceLink (hp : p.IsGeneric) : p.Wrote S (p.serviceLink host args h).2.1 := by
  have hold : p.Wrote S (p.readPath args.first).2 := readPath hp _
  have hboth := hold.trans (readPath hold.generic args.second)
  unfold Platform.serviceLink
  dsimp only
  split <;> exact hboth

theorem serviceTime (hp : p.IsGeneric) :
    p.Wrote (args.first.span 4) (p.serviceTime host args h).2.1 := by
  unfold Platform.serviceTime
  split
  · split
    · exact refl hp
    · split <;> rename_i hw <;> exact write hp hw
  · exact refl hp

theorem service (hp : p.IsGeneric) (call : Option Syscall) :
    p.Wrote (Syscall.writes call args) (p.service host call args h).2.1 := by
  unfold Platform.service
  cases call with
  | none => exact refl hp
  | some call =>
      cases call with
      | openFile => exact withPath h hp _ _
      | unlink => exact withPath h hp _ _
      | changeDir => exact withPath h hp _ _
      | changeMode => exact withPath h hp _ _
      | read => exact serviceRead host args h hp
      | write => exact serviceWrite host args h hp
      | link => exact serviceLink host args h hp
      | time => exact serviceTime host args h hp
      | close => dsimp only; split <;> exact refl hp
      | isTerminal => dsimp only; split <;> exact refl hp
      | _ => exact refl hp

end Wrote

/-! ## Halts -/

section Halts

variable (host : Host σ) (args : SyscallArgs) (h : σ)

theorem withPath_halt? (addr : Word) {ask : List Byte → SyscallReply × σ}
    (hask : ∀ path, (ask path).1.halt? = none) : (p.withPath addr h ask).1.halt? = none := by
  unfold withPath
  split
  · exact hask _
  · rfl

theorem serviceRead_halt? : (p.serviceRead host args h).1.halt? = none := by
  unfold serviceRead
  split
  · rfl
  · split
    · rfl
    · split
      · rfl
      · split <;> rfl

theorem serviceWrite_halt? : (p.serviceWrite host args h).1.halt? = none := by
  unfold serviceWrite
  split
  · rfl
  · split
    · rfl
    · simp

theorem serviceLink_halt? : (p.serviceLink host args h).1.halt? = none := by
  unfold serviceLink
  dsimp only
  split
  · simp
  · rfl

theorem serviceTime_halt? : (p.serviceTime host args h).1.halt? = none := by
  unfold serviceTime
  split
  · split
    · rfl
    · split <;> rfl
  · rename_i reply h' hno hpass
    have hnone := host.pass_halt? .time h id
    rw [hpass] at hnone
    exact hnone

/-- Only the call to exit and a number without a meaning are replied to with a halt, and then
nothing was looked at. -/
theorem service_halt {call : Option Syscall} {reply : SyscallReply} {halt : Halt}
    (hr : (p.service host call args h).1 = .ok reply) (hhalt : reply.halt? = some halt) :
    (p.service host call args h).2.1 = p ∧
      (call = some .exit ∧ halt = .exited args.first.toInt ∨
        call = none ∧ halt = .bySignal .trap) := by
  -- Of any other call the reply is known not to be a halt.
  have hother : ∀ {x : SyscallReply}, (.ok x : Except HostFault SyscallReply) = .ok reply →
      x.halt? = none → False := by
    intro x hx hnone
    obtain rfl := Except.ok.inj hx
    rw [hnone] at hhalt
    cases hhalt
  unfold service at hr ⊢
  cases call with
  | none =>
      obtain rfl := Except.ok.inj hr
      exact ⟨rfl, .inr ⟨rfl, (Option.some.inj hhalt).symm⟩⟩
  | some call =>
      cases call with
      | exit =>
          obtain rfl := Except.ok.inj hr
          exact ⟨rfl, .inl ⟨rfl, (Option.some.inj hhalt).symm⟩⟩
      | openFile => exact (hother hr (withPath_halt? h _ fun _ => by simp)).elim
      | unlink => exact (hother hr (withPath_halt? h _ fun _ => by simp)).elim
      | changeDir => exact (hother hr (withPath_halt? h _ fun _ => by simp)).elim
      | changeMode => exact (hother hr (withPath_halt? h _ fun _ => by simp)).elim
      | read => exact (hother hr (serviceRead_halt? host args h)).elim
      | write => exact (hother hr (serviceWrite_halt? host args h)).elim
      | link => exact (hother hr (serviceLink_halt? host args h)).elim
      | time => exact (hother hr (serviceTime_halt? host args h)).elim
      | seek => exact (hother hr (by simp)).elim
      | processId => exact (hother hr (by simp)).elim
      | kill => exact (hother hr (by simp)).elim
      | fileStatus => exact (hother hr rfl).elim
      | close =>
          dsimp only at hr
          split at hr
          · exact (hother hr rfl).elim
          · exact (hother hr (by simp)).elim
      | isTerminal =>
          dsimp only at hr
          split at hr
          · exact (hother hr rfl).elim
          · rename_i answer h' hno hpass
            have hnone := host.pass_halt? (.isTerminal args.first.toInt) h id
            rw [hpass] at hnone
            exact (hother hr hnone).elim
      | pathStatus => cases hr
      | setTimes => cases hr
      | timeOfDay => cases hr
      | processTimes => cases hr

end Halts

end Platform

/-! ## Delivering -/

namespace State

variable {s t : State} {p q : Platform} {reply : SyscallReply} {halt : Option Halt}

/-- Delivering a reply stores an error number at most. -/
theorem deliver_wrote (hp : p.IsGeneric) (hd : s.deliver p reply = .ok (halt, t, q)) :
    p.Wrote (reply.writes s.errorAddr) q := by
  cases reply with
  | value v =>
      rw [deliver_value] at hd
      cases hd
      exact .refl hp
  | halt x =>
      cases hd
      exact .refl hp
  | failed ret errno =>
      rw [deliver_failed] at hd
      by_cases hal : s.errorAddr.toNat % 4 ≠ 0
      · rw [if_pos hal] at hd
        cases hd
        exact .refl hp
      · rw [if_neg hal] at hd
        by_cases hzero : s.errorAddr = 0
        · rw [if_pos hzero] at hd
          cases hd
          exact .refl hp
        · rw [if_neg hzero] at hd
          cases hd
          refine (Platform.Wrote.write hp rfl).mono fun x hx => ?_
          exact ⟨⟨ret, errno, rfl⟩, hzero, Decidable.not_not.mp hal, hx⟩

/-- A reply that lets the run go on is a number in the result register, and with it only the
registers and their marks have changed. -/
theorem deliver_goesOn (hd : s.deliver p reply = .ok (none, t, q)) : ∃ v, t = s.replied v := by
  cases reply with
  | value v =>
      rw [deliver_value] at hd
      cases hd
      exact ⟨v, rfl⟩
  | halt x => cases hd
  | failed ret errno =>
      rw [deliver_failed] at hd
      refine ⟨ret, ?_⟩
      split at hd
      · cases hd
      · split at hd <;> cases hd <;> rfl

theorem deliver_exited {status : Int} (hd : s.deliver p reply = .ok (some (.exited status), t, q)) :
    reply.halt? = some (.exited status) := by
  cases reply with
  | value v => rw [deliver_value] at hd; cases hd
  | halt x => cases hd; rfl
  | failed ret errno =>
      rw [deliver_failed] at hd
      split at hd
      · cases hd
      · split at hd <;> cases hd

end State

/-! ## Steps -/

/-- A machine that runs a user program on the generic model. It is in task mode, as it is from its
start on (`Config.RunsUser.run`); what is in memory and in the registers may be anything. -/
structure Config.RunsUser (c : Config) (base : Word) (m : Machine) : Prop
    extends c.Describes base m where
  user : c.environment.isUser = true
  generic : c.model = .generic
  mode : m.state.mode = .task

namespace Config.RunsUser

variable {σ : Type} {c : Config} {base : Word} {m : Machine}

theorem start (hu : c.environment.isUser = true) (hg : c.model = .generic) (base : Word) :
    c.RunsUser base (.ofConfig c (.ofConfigAt c base)) := by
  refine ⟨.ofConfig c base, hu, hg, ?_⟩
  show Mode.ofTaskFlag c.environment.isUser = .task
  rw [hu]
  rfl

theorem isUser (hm : c.RunsUser base m) : m.environment.isUser = true :=
  hm.environment ▸ hm.user

theorem run (hm : c.RunsUser base m) (host : Host σ) (h : σ) (acts : List Action) :
    c.RunsUser base (m.run host h acts).1 :=
  ⟨hm.toDescribes.run host h acts, hm.user, hm.generic,
    (Machine.run_user acts m host h hm.isUser hm.mode).1⟩

theorem isGeneric (hm : c.RunsUser base m) : m.platform.IsGeneric :=
  ⟨hm.model.trans hm.generic, hm.memory (by rw [hm.generic]; decide)⟩

/-- To fetch the number of a call is to write nowhere. -/
theorem numbered (hm : c.RunsUser base m) (S : Nat → Prop) : m.platform.Wrote S m.numbered := by
  obtain ⟨i, hi⟩ := m.numbered_usedLast
  rw [hi]
  exact .usedLast hm.isGeneric i

end Config.RunsUser

namespace Machine

variable {σ : Type} {m : Machine} {c : Config} {base : Word}

/-- Where the call of the next instruction may write, if it has the given number. -/
def callWrites (m : Machine) (host : Host σ) (h : σ) (number : Half) : Nat → Prop :=
  fun x => Syscall.writes (Syscall.ofNumber? number.toNat) m.state.callArgs x ∨
    ∃ reply, (m.serviced host h number).1 = .ok reply ∧ reply.writes m.state.errorAddr x

/-- Fetching the number of a call leaves memory as it was. -/
theorem numbered_memory {r : Ram} (hr : m.platform.bus.devices = [.ram r]) :
    m.numbered.bus.devices = [.ram r] := by
  obtain ⟨i, hi⟩ := m.numbered_usedLast
  rw [hi]
  exact hr

section Calls

variable {number : Half} {host : Host σ} {h : σ} {r : Ram}

variable (hm : c.RunsUser base m) (hi : m.insn? = some (.interrupt .syscall))
  (hr : m.platform.bus.devices = [.ram r])

include hm hi hr

/-- A call whose number cannot be fetched ends the run where it is. -/
theorem call_unnumbered {fault : MemFault} (hn : m.callNumber = .error fault) :
    (m.step host h).result = .ok (some (.bySignal fault.cause.signal)) ∧
      (m.step host h).machine.state.regs = m.state.regs ∧
      (m.step host h).machine.state.tpc = m.state.tpc ∧
      (m.step host h).machine.platform.bus.devices = [.ram r] := by
  have hl := step_unnumbered hm.isUser hi hn host h
  refine ⟨hl.result, by rw [hl.state]; rfl, by rw [hl.state]; rfl, ?_⟩
  rw [hl.platform]
  exact numbered_memory hr

variable (hn : m.callNumber = .ok number)

include hn

/-- A call that is replied to with a halt ends the run, and has done nothing else. -/
theorem call_halted {reply : SyscallReply} {halt : Halt}
    (hs : (m.serviced host h number).1 = .ok reply) (hhalt : reply.halt? = some halt) :
    (m.step host h).result = .ok (some halt) ∧
      (m.step host h).machine.state.regs = m.state.regs ∧
      (m.step host h).machine.platform.bus.devices = [.ram r] := by
  obtain ⟨hq, -⟩ := Platform.service_halt host m.state.callArgs h hs hhalt
  obtain rfl : reply = .halt halt := by
    cases reply <;> cases hhalt
    rfl
  have hserviced : m.serviced host h number =
      (.ok (.halt halt), m.numbered, (m.serviced host h number).2.2) :=
    Prod.ext hs (Prod.ext hq rfl)
  obtain ⟨hresult, hstate, hcontents, -⟩ :=
    step_replied (t := m.behindCall) hm.isUser hi hn hserviced rfl
  exact ⟨hresult, by rw [hstate]; rfl, hcontents.memory (numbered_memory hr)⟩

/-- A reply is delivered, and memory has changed where the call may write at most. -/
theorem call_delivered {reply : SyscallReply} (hs : (m.serviced host h number).1 = .ok reply) :
    ∃ halt t r', (∃ q q', m.behindCall.deliver q reply = .ok (halt, t, q')) ∧
      (m.step host h).result = .ok halt ∧ (m.step host h).machine.state = t.commit ∧
      (m.step host h).machine.platform.bus.devices = [.ram r'] ∧
      r.ChangedIn (m.callWrites host h number) r' := by
  have hnumbered := hm.numbered (m.callWrites host h number)
  have hwrote := Platform.Wrote.service host m.state.callArgs h hnumbered.generic
    (Syscall.ofNumber? number.toNat)
  have hservice : m.platform.Wrote (m.callWrites host h number) (m.serviced host h number).2.1 :=
    hnumbered.trans (hwrote.mono fun x hx => .inl hx)
  obtain ⟨⟨halt, t, q⟩, hd⟩ := State.deliver_ok m.behindCall (m.serviced host h number).2.1 reply
  -- What the service wrote comes first, the error word after it.
  have hdeliver : (m.serviced host h number).2.1.Wrote (m.callWrites host h number) q :=
    (State.deliver_wrote hservice.generic hd).mono fun x hx => .inr ⟨reply, hs, hx⟩
  obtain ⟨r₁, r', hr₁, hr', hchanged⟩ := (hservice.trans hdeliver).changed
  obtain rfl : r = r₁ := by
    rw [hr] at hr₁
    cases hr₁
    rfl
  obtain ⟨hresult, hstate, hcontents, -⟩ :=
    step_replied hm.isUser hi hn (Prod.ext hs rfl) hd
  rw [Bus.takeExit_ram hr', Option.or_none] at hresult
  exact ⟨halt, t, r', ⟨_, q, hd⟩, hresult, hstate, hcontents.memory hr', hchanged⟩

omit r hr in
/-- A call after which the step does not fail was replied to. -/
theorem serviced_of_ok {halt : Option Halt} (hresult : (m.step host h).result = .ok halt) :
    ∃ reply, (m.serviced host h number).1 = .ok reply := by
  cases hs : (m.serviced host h number).1 with
  | error e =>
      have hl := step_unserviced hm.isUser hi hn (Prod.ext hs rfl)
      cases hl.result.symm.trans hresult
  | ok reply => exact ⟨reply, rfl⟩

/-- A call after which the run goes on has written the result register, and memory where it
may. -/
theorem call_returned (hresult : (m.step host h).result = .ok none) :
    (∃ v, (m.step host h).machine.state = (m.behindCall.replied v).commit) ∧
      ∃ r', (m.step host h).machine.platform.bus.devices = [.ram r'] ∧
        r.ChangedIn (m.callWrites host h number) r' := by
  obtain ⟨reply, hs⟩ := serviced_of_ok hm hi hn hresult
  obtain ⟨halt, t, r', ⟨q, q', hd⟩, hresult', hstate, hr', hchanged⟩ :=
    call_delivered hm hi hr hn hs
  obtain rfl := Except.ok.inj (hresult.symm.trans hresult')
  obtain ⟨v, rfl⟩ := State.deliver_goesOn hd
  exact ⟨⟨v, hstate⟩, r', hr', hchanged⟩

/-- A call after which the run has ended with a status has done nothing else. -/
theorem call_exited {status : Int}
    (hresult : (m.step host h).result = .ok (some (.exited status))) :
    (m.step host h).machine.state.regs = m.state.regs ∧
      (m.step host h).machine.platform.bus.devices = [.ram r] := by
  obtain ⟨reply, hs⟩ := serviced_of_ok hm hi hn hresult
  obtain ⟨halt, t, r', ⟨q, q', hd⟩, hresult', -⟩ := call_delivered hm hi hr hn hs
  obtain rfl := Except.ok.inj (hresult.symm.trans hresult')
  exact (call_halted hm hi hr hn hs (State.deliver_exited hd)).2

end Calls

/-- A system call of a user program on the generic model. If its number can be read and the run goes
on, the task is behind the number, in the same mode and with the scheduler where it was; the
result register holds an integer and the others what they held; and memory changed at most in the
buffer of a read, in the word for the time, and in the error word, and there only if the call
failed. A call that exits or has no meaning ends the run with registers and memory as they were,
and so does one whose number cannot be read, with the signal of that fetch and before the task has
moved. -/
theorem syscall_frame (hm : c.RunsUser base m) (hi : m.insn? = some (.interrupt .syscall))
    (host : Host σ) (h : σ) :
    let next := (m.step host h).machine
    let result := (m.step host h).result
    ∃ r r' : Ram, m.platform.bus.devices = [.ram r] ∧ next.platform.bus.devices = [.ram r'] ∧
      (∀ number, m.callNumber = .ok number → result = .ok none →
        next.state.tpc = m.state.tpc.even + 4 ∧ next.state.spc = m.state.spc ∧
          next.state.mode = m.state.mode ∧
          (next.state.regs.read resultReg).type = .int32 ∧
          (∀ i, i ≠ resultReg → next.state.regs.read i = m.state.regs.read i) ∧
          r.ChangedIn (m.callWrites host h number) r') ∧
      (∀ number status, m.callNumber = .ok number → result = .ok (some (.exited status)) →
        next.state.regs = m.state.regs ∧ r' = r) ∧
      (∀ number, m.callNumber = .ok number → Syscall.ofNumber? number.toNat = none →
        result = .ok (some (.bySignal .trap)) ∧ next.state.regs = m.state.regs ∧ r' = r) ∧
      ∀ fault, m.callNumber = .error fault →
        result = .ok (some (.bySignal fault.cause.signal)) ∧
          next.state.regs = m.state.regs ∧ next.state.tpc = m.state.tpc ∧ r' = r := by
  intro next result
  obtain ⟨r, hr⟩ := hm.isGeneric.memory
  obtain ⟨r', hr'⟩ := (hm.run host h [.step]).isGeneric.memory
  have hunchanged : next.platform.bus.devices = [.ram r] → r' = r := by
    intro hkept
    have hnext : next.platform.bus.devices = [.ram r'] := hr'
    rw [hkept] at hnext
    cases hnext
    rfl
  refine ⟨r, r', hr, hr', ?_, ?_, ?_, ?_⟩
  · intro number hn hresult
    obtain ⟨⟨v, hstate⟩, r₁, hr₁, hchanged⟩ := call_returned hm hi hr hn hresult
    obtain rfl : r' = r₁ := by
      have hnext : next.platform.bus.devices = [.ram r'] := hr'
      rw [hr₁] at hnext
      cases hnext
      rfl
    have hreplied : m.Replied (m.step host h) v := replied_of_state hstate
    have hmode : next.state.mode = .task := step_mode_user hm.isUser hm.mode host h
    have htype : (next.state.regs.read resultReg).type = .int32 := by
      rw [hreplied.value]
      rfl
    exact ⟨hreplied.tpc, step_spc hm.mode host h, hmode.trans hm.mode.symm, htype,
      hreplied.others, hchanged⟩
  · intro number status hn hresult
    obtain ⟨hregs, hkept⟩ := call_exited hm hi hr hn hresult
    exact ⟨hregs, hunchanged hkept⟩
  · intro number hn hnone
    have hs : (m.serviced host h number).1 = .ok (.halt (.bySignal .trap)) := by
      rw [serviced, hnone]
      rfl
    obtain ⟨hresult, hregs, hkept⟩ := call_halted hm hi hr hn hs rfl
    exact ⟨hresult, hregs, hunchanged hkept⟩
  · intro fault hn
    obtain ⟨hresult, hregs, htpc, hkept⟩ : (m.step host h).result = _ ∧ _ :=
      call_unnumbered hm hi hr hn
    exact ⟨hresult, hregs, htpc, hunchanged hkept⟩

/-- A user program about to remove the file that its own first byte names. An error number is to go
to address 16. -/
def removing : Machine where
  state := { regs := RegFile.set {} errorReg (.int 16) }
  platform :=
    { model := .generic
      bus := { devices := [.ram (Ram.setBytes ⟨0, 64, ∅⟩ 0 [0x02, 0x00, 0x07, 0x00])] } }
  environment := .user

/-- Refused by its host, it goes on behind the number, with `$r5` and the program's own bytes as
they were. -/
theorem syscall_frame_removing :
    let c : Config := { ramSize := 64 }
    let next := (removing.step Host.noting none).machine
    c.RunsUser 0 removing ∧ removing.insn? = some (.interrupt .syscall) ∧
      next.state.tpc = 4 ∧ next.state.regs.read 5 = removing.state.regs.read 5 ∧
      ∃ r r' : Ram, removing.platform.bus.devices = [.ram r] ∧
        next.platform.bus.devices = [.ram r'] ∧ ∀ j < 16, r'.byte j = r.byte j := by
  intro c next
  have hm : c.RunsUser 0 removing := ⟨⟨rfl, rfl, rfl⟩, rfl, rfl, rfl⟩
  have hi : removing.insn? = some (.interrupt .syscall) := by decide +kernel
  have hn : removing.callNumber = .ok 7 := by rfl
  have hresult : (removing.step Host.noting none).result = .ok none := by rfl
  obtain ⟨r, r', hr, hr', hgoes, -⟩ := syscall_frame hm hi Host.noting none
  obtain ⟨htpc, -, -, -, hregs, hchanged⟩ := hgoes 7 hn hresult
  refine ⟨hm, hi, htpc.trans (by decide), hregs 5 (by decide), r, r', hr, hr', ?_⟩
  intro j hj
  obtain rfl : r = Ram.setBytes ⟨0, 64, ∅⟩ 0 [0x02, 0x00, 0x07, 0x00] := by
    cases hr
    rfl
  refine hchanged.bytes j ?_
  rintro (hcall | ⟨reply, -, -, -, -, hspan, -⟩)
  · exact hcall
  · have hbase : (16 : Nat) ≤ 0 + j := hspan
    omega

end Machine

end TypedCore
