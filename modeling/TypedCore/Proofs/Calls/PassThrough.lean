import TypedCore.Proofs.Calls.Copying
import TypedCore.Proofs.Calls.Frame

/-!
# Calls that are passed through to the host

Most calls hand their arguments to the host and hand its answer back. What a call
asks for is a relation between the caller's memory and arguments and a request
(`Syscall.Asks`), in which descriptors, offsets and signals are signed numbers,
and paths and buffers are the bytes that task memory reads as.

`Platform.service_asks` says that a call which asks for something comes to the
host's answer and to nothing else, except that a read stores what it was given
(`Platform.serviceRead_granted`); `Platform.service_unreadable` that a call without
its path or buffer does not get as far as the host. Closing is the exception: the
descriptors of the standard streams stay open, and so does every negative one, for
which the host is not asked either.
-/

namespace TypedCore

variable {σ : Type}

/-! ## Requests -/

/-- The number that an answer comes to: how many bytes were read, or the answer itself. -/
def HostCall.number : (request : HostCall) → request.Answer → Int
  | read .., data => data.length
  | openFile .., v | close _, v | write .., v | seek .., v | unlink _, v | processId, v
  | kill .., v | changeDir _, v | changeMode .., v | time, v | link .., v | isTerminal _, v => v

/-- The bytes that an answer has for the caller's buffer. -/
def HostCall.bytes : (request : HostCall) → request.Answer → List Byte
  | read .., data => data
  | _, _ => []

/-- The host's flags for the guest's: those whose bits are set, and no others. -/
def OpensAs (guest : Word) (flags : Nat) : Prop :=
  ∀ n, flags.testBit n ↔ ∃ f ∈ openFlags, guest.toNat &&& f.1 ≠ 0 ∧ f.2.testBit n

theorem opensAs_iff {guest : Word} {flags : Nat} :
    OpensAs guest flags ↔ flags = hostOpenFlags guest := by
  have hfold : ∀ (table : List (Nat × Nat)) (start n : Nat),
      (table.foldl (fun flags f =>
        if guest.toNat &&& f.1 ≠ 0 then flags ||| f.2 else flags) start).testBit n ↔
      start.testBit n ∨ ∃ f ∈ table, guest.toNat &&& f.1 ≠ 0 ∧ f.2.testBit n := by
    intro table
    induction table with
    | nil => simp
    | cons f table ih =>
        intro start n
        rw [List.foldl_cons, ih]
        by_cases hf : guest.toNat &&& f.1 ≠ 0
        · simp [hf, Nat.testBit_or, or_assoc]
        · simp [hf]
  have hhost : OpensAs guest (hostOpenFlags guest) := by
    intro n
    refine (hfold openFlags 0 n).trans ?_
    simp
  constructor
  · intro h
    refine Nat.eq_of_testBit_eq fun n => ?_
    rw [Bool.eq_iff_iff]
    exact (h n).trans (hhost n).symm
  · rintro rfl
    exact hhost

namespace Syscall

/-- What a call asks the host for, and the platform once its paths or its buffer have been
read. -/
inductive Asks (p : Platform) (args : SyscallArgs) : Syscall → HostCall → Platform → Prop
  | openFile {path : List Byte} {q : Platform} {flags : Nat}
      (hpath : p.HasPath args.first path q) (hflags : OpensAs args.second flags) :
      Asks p args openFile (.openFile path flags args.third) q
  | close (hfd : 2 < args.first.toInt) : Asks p args close (.close args.first.toInt) p
  | read (hlen : args.third.toNat ≤ maxTransfer) :
      Asks p args read (.read args.first.toInt args.third.toNat) p
  | write {data : List Byte} {q : Platform} (hlen : args.third.toNat ≤ maxTransfer)
      (hdata : data.length = args.third.toNat) (hreads : p.Reads args.second data q) :
      Asks p args write (.write args.first.toInt data) q
  | seek : Asks p args seek (.seek args.first.toInt args.second.toInt args.third.toInt) p
  | unlink {path : List Byte} {q : Platform} (hpath : p.HasPath args.first path q) :
      Asks p args unlink (.unlink path) q
  | kill : Asks p args kill (.kill args.first.toInt args.second.toInt) p
  | changeDir {path : List Byte} {q : Platform} (hpath : p.HasPath args.first path q) :
      Asks p args changeDir (.changeDir path) q
  | changeMode {path : List Byte} {q : Platform} (hpath : p.HasPath args.first path q) :
      Asks p args changeMode (.changeMode path args.second) q
  | link {old new : List Byte} {q r : Platform} (hold : p.HasPath args.first old q)
      (hnew : q.HasPath args.second new r) : Asks p args link (.link old new) r
  | isTerminal : Asks p args isTerminal (.isTerminal args.first.toInt) p

/-- Only a read has something for the caller's buffer. -/
theorem Asks.bytes_of_ne {p q : Platform} {args : SyscallArgs} {call : Syscall}
    {request : HostCall} (ha : Asks p args call request q) (hread : call ≠ .read)
    (v : request.Answer) : request.bytes v = [] := by
  cases ha with
  | read => exact absurd rfl hread
  | _ => rfl

/-- A call that asks for something only if its paths or its buffer can be read. -/
def CopiesIn (args : SyscallArgs) : Syscall → Prop
  | openFile | unlink | changeDir | changeMode | link => True
  | write => args.third.toNat ≤ maxTransfer
  | _ => False

/-- What a call that the host refuses comes to. -/
def refusal : Syscall → Word
  | isTerminal => 0
  | _ => 0xffffffff

/-- The reply that passes an answer on. -/
def replyTo (call : Syscall) (request : HostCall) : Except Int request.Answer → SyscallReply
  | .ok v => .value (BitVec.ofInt 32 (request.number v))
  | .error errno => .failed call.refusal errno

end Syscall

theorem Host.pass_eq (host : Host σ) (h : σ) {call : Syscall} (request : HostCall)
    (hcall : call.refusal = 0xffffffff) :
    host.pass request h request.number =
      (call.replyTo request (host.answer request h).1, (host.answer request h).2) := by
  unfold pass
  rcases host.answer request h with ⟨_ | v, h'⟩
  · rw [Syscall.replyTo, hcall]
    rfl
  · rfl

/-! ## Servicing -/

namespace Platform

variable {p q q' : Platform} {args : SyscallArgs} {call : Syscall} {request : HostCall}
  {host : Host σ} {h h' : σ}

theorem withPath_of_hasPath {addr : Word} {path : List Byte} (hpath : p.HasPath addr path q)
    (ask : List Byte → SyscallReply × σ) :
    p.withPath addr h ask = ((ask path).1, q, (ask path).2) := by
  unfold withPath
  rw [readPath_iff.mpr hpath]

theorem readPath_of_forall {addr : Word} (hno : ∀ path q, ¬p.HasPath addr path q) :
    p.readPath addr = (none, (p.readPath addr).2) := by
  cases hread : (p.readPath addr).1 with
  | none => exact Prod.ext hread rfl
  | some path => exact (hno path _ (readPath_iff.mp (Prod.ext hread rfl))).elim

theorem withPath_unreadable {addr : Word} (hno : ∀ path q, ¬p.HasPath addr path q) (h : σ) :
    ∃ q, p.Peeks q ∧ ∀ ask : List Byte → SyscallReply × σ,
      p.withPath addr h ask = (.refused .badAddress, q, h) := by
  refine ⟨_, peeks_readPath p addr, fun ask => ?_⟩
  unfold withPath
  rw [readPath_of_forall hno]

/-- A call that asks for something comes to the host's answer; a read has more to do. -/
theorem service_asks (ha : call.Asks p args request q) (hread : call ≠ .read) :
    p.service host (some call) args h =
      (.ok (call.replyTo request (host.answer request h).1), q, (host.answer request h).2) := by
  -- All but one of them pass their request on as it is.
  have hpass : call.refusal = 0xffffffff →
      (Except.ok (host.pass request h request.number).1, q,
        (host.pass request h request.number).2) =
        ((.ok (call.replyTo request (host.answer request h).1), q,
          (host.answer request h).2) : Except HostFault SyscallReply × Platform × σ) := by
    intro hcall
    rw [host.pass_eq h request hcall]
  cases ha with
  | openFile hpath hflags =>
      obtain rfl := opensAs_iff.mp hflags
      simp only [service, withPath_of_hasPath hpath]
      exact hpass rfl
  | close hfd =>
      simp only [service, if_neg (Int.not_le.mpr hfd)]
      exact hpass rfl
  | read => exact absurd rfl hread
  | write hlen hdata hreads =>
      simp only [service, serviceWrite, if_neg (Nat.not_lt.mpr hlen),
        readBytes_iff.mpr ⟨hdata, hreads⟩]
      exact hpass rfl
  | seek => exact hpass rfl
  | unlink hpath =>
      simp only [service, withPath_of_hasPath hpath]
      exact hpass rfl
  | kill => exact hpass rfl
  | changeDir hpath =>
      simp only [service, withPath_of_hasPath hpath]
      exact hpass rfl
  | changeMode hpath =>
      simp only [service, withPath_of_hasPath hpath]
      exact hpass rfl
  | link hold hnew =>
      simp only [service, serviceLink, readPath_iff.mpr hold, readPath_iff.mpr hnew]
      exact hpass rfl
  | isTerminal =>
      simp only [service, Host.pass]
      rcases host.answer (.isTerminal args.first.toInt) h with ⟨_ | v, h'⟩ <;> rfl

section Read

variable (hmax : args.third.toNat ≤ maxTransfer)

include hmax

theorem serviceRead_granted {data : List Byte}
    (hv : host.answer (.read args.first.toInt args.third.toNat) h = (.ok data, h'))
    (hfits : data.length ≤ args.third.toNat) (hw : p.Writes args.second data q) :
    p.serviceRead host args h = (.value (BitVec.ofNat 32 data.length), q, h') := by
  unfold serviceRead
  rw [if_neg (Nat.not_lt.mpr hmax), hv]
  dsimp only
  rw [if_neg (Nat.not_lt.mpr hfits), writeBytes_of_writes hw]

theorem serviceRead_refused {errno : Int}
    (hv : host.answer (.read args.first.toInt args.third.toNat) h = (.error errno, h')) :
    p.serviceRead host args h = (.error errno, p, h') := by
  unfold serviceRead
  rw [if_neg (Nat.not_lt.mpr hmax), hv]

theorem serviceRead_host :
    (p.serviceRead host args h).2.2 =
      (host.answer (.read args.first.toInt args.third.toNat) h).2 := by
  unfold serviceRead
  rw [if_neg (Nat.not_lt.mpr hmax)]
  split <;> rename_i hv <;> rw [hv]
  split
  · rfl
  · split <;> rfl

end Read

/-- What the host grants is the result, once what it has for the caller's buffer is there. -/
theorem service_granted (ha : call.Asks p args request q) {v : request.Answer}
    (hv : host.answer request h = (.ok v, h'))
    (hfits : (request.bytes v).length ≤ args.third.toNat)
    (hw : q.Writes args.second (request.bytes v) q') :
    p.service host (some call) args h =
      (.ok (.value (BitVec.ofInt 32 (request.number v))), q', h') := by
  by_cases hread : call = .read
  · subst hread
    cases ha with
    | read hmax =>
        simp only [service, serviceRead_granted hmax hv hfits hw]
        rfl
  · rw [ha.bytes_of_ne hread] at hw
    cases hw
    rw [service_asks ha hread, hv]
    rfl

theorem service_refused (ha : call.Asks p args request q) {errno : Int}
    (hv : host.answer request h = (.error errno, h')) :
    p.service host (some call) args h = (.ok (.failed call.refusal errno), q, h') := by
  by_cases hread : call = .read
  · subst hread
    cases ha with
    | read hmax =>
        simp only [service, serviceRead_refused hmax hv]
        rfl
  · rw [service_asks ha hread, hv]
    rfl

/-- Whatever comes of it, the host has been asked once. -/
theorem service_host (ha : call.Asks p args request q) :
    (p.service host (some call) args h).2.2 = (host.answer request h).2 := by
  by_cases hread : call = .read
  · subst hread
    cases ha with
    | read hmax => exact serviceRead_host hmax
  · rw [service_asks ha hread]

/-- The host is not asked to close the standard streams, nor anything negative. -/
theorem service_close_kept (hfd : args.first.toInt ≤ 2) :
    p.service host (some .close) args h = (.ok (.value 0), p, h) := by
  simp only [service, if_pos hfd]

/-- Without its path or its buffer a call does not get as far as the host. -/
theorem service_unreadable (hc : call.CopiesIn args)
    (hno : ∀ request q, ¬call.Asks p args request q) (host : Host σ) (h : σ) :
    ∃ q, p.Peeks q ∧
      p.service host (some call) args h =
        (.ok (.failed 0xffffffff CallError.badAddress.number), q, h) := by
  cases call with
  | openFile =>
      obtain ⟨q, hq, hw⟩ := withPath_unreadable
        (fun path q hpath => hno _ q (.openFile hpath (opensAs_iff.mpr rfl))) h
      exact ⟨q, hq, by simp only [service, hw]; rfl⟩
  | unlink =>
      obtain ⟨q, hq, hw⟩ := withPath_unreadable
        (fun path q hpath => hno _ q (.unlink hpath)) h
      exact ⟨q, hq, by simp only [service, hw]; rfl⟩
  | changeDir =>
      obtain ⟨q, hq, hw⟩ := withPath_unreadable
        (fun path q hpath => hno _ q (.changeDir hpath)) h
      exact ⟨q, hq, by simp only [service, hw]; rfl⟩
  | changeMode =>
      obtain ⟨q, hq, hw⟩ := withPath_unreadable
        (fun path q hpath => hno _ q (.changeMode hpath)) h
      exact ⟨q, hq, by simp only [service, hw]; rfl⟩
  | link =>
      have hboth := (peeks_readPath p args.first).trans
        (peeks_readPath (p.readPath args.first).2 args.second)
      refine ⟨_, hboth, ?_⟩
      by_cases hold : ∃ old q, p.HasPath args.first old q
      · obtain ⟨old, q, hold⟩ := hold
        have hnew : ∀ new r, ¬q.HasPath args.second new r :=
          fun new r hnew => hno _ r (.link hold hnew)
        simp only [service, serviceLink, readPath_iff.mpr hold]
        rw [readPath_of_forall hnew]
        rfl
      · have hold : ∀ old q, ¬p.HasPath args.first old q :=
          fun old q h => hold ⟨old, q, h⟩
        simp only [service, serviceLink]
        rw [readPath_of_forall hold]
        rfl
  | write =>
      have hmax : args.third.toNat ≤ maxTransfer := hc
      refine ⟨_, peeks_readBytesOnto [] args.third.toNat args.second p, ?_⟩
      simp only [service, serviceWrite, if_neg (Nat.not_lt.mpr hmax)]
      split
      · rename_i fault q hread
        unfold readBytes at hread
        rw [hread]
        rfl
      · rename_i data q hread
        obtain ⟨hdata, hreads⟩ := readBytes_iff.mp hread
        exact (hno _ q (.write hmax hdata hreads)).elim
  | _ => cases hc

end Platform

/-! ## Steps -/

/-- A host that also keeps a list of what it is asked. -/
def Host.logged (host : Host σ) : Host (σ × List HostCall) where
  answer := fun request h =>
    ((host.answer request h.1).1, (host.answer request h.1).2, h.2 ++ [request])

namespace Machine

variable {m : Machine} {r : StepOutcome σ} {host : Host σ} {h h' : σ} {number : Half}
  {call : Syscall} {p q : Platform}

/-- What the host is asked in a step, in order. -/
def requests (m : Machine) (host : Host σ) (h : σ) : List HostCall :=
  (m.step host.logged (h, [])).host.2

/-- A call has returned a number, with memory and devices as on a given platform. The run goes
on, unless a device has asked for its end. -/
structure Returns (m : Machine) (r : StepOutcome σ) (v : Word) (p : Platform) : Prop
    extends m.Replied r v where
  result : r.result = .ok p.bus.takeExit.1
  contents : p.SameContents r.machine.platform

/-- A call has failed. The error number is stored if there is an aligned word for it; an
address that is not aligned ends the run, and one that is zero or that does not take the word
leaves memory alone. -/
structure Fails (m : Machine) (r : StepOutcome σ) (ret : Word) (errno : Int) (p : Platform) : Prop
    extends m.Replied r ret where
  unaligned : m.state.errorAddr.toNat % 4 ≠ 0 →
    r.result = .ok (some (.bySignal .bus)) ∧ p.SameContents r.machine.platform
  unnamed : m.state.errorAddr = 0 →
    r.result = .ok p.bus.takeExit.1 ∧ p.SameContents r.machine.platform
  stored : m.state.errorAddr ≠ 0 → m.state.errorAddr.toNat % 4 = 0 → ∀ q,
    p.write .task m.state.errorAddr .word (BitVec.ofInt 32 errno) = (.ok (), q) →
    r.result = .ok q.bus.takeExit.1 ∧ q.SameContents r.machine.platform
  unmapped : m.state.errorAddr ≠ 0 → m.state.errorAddr.toNat % 4 = 0 → ∀ fault q,
    p.write .task m.state.errorAddr .word (BitVec.ofInt 32 errno) = (.error fault, q) →
    r.result = .ok p.bus.takeExit.1 ∧ p.SameContents r.machine.platform

section Calls

variable (hu : m.environment.isUser = true) (hi : m.insn? = some (.interrupt .syscall))
  (hn : m.callNumber = .ok number)

include hu hi hn

theorem step_returns {v : Word} (hs : m.serviced host h number = (.ok (.value v), q, h')) :
    m.Returns (m.step host h) v q ∧ (m.step host h).host = h' := by
  obtain ⟨hresult, hstate, hcontents, hhost⟩ :=
    step_replied hu hi hn hs (m.behindCall.deliver_value q v)
  exact ⟨⟨replied_of_state hstate, hresult, hcontents⟩, hhost⟩

theorem step_fails {ret : Word} {errno : Int}
    (hs : m.serviced host h number = (.ok (.failed ret errno), q, h')) :
    m.Fails (m.step host h) ret errno q ∧ (m.step host h).host = h' := by
  have hd := m.behindCall.deliver_failed q ret errno
  have haddr : m.behindCall.errorAddr = m.state.errorAddr := rfl
  rw [haddr] at hd
  by_cases hal : m.state.errorAddr.toNat % 4 = 0
  · rw [if_neg (Decidable.not_not.mpr hal)] at hd
    by_cases hzero : m.state.errorAddr = 0
    · rw [if_pos hzero] at hd
      obtain ⟨hresult, hstate, hcontents, hhost⟩ := step_replied hu hi hn hs hd
      exact ⟨⟨replied_of_state hstate, fun h => absurd hal h, fun _ => ⟨hresult, hcontents⟩,
        fun h => absurd hzero h, fun h => absurd hzero h⟩, hhost⟩
    · rw [if_neg hzero] at hd
      obtain ⟨hresult, hstate, hcontents, hhost⟩ := step_replied hu hi hn hs hd
      refine ⟨⟨replied_of_state hstate, fun h => absurd hal h, fun h => absurd h hzero, ?_, ?_⟩,
        hhost⟩
      · intro _ _ q' hw
        rw [hw] at hresult hcontents
        exact ⟨hresult, hcontents⟩
      · intro _ _ fault q' hw
        obtain ⟨i, rfl⟩ := Platform.write_refused hw
        rw [hw] at hresult hcontents
        rw [Platform.usedLast, Bus.takeExit_usedLast] at hresult
        exact ⟨hresult, (Platform.SameContents.usedLast q i).trans hcontents⟩
  · rw [if_pos hal] at hd
    obtain ⟨hresult, hstate, hcontents, hhost⟩ := step_replied hu hi hn hs hd
    have hzero : m.state.errorAddr ≠ 0 := fun h => hal (by rw [h]; rfl)
    exact ⟨⟨replied_of_state hstate, fun _ => ⟨hresult, hcontents⟩, fun h => absurd h hzero,
      fun _ h => absurd h hal, fun _ h => absurd h hal⟩, hhost⟩

/-- What the service leaves of the host is what the step leaves of it. -/
theorem step_host : (m.step host h).host = (m.serviced host h number).2.2 := by
  cases hs : (m.serviced host h number).1 with
  | error e => exact (step_unserviced hu hi hn (Prod.ext hs rfl)).host
  | ok reply =>
      obtain ⟨⟨halt, t, q'⟩, hd⟩ :=
        State.deliver_ok m.behindCall (m.serviced host h number).2.1 reply
      exact (step_replied hu hi hn (Prod.ext hs rfl) hd).2.2.2

/-- The host is asked what the service asks it. -/
theorem requests_eq : m.requests host h = (m.serviced host.logged (h, []) number).2.2.2 :=
  congrArg Prod.snd (step_host hu hi hn)

end Calls

/-- A call that is passed through asks the host once, for what its number and its arguments say,
and reports the answer: the result is the low half of the number it comes to, once a read has
stored its bytes, or the mark of a failure, with the error number stored through `$r3`. For a
descriptor up to 2, negative ones included, closing is answered without the host, and so is a
call whose path or buffer cannot be read, which has failed. -/
theorem passed_through (hu : m.environment.isUser = true)
    (hi : m.insn? = some (.interrupt .syscall)) (hn : m.callNumber = .ok number)
    (hc : Syscall.ofNumber? number.toNat = some call) (host : Host σ) (h : σ) :
    let args := m.state.callArgs
    let r := m.step host h
    (∀ request q, call.Asks m.numbered args request q →
      m.requests host h = [request] ∧ r.host = (host.answer request h).2 ∧
        (∀ v q', (host.answer request h).1 = .ok v →
          (request.bytes v).length ≤ args.third.toNat →
          q.Writes args.second (request.bytes v) q' →
          m.Returns r (BitVec.ofInt 32 (request.number v)) q') ∧
        ∀ errno, (host.answer request h).1 = .error errno →
          m.Fails r call.refusal errno q) ∧
      (call = .close → args.first.toInt ≤ 2 →
        m.requests host h = [] ∧ r.host = h ∧ m.Returns r 0 m.numbered) ∧
      (call.CopiesIn args → (∀ request q, ¬call.Asks m.numbered args request q) →
        m.requests host h = [] ∧ r.host = h ∧
          ∃ q, m.numbered.Peeks q ∧
            m.Fails r 0xffffffff CallError.badAddress.number q) := by
  intro args r
  have hserviced : ∀ {τ : Type} (host : Host τ) (h : τ),
      m.serviced host h number = m.numbered.service host (some call) args h := by
    intro τ host h
    rw [serviced, hc]
  refine ⟨fun request q ha => ⟨?_, ?_, ?_, ?_⟩, ?_, ?_⟩
  · rw [requests_eq hu hi hn, hserviced, Platform.service_host ha]
    rfl
  · show (m.step host h).host = _
    rw [step_host hu hi hn, hserviced, Platform.service_host ha]
  · intro v q' hv hfits hw
    have hs := Platform.service_granted ha (Prod.ext hv rfl) hfits hw
    rw [← hserviced] at hs
    exact (step_returns hu hi hn hs).1
  · intro errno hv
    have hs := Platform.service_refused ha (Prod.ext hv rfl)
    rw [← hserviced] at hs
    exact (step_fails hu hi hn hs).1
  · rintro rfl hfd
    have hs : ∀ {τ : Type} (host : Host τ) (h : τ),
        m.serviced host h number = (.ok (.value 0), m.numbered, h) := by
      intro τ host h
      rw [hserviced, Platform.service_close_kept hfd]
    obtain ⟨hreturns, hhost⟩ := step_returns hu hi hn (hs host h)
    refine ⟨?_, hhost, hreturns⟩
    rw [requests_eq hu hi hn, hs]
  · intro hcopies hno
    obtain ⟨q, hq, hs⟩ := Platform.service_unreadable hcopies hno host h
    rw [← hserviced] at hs
    obtain ⟨hfails, hhost⟩ := step_fails hu hi hn hs
    refine ⟨?_, hhost, q, hq, hfails⟩
    obtain ⟨q', -, hs'⟩ :=
      Platform.service_unreadable hcopies hno host.logged (h, [])
    rw [requests_eq hu hi hn, hserviced, hs']

/-- The file that the program removes is the one that its memory names. -/
theorem passed_through_removing :
    removing.requests Host.noting none = [.unlink [2]] ∧
      (removing.step Host.noting none).host = some (.unlink [2]) ∧
      (removing.step Host.noting none).machine.state.regs.read resultReg = .int 0xffffffff := by
  have hn : removing.callNumber = .ok 7 := by rfl
  have hpath : removing.numbered.HasPath removing.state.callArgs.first [2] removing.numbered :=
    ⟨.cons rfl (.cons rfl (.nil _ _)), by decide, by decide⟩
  obtain ⟨hrequests, hhost, -, hrefused⟩ :=
    (passed_through rfl (by decide +kernel) hn rfl Host.noting none).1 _ _ (.unlink hpath)
  exact ⟨hrequests, hhost, (hrefused 0 rfl).value⟩

/-- A user program about to close descriptor -1. -/
def closing : Machine where
  state := { regs := RegFile.set {} resultReg (.int 0xffffffff) }
  platform :=
    { model := .generic
      bus := { devices := [.ram (Ram.setBytes ⟨0, 64, ∅⟩ 0 [0x02, 0x00, 0x03, 0x00])] } }
  environment := .user

/-- Descriptors other than those of the standard streams are not always passed through: the host
is not asked to close a negative one. -/
theorem close_negative_unasked :
    ¬∀ m : Machine, m.environment.isUser = true → m.insn? = some (.interrupt .syscall) →
      m.callNumber = .ok 3 → m.state.callArgs.first ∉ [0, 1, 2] →
      m.requests Host.noting none = [.close m.state.callArgs.first.toInt] := by
  intro hall
  have hasked := hall closing rfl (by decide +kernel) (by rfl) (by decide +kernel)
  have hunasked : closing.requests Host.noting none = [] := by decide +kernel
  rw [hunasked] at hasked
  cases hasked

end Machine

end TypedCore
