import TypedCore.Proofs.Calls.PassThrough

/-!
# Reads that fail

A read asks the host first and stores what it was given byte by byte, so there are
two kinds of failed reads. If the host was not asked or refused, nothing has
been taken from it, and memory is as it was but for the error number. If
the host has granted bytes and the buffer does not take all of them, they are
gone, and those before the first that was refused are in memory
(`Platform.Breaks`).

`Machine.read_fails` says which of these a read that returns minus one has come
to. A read that succeeds never returns that number: it stays below the longest
transfer. Where the buffer takes whatever the host grants only the first kind is
left, and a failed read changes nothing.
-/

namespace TypedCore

/-! ## Every memory of a platform -/

/-- Platforms of which each memory changed at some bus addresses at most. -/
def Platform.RamsChangedIn (S : Nat → Prop) (p q : Platform) : Prop :=
  ∀ (k : Nat) (r : Ram), p.bus.devices[k]? = some (.ram r) →
    ∃ r' : Ram, q.bus.devices[k]? = some (.ram r') ∧ r.ChangedIn S r'

/-- A write changes the bytes of one memory that it names, or those of none. -/
theorem Bus.writeBytes_rams {b : Bus} {k : Nat} {r : Ram} (hk : b.devices[k]? = some (.ram r))
    (addr : Word) (data : List Byte) :
    ∃ r', (b.writeBytes addr data).2.devices[k]? = some (.ram r') ∧
      r.ChangedIn (addr.span data.length) r' := by
  have hkept : ∃ r', b.devices[k]? = some (.ram r') ∧ r.ChangedIn (addr.span data.length) r' :=
    ⟨r, hk, .refl r⟩
  cases hroute : b.route addr data.length with
  | none =>
      unfold writeBytes
      rw [hroute]
      exact hkept
  | some i =>
      by_cases hik : i = k
      · subst hik
        have hc : r.Covers addr data.length := by
          have howns := owns_of_route hroute
          unfold owns at howns
          rw [hk] at howns
          exact of_decide_eq_true howns
        refine ⟨r.setBytes (addr.toNat - r.base.toNat) data, ?_, Ram.changedIn_setBytes hc rfl⟩
        obtain ⟨hi, -⟩ := List.getElem?_eq_some_iff.mp hk
        rw [writeBytes_of_route hroute hk hc]
        simp [hi]
      · unfold writeBytes
        rw [hroute]
        dsimp only
        split
        · exact hkept
        · split
          · refine ⟨r, ?_, .refl r⟩
            rw [← hk]
            exact List.getElem?_set_ne hik
          · exact hkept

namespace Platform

variable {S : Nat → Prop} {p q q' : Platform}

namespace RamsChangedIn

theorem trans (h₁ : p.RamsChangedIn S q) (h₂ : q.RamsChangedIn S q') : p.RamsChangedIn S q' := by
  intro k r hr
  obtain ⟨r₁, hr₁, hc₁⟩ := h₁ k r hr
  obtain ⟨r₂, hr₂, hc₂⟩ := h₂ k r₁ hr₁
  exact ⟨r₂, hr₂, hc₁.trans hc₂⟩

theorem of_sameContents (h : p.SameContents q) : p.RamsChangedIn S q :=
  fun _ r hr => ⟨r, h.ram hr, .refl r⟩

theorem write {mode : Mode} {addr value a : Word} {width : Width}
    (h : p.write mode addr width value = (.ok (), q)) (ha : p.physical mode addr .write = .ok a) :
    p.RamsChangedIn (a.span width.bytes) q := by
  intro k r hr
  rw [write_allowed (aligned_of_write h) ha] at h
  obtain rfl := (Prod.mk.inj h).2
  obtain ⟨r', hr', hc⟩ := Bus.writeBytes_rams hr a (bytesOfNat width.bytes value.toNat)
  rw [length_bytesOfNat] at hc
  exact ⟨r', hr', hc⟩

end RamsChangedIn

/-! ## Copies that break off -/

variable {addr : Word} {data : List Byte}

/-- From an address on, task memory takes some bytes and refuses the one after them. -/
def Breaks (p : Platform) (addr : Word) (data : List Byte) (q : Platform) : Prop :=
  ∃ front b back r fault, data = front ++ b :: back ∧ p.Writes addr front r ∧
    r.write .task (addr + BitVec.ofNat 32 front.length) .byte (b.setWidth 32) = (.error fault, q)

theorem Breaks.cons {b : Byte} (head : p.write .task addr .byte (b.setWidth 32) = (.ok (), q))
    (tail : q.Breaks (addr + 1) data q') : p.Breaks addr (b :: data) q' := by
  obtain ⟨front, c, back, r, fault, rfl, hfront, hfault⟩ := tail
  refine ⟨b :: front, c, back, r, fault, rfl, .cons head hfront, ?_⟩
  rwa [List.length_cons, Nat.add_comm, BitVec.ofNat_add, ← BitVec.add_assoc]

/-- Bytes are all taken, or the copy breaks off. -/
theorem writeBytes_cases (p : Platform) (addr : Word) (data : List Byte) :
    (∃ q, p.writeBytes addr data = (.ok (), q) ∧ p.Writes addr data q) ∨
      ∃ fault q, p.writeBytes addr data = (.error fault, q) ∧ p.Breaks addr data q := by
  fun_induction writeBytes p addr data with
  | case1 p addr => exact .inl ⟨p, rfl, .nil p addr⟩
  | case2 p addr b bs q hwrite ih =>
      obtain ⟨q', hq', hwrites⟩ | ⟨fault, q', hq', hbreaks⟩ := ih
      · exact .inl ⟨q', hq', .cons hwrite hwrites⟩
      · exact .inr ⟨fault, q', hq', .cons hwrite hbreaks⟩
  | case3 p addr b bs fault q hwrite =>
      exact .inr ⟨fault, q, rfl, [], b, bs, p, fault, rfl, .nil p addr, by simpa using hwrite⟩

/-! ## Servicing -/

section Read

variable {σ : Type} {host : Host σ} {args : SyscallArgs} {h h' : σ}

theorem serviceRead_overlong (hmax : maxTransfer < args.third.toNat) :
    p.serviceRead host args h = (.refused .badAddress, p, h) := by
  unfold serviceRead
  rw [if_pos hmax]

variable (hmax : args.third.toNat ≤ maxTransfer)
  (hv : host.answer (.read args.first.toInt args.third.toNat) h = (.ok data, h'))

include hmax hv

theorem serviceRead_oversized (hlen : args.third.toNat < data.length) :
    p.serviceRead host args h = (.refused .badAddress, p, h') := by
  unfold serviceRead
  rw [if_neg (Nat.not_lt.mpr hmax), hv]
  dsimp only
  rw [if_pos hlen]

theorem serviceRead_broken (hfits : data.length ≤ args.third.toNat) {fault : MemFault}
    (hw : p.writeBytes args.second data = (.error fault, q)) :
    p.serviceRead host args h = (.refused .badAddress, q, h') := by
  unfold serviceRead
  rw [if_neg (Nat.not_lt.mpr hmax), hv]
  dsimp only
  rw [if_neg (Nat.not_lt.mpr hfits), hw]

end Read

end Platform

/-! ## Steps -/

namespace Machine

variable {σ : Type} {m : Machine} {r : StepOutcome σ} {host : Host σ} {h h' : σ}
  {q : Platform}

/-- The bus addresses of the word for an error number, if one is given. -/
def errorWord (m : Machine) : Nat → Prop :=
  fun x => m.state.errorAddr ≠ 0 ∧
    ∃ a, m.platform.physical .task m.state.errorAddr .write = .ok a ∧ a.span 4 x

/-- A call that failed without having done anything has stored its error number at most. -/
theorem Fails.rams {ret : Word} {errno : Int} (hf : m.Fails r ret errno m.numbered) :
    m.platform.RamsChangedIn m.errorWord r.machine.platform := by
  obtain ⟨i, hi⟩ := m.numbered_usedLast
  have hsame : m.platform.SameContents m.numbered := hi ▸ .usedLast m.platform i
  have hkept : m.numbered.SameContents r.machine.platform →
      m.platform.RamsChangedIn m.errorWord r.machine.platform :=
    fun h => .of_sameContents (hsame.trans h)
  by_cases hzero : m.state.errorAddr = 0
  · exact hkept (hf.unnamed hzero).2
  by_cases hal : m.state.errorAddr.toNat % 4 = 0
  · rcases hw : m.numbered.write .task m.state.errorAddr .word (BitVec.ofInt 32 errno) with
      ⟨fault | _, q⟩
    · exact hkept (hf.unmapped hzero hal fault q hw).2
    · have hphys : ∃ a, m.numbered.physical .task m.state.errorAddr .write = .ok a := by
        cases hp : m.numbered.physical .task m.state.errorAddr .write with
        | ok a => exact ⟨a, rfl⟩
        | error fault =>
            rw [Platform.write_denied (Platform.aligned_of_write hw) hp] at hw
            cases hw
      obtain ⟨a, ha⟩ := hphys
      have ha' : m.platform.physical .task m.state.errorAddr .write = .ok a := by
        rw [hi] at ha
        exact ha
      have hwritten : m.numbered.RamsChangedIn m.errorWord q := by
        intro k ram hk
        obtain ⟨ram', hk', hc⟩ := Platform.RamsChangedIn.write hw ha k ram hk
        exact ⟨ram', hk', hc.base, hc.size, fun j hj => hc.bytes j fun hs => hj ⟨hzero, a, ha', hs⟩⟩
      exact (Platform.RamsChangedIn.of_sameContents hsame).trans
        (hwritten.trans (.of_sameContents (hf.stored hzero hal q hw).2))
  · exact hkept (hf.unaligned hal).2

section Calls

variable (hu : m.environment.isUser = true) (hi : m.insn? = some (.interrupt .syscall))
  (hn : m.callNumber = .ok 4)

include hu hi hn

omit hu hi hn in
theorem serviced_read {τ : Type} (host : Host τ) (h : τ) :
    m.serviced host h 4 =
      (.ok (m.numbered.serviceRead host m.state.callArgs h).1,
        (m.numbered.serviceRead host m.state.callArgs h).2) := rfl

/-- A read that is too long is refused without a word to the host. -/
theorem read_overlong (hmax : maxTransfer < m.state.callArgs.third.toNat) (host : Host σ) (h : σ) :
    m.requests host h = [] ∧ (m.step host h).host = h ∧
      m.Fails (m.step host h) 0xffffffff CallError.badAddress.number m.numbered := by
  have hs : ∀ {τ : Type} (host : Host τ) (h : τ),
      m.serviced host h 4 = (.ok (.refused .badAddress), m.numbered, h) := by
    intro τ host h
    rw [serviced_read, Platform.serviceRead_overlong hmax]
  obtain ⟨hfails, hhost⟩ := step_fails hu hi hn (hs host h)
  refine ⟨?_, hhost, hfails⟩
  rw [requests_eq hu hi hn, hs]

/-- A read that is not too long asks the host once. -/
theorem read_asks (hmax : m.state.callArgs.third.toNat ≤ maxTransfer) (host : Host σ) (h : σ) :
    let request : HostCall :=
      .read m.state.callArgs.first.toInt m.state.callArgs.third.toNat
    m.requests host h = [request] ∧ (m.step host h).host = (host.answer request h).2 := by
  constructor
  · rw [requests_eq hu hi hn, serviced_read, Platform.serviceRead_host hmax]
    rfl
  · rw [step_host hu hi hn, serviced_read, Platform.serviceRead_host hmax]

section Granted

variable {data : List Byte} (hmax : m.state.callArgs.third.toNat ≤ maxTransfer)
  (hv : (host.answer (.read m.state.callArgs.first.toInt m.state.callArgs.third.toNat) h).1 =
    .ok data)

include hmax hv

/-- Bytes that are all stored are counted, and their number is not that of a failure. -/
theorem read_succeeds (hfits : data.length ≤ m.state.callArgs.third.toNat)
    (hw : m.numbered.Writes m.state.callArgs.second data q) :
    ((m.step host h).machine.state.regs.read resultReg).value ≠ 0xffffffff := by
  have hs := serviced_read (m := m) host h
  rw [Platform.serviceRead_granted hmax (Prod.ext hv rfl) hfits hw] at hs
  rw [(step_returns hu hi hn hs).1.value]
  intro hone
  have hnat := congrArg BitVec.toNat (show BitVec.ofNat 32 data.length = 0xffffffff from hone)
  unfold maxTransfer at hmax
  rw [BitVec.toNat_ofNat, Nat.mod_eq_of_lt (by omega)] at hnat
  simp at hnat
  omega

/-- Bytes that were granted and not all stored: more than were asked for, or a copy that
broke off. -/
theorem read_lost
    (hret : ((m.step host h).machine.state.regs.read resultReg).value = 0xffffffff) :
    (m.state.callArgs.third.toNat < data.length ∧
      m.Fails (m.step host h) 0xffffffff CallError.badAddress.number m.numbered) ∨
    ∃ q, m.numbered.Breaks m.state.callArgs.second data q ∧
      m.Fails (m.step host h) 0xffffffff CallError.badAddress.number q := by
  have hs := serviced_read (m := m) host h
  by_cases hfits : data.length ≤ m.state.callArgs.third.toNat
  · obtain ⟨q, -, hw⟩ | ⟨fault, q, hq, hbreaks⟩ :=
      m.numbered.writeBytes_cases m.state.callArgs.second data
    · exact absurd hret (read_succeeds hu hi hn hmax hv hfits hw)
    · rw [Platform.serviceRead_broken hmax (Prod.ext hv rfl) hfits hq] at hs
      exact .inr ⟨q, hbreaks, (step_fails hu hi hn hs).1⟩
  · have hlen := Nat.lt_of_not_le hfits
    rw [Platform.serviceRead_oversized hmax (Prod.ext hv rfl) hlen] at hs
    exact .inl ⟨hlen, (step_fails hu hi hn hs).1⟩

end Granted

/-- A read that the host refuses has done nothing. -/
theorem read_refused (hmax : m.state.callArgs.third.toNat ≤ maxTransfer) {errno : Int}
    (hv : (host.answer (.read m.state.callArgs.first.toInt m.state.callArgs.third.toNat) h).1 =
      .error errno) : m.Fails (m.step host h) 0xffffffff errno m.numbered := by
  have hs := serviced_read (m := m) host h
  rw [Platform.serviceRead_refused hmax (Prod.ext hv rfl)] at hs
  exact (step_fails hu hi hn hs).1

end Calls

/-- A read of a user program that returns minus one. One that is too long has not asked the host,
any other has asked it once. If the host was not asked or refused, the call has failed and done
nothing else. If it granted bytes, they are gone: either they were more than the program asked
for, or the buffer took some and refused the next, and those before it are in memory.

So a failed read takes nothing from the host and leaves every memory as it was but for the error
number, wherever the buffer takes all that the host grants. -/
theorem read_fails (hu : m.environment.isUser = true)
    (hi : m.insn? = some (.interrupt .syscall)) (hn : m.callNumber = .ok 4) (host : Host σ) (h : σ)
    (hret : ((m.step host h).machine.state.regs.read resultReg).value = 0xffffffff) :
    let args := m.state.callArgs
    let request : HostCall := .read args.first.toInt args.third.toNat
    let r := m.step host h
    (maxTransfer < args.third.toNat → m.requests host h = [] ∧ r.host = h ∧
      m.Fails r 0xffffffff CallError.badAddress.number m.numbered) ∧
    (args.third.toNat ≤ maxTransfer →
      m.requests host h = [request] ∧ r.host = (host.answer request h).2 ∧
      (∀ errno, (host.answer request h).1 = .error errno →
        m.Fails r 0xffffffff errno m.numbered) ∧
      ∀ data, (host.answer request h).1 = .ok data →
        (args.third.toNat < data.length ∧
          m.Fails r 0xffffffff CallError.badAddress.number m.numbered) ∨
        ∃ q, m.numbered.Breaks args.second data q ∧
          m.Fails r 0xffffffff CallError.badAddress.number q) ∧
    ((∀ data, (host.answer request h).1 = .ok data → data.length ≤ args.third.toNat ∧
        ∃ q, m.numbered.Writes args.second data q) →
      (m.requests host h = [] ∧ r.host = h ∨
        ∃ errno, m.requests host h = [request] ∧ (host.answer request h).1 = .error errno) ∧
      m.platform.RamsChangedIn m.errorWord r.machine.platform) := by
  intro args request r
  refine ⟨fun hmax => read_overlong hu hi hn hmax host h, fun hmax => ?_, fun hstores => ?_⟩
  · obtain ⟨hrequests, hhost⟩ := read_asks hu hi hn hmax host h
    exact ⟨hrequests, hhost, fun errno hv => read_refused hu hi hn hmax hv,
      fun data hv => read_lost hu hi hn hmax hv hret⟩
  · rcases Nat.lt_or_ge maxTransfer args.third.toNat with hmax | hmax
    · obtain ⟨hrequests, hhost, hfails⟩ := read_overlong hu hi hn hmax host h
      exact ⟨.inl ⟨hrequests, hhost⟩, hfails.rams⟩
    · cases hv : (host.answer request h).1 with
      | ok data =>
          obtain ⟨hfits, q, hw⟩ := hstores data hv
          exact absurd hret (read_succeeds hu hi hn hmax hv hfits hw)
      | error errno =>
          exact ⟨.inr ⟨errno, (read_asks hu hi hn hmax host h).1, rfl⟩,
            (read_refused hu hi hn hmax hv).rams⟩

/-- A user program about to read two bytes to the last address of its memory. An error number is
to go to address 16. -/
def reading : Machine where
  state :=
    { regs := (((RegFile.set {} errorReg (.int 16)).set 5 (.int 63)).set 6 (.int 2)) }
  platform :=
    { model := .generic
      bus := { devices := [.ram (Ram.setBytes ⟨0, 64, ∅⟩ 0 [0x02, 0x00, 0x04, 0x00])] } }
  environment := .user

/-- A host whose descriptors all read from one stream of bytes. It refuses anything else. -/
def feed : Host (List Byte) where
  answer
    | .read _ len, bytes => (.ok (bytes.take len), bytes.drop len)
    | _, bytes => (.error 0, bytes)

/-- Given two bytes, it has lost both; refused, it has lost nothing. -/
theorem read_fails_reading :
    ((reading.step feed [1, 2]).host = [] ∧ ∃ q, reading.numbered.Breaks 63 [1, 2] q ∧
      reading.Fails (reading.step feed [1, 2]) 0xffffffff 14 q) ∧
    reading.requests Host.noting none = [.read 0 2] ∧
      reading.platform.RamsChangedIn reading.errorWord
        (reading.step Host.noting none).machine.platform := by
  have hi : reading.insn? = some (.interrupt .syscall) := by decide +kernel
  have hn : reading.callNumber = .ok 4 := by rfl
  constructor
  · obtain ⟨-, hasked, -⟩ := read_fails rfl hi hn feed [1, 2] (by decide +kernel)
    obtain ⟨-, hhost, -, hgranted⟩ := hasked (by decide)
    refine ⟨hhost, ?_⟩
    obtain ⟨hlen, -⟩ | hbreaks := hgranted [1, 2] rfl
    · exact absurd hlen (by decide)
    · exact hbreaks
  · obtain ⟨-, hasked, hstores⟩ := read_fails rfl hi hn Host.noting none (by decide +kernel)
    exact ⟨(hasked (by decide)).1, (hstores fun data hdata => by cases hdata).2⟩

/-- A read that returns minus one need not leave the descriptor where it was, nor memory. -/
theorem read_fails_midway :
    (¬∀ (m : Machine) bytes, m.environment.isUser = true → m.insn? = some (.interrupt .syscall) →
      m.callNumber = .ok 4 →
      ((m.step feed bytes).machine.state.regs.read resultReg).value = 0xffffffff →
      (m.step feed bytes).host = bytes) ∧
    ¬∀ (m : Machine) bytes, m.environment.isUser = true → m.insn? = some (.interrupt .syscall) →
      m.callNumber = .ok 4 →
      ((m.step feed bytes).machine.state.regs.read resultReg).value = 0xffffffff →
      m.platform.RamsChangedIn m.errorWord (m.step feed bytes).machine.platform := by
  have hi : reading.insn? = some (.interrupt .syscall) := by decide +kernel
  have hn : reading.callNumber = .ok 4 := by rfl
  have hret : ((reading.step feed [1, 2]).machine.state.regs.read resultReg).value =
      0xffffffff := by decide +kernel
  constructor
  · intro hall
    have hhost : (reading.step feed [1, 2]).host = [] := by decide +kernel
    rw [hall reading [1, 2] rfl hi hn hret] at hhost
    cases hhost
  · intro hall
    obtain ⟨r', hr', hchanged⟩ := hall reading [1, 2] rfl hi hn hret 0 _ rfl
    have hlast := hchanged.bytes 63 fun hword => by
      obtain ⟨-, a, ha, -, hhigh⟩ := hword
      obtain rfl := Except.ok.inj ha
      exact absurd hhigh (by decide)
    have hstored : ((reading.step feed [1, 2]).machine.platform.bus.devices[0]?.bind fun d =>
        (d.read 63 1).map Prod.fst) = some [1] := by decide +kernel
    rw [hr'] at hstored
    obtain ⟨-, hone⟩ : 64 ≤ r'.size ∧ r'.byte 63 = 1 := by
      simpa [Device.read, Ram.read] using hstored
    rw [hlast] at hone
    revert hone
    decide +kernel

end Machine

end TypedCore
