import TypedCore.Proofs.HostFaults.Missing
import TypedCore.Proofs.Memory.Routing

/-!
# Faults of the simulator change nothing

A step that ends in a fault of the simulator comes from one of four depths: from
executing the instruction, from its status register, or, when a call is not
built, from the reaction to the call. In each case no more has happened than
looking for the instruction in memory, and the shadow was moved but never made
current.

That the same fault comes again is not for free: the bus tries the device first
that it used last, and devices may overlap. But only memory answers a fetch, and
there is only one memory, so what was fetched once is fetched again
(`fetch_again`).
-/

namespace TypedCore

/-! ## Fetching again -/

namespace Bus

variable {b c : Bus} {addr : Word} {k : Nat} {bytes : List Byte}

/-- A halfword that was read is read again, whichever device was used last before. -/
theorem readBytes_again (hk : b.RamAt k) (h : b.readBytes addr 2 = (some bytes, c)) :
    c = b.usedLast k ∧ (b.usedLast k).readBytes addr 2 = (some bytes, b.usedLast k) := by
  unfold readBytes at h
  split at h
  · cases h
  · rename_i i hroute
    split at h
    · cases h
    · rename_i d hd
      split at h
      · rename_i bytes' d' hread
        obtain ⟨r, rfl⟩ := Device.isRam_of_read hread
        obtain rfl := hk i r hd
        obtain rfl := Device.eq_of_read (by decide) hread
        -- Memory does not change when it is read: all that is left is the note of who answered.
        have hset : b.devices.set i (.ram r) = b.devices := by
          obtain ⟨hi, hget⟩ := List.getElem?_eq_some_iff.mp hd
          rw [← hget, List.set_getElem_self]
        obtain ⟨hbytes, rfl⟩ := Prod.mk.inj h
        obtain rfl := Option.some.inj hbytes
        have howns : b.owns addr 2 i = true := owns_of_route hroute
        have hagain : (b.usedLast i).route addr 2 = some i := route_last (b := b.usedLast i) howns
        refine ⟨by rw [hset]; rfl, ?_⟩
        unfold readBytes
        rw [hagain]
        simp only [usedLast, hd, hread, hset]
      · cases h

theorem readHalf_again {v : Word} (hk : b.RamAt k) (h : b.read addr .half = (some v, c)) :
    c = b.usedLast k ∧ (b.usedLast k).read addr .half = (some v, b.usedLast k) := by
  unfold read at h ⊢
  cases hread : b.readBytes addr Width.half.bytes with
  | mk answer c' =>
      rw [hread] at h
      obtain ⟨hv, rfl⟩ := Prod.mk.inj h
      obtain ⟨bytes, rfl, rfl⟩ := Option.map_eq_some_iff.mp hv
      obtain ⟨rfl, hagain⟩ := readBytes_again hk hread
      have hbytes : (b.usedLast k).readBytes addr Width.half.bytes = (some bytes, b.usedLast k) :=
        hagain
      exact ⟨rfl, by rw [hbytes]; rfl⟩

end Bus

namespace Platform

variable {p q : Platform} {mode : Mode} {addr pc ext : Word} {half : Half} {d : Decoded} {k : Nat}

theorem load_again {v : Word} {access : Access} (hk : p.bus.RamAt k)
    (h : p.load mode addr .half access = (.ok v, q)) :
    q = p.usedLast k ∧ (p.usedLast k).load mode addr .half access = (.ok v, p.usedLast k) := by
  unfold load at h ⊢
  split at h
  · rename_i haligned
    have hphysical : (p.usedLast k).physical mode addr access = p.physical mode addr access := rfl
    rw [if_pos haligned, hphysical]
    split at h
    · cases h
    · split at h <;> rename_i hread
      · obtain ⟨hv, rfl⟩ := Prod.mk.inj h
        obtain rfl := Except.ok.inj hv
        obtain ⟨rfl, hagain⟩ := Bus.readHalf_again hk hread
        have hbus : (p.usedLast k).bus.read _ .half = _ := hagain
        rw [hbus]
        exact ⟨rfl, rfl⟩
      · cases h
  · cases h

/-- Halfwords that were fetched are fetched again. -/
theorem fetchHalf_again (hk : p.bus.RamAt k) (h : p.fetchHalf mode addr = (.ok half, q)) :
    q = p.usedLast k ∧ (p.usedLast k).fetchHalf mode addr = (.ok half, p.usedLast k) := by
  unfold fetchHalf at h ⊢
  split at h
  · rename_i hload
    obtain ⟨rfl, hagain⟩ := load_again hk hload
    obtain ⟨hv, -⟩ := Prod.mk.inj h
    obtain rfl := Except.ok.inj hv
    rw [hagain]
    exact ⟨(Prod.mk.inj h).2.symm, rfl⟩
  · cases h

theorem fetchExtension_again {len : Nat} (hk : p.bus.RamAt k)
    (h : (p.usedLast k).fetchExtension mode pc len = (.ok ext, q)) : q = p.usedLast k := by
  unfold fetchExtension at h
  split at h
  · exact (Prod.mk.inj h).2.symm
  · split at h <;> rename_i hlow
    · obtain ⟨-, rfl⟩ := Prod.mk.inj h
      exact (fetchHalf_again (p := p.usedLast k) hk hlow).1
    · cases h
  · split at h <;> rename_i hlow
    · cases h
    · obtain ⟨rfl, -⟩ := fetchHalf_again (p := p.usedLast k) hk hlow
      split at h <;> rename_i hhigh
      · obtain ⟨-, rfl⟩ := Prod.mk.inj h
        exact (fetchHalf_again (p := p.usedLast k) hk hhigh).1
      · cases h

/-- An instruction that was fetched is fetched again. -/
theorem fetch_again (hk : p.bus.RamAt k) (h : p.fetch mode pc = (.ok d, q)) :
    q = p.usedLast k ∧ (p.usedLast k).fetch mode pc = (.ok d, p.usedLast k) := by
  unfold fetch at h ⊢
  split at h <;> rename_i hword
  · cases h
  · obtain ⟨rfl, hagain⟩ := fetchHalf_again hk hword
    rw [hagain]
    dsimp only
    split at h <;> rename_i hext
    · obtain rfl := fetchExtension_again hk hext
      exact ⟨(Prod.mk.inj h).2.symm, by rw [(Prod.mk.inj h).1]⟩
    · cases h

end Platform

/-! ## The step -/

theorem State.SameProgram.pc {s t : State} (h : s.SameProgram t) : t.pc = s.pc := by
  unfold State.pc
  rw [h.mode, h.tpc, h.spc]

namespace Machine

variable {σ : Type} {m n : Machine} {insn : Insn} {e : HostFault} {k : Nat}

theorem Lacks.insn? (hl : m.Lacks e) : ∃ insn, m.insn? = some insn := by
  cases hl with
  | interpolation hi => exact ⟨_, hi⟩
  | csr hi haddr he => exact ⟨_, hi⟩
  | call hu hi hn hw => exact ⟨_, hi⟩

/-- Where a program goes on as if nothing had happened, it finds the same instruction. -/
theorem fetched_again (hk : m.platform.bus.RamAt k) (hi : m.insn? = some insn)
    (hs : m.state.SameProgram n.state) (hp : n.platform = m.platform.usedLast k) :
    m.fetched.2 = m.platform.usedLast k ∧ n.fetched = m.fetched := by
  obtain ⟨d, hd, -⟩ := Option.map_eq_some_iff.mp hi
  cases hf : m.fetched with
  | mk answer q =>
      rw [hf] at hd
      cases answer with
      | error fault => cases hd
      | ok d' =>
          obtain ⟨rfl, hagain⟩ := Platform.fetch_again hk hf
          refine ⟨rfl, ?_⟩
          rw [fetched, hp, hs.mode, hs.pc]
          exact hagain

/-- A machine that lacks something lacks it again where a program goes on as if nothing had
happened. -/
theorem Lacks.again (hl : m.Lacks e) (hk : m.platform.bus.RamAt k)
    (hs : m.state.SameProgram n.state) (hp : n.platform = m.platform.usedLast k)
    (henv : n.environment = m.environment) : n.Lacks e := by
  obtain ⟨insn, hi⟩ := hl.insn?
  obtain ⟨-, hf⟩ := fetched_again hk hi hs hp
  have hinsn : n.insn? = m.insn? := by rw [Machine.insn?, Machine.insn?, hf]
  cases hl with
  | interpolation hi => exact .interpolation (hinsn.trans hi)
  | csr hi haddr he =>
      have hmodel : n.platform.model = m.platform.model := by rw [hp]; rfl
      exact .csr (hinsn.trans hi) haddr (hmodel ▸ he)
  | call hu hi hn hw =>
      have hnumber : n.callNumber = m.callNumber := by rw [callNumber, callNumber, hf, hs.tpc]
      exact .call (henv ▸ hu) (hinsn.trans hi) (hnumber.trans hn) hw

/-- A machine after which a program can go on as if nothing had happened: registers, program
counters and mode are as before, and so are windows, memory and devices, up to the note of the
device that was used last. -/
structure Unmoved (m n : Machine) : Prop where
  state : m.state.SameProgram n.state
  platform : ∃ i, n.platform = m.platform.usedLast i
  environment : n.environment = m.environment
  interruptPending : n.interruptPending = m.interruptPending

/-- What a faulting step leaves of the platform: it was fetched from, and no more. -/
theorem step_lacks_ramAt (hl : m.Lacks e) (hk : m.platform.bus.RamAt k) (host : Host σ) (h : σ) :
    ∃ t, m.state.SameProgram t ∧ (m.step host h).Leaves (.error e)
      ⟨t, m.platform.usedLast k, m.environment, m.interruptPending⟩ h := by
  obtain ⟨insn, hi⟩ := hl.insn?
  obtain ⟨t, q, hs, hq, hleaves⟩ := step_lacks hl host h
  obtain ⟨hfetched, -⟩ :=
    fetched_again (n := { m with platform := m.platform.usedLast k }) hk hi ⟨rfl, rfl, rfl, rfl⟩ rfl
  rcases hq with rfl | ⟨number, hnumber⟩
  · exact ⟨t, hs, hfetched ▸ hleaves⟩
  · rw [hfetched] at hnumber
    obtain ⟨rfl, -⟩ := Platform.fetchHalf_again (p := m.platform.usedLast k) hk hnumber
    exact ⟨t, hs, hleaves⟩

/-- A step that ends in a fault of the simulator leaves the machine where it was, with an
interrupt still waiting if one was, and has asked the host for nothing. The next step ends in the
same fault, whatever has become of the host. -/
theorem fault_unmoved (hr : m.Reachable) (host : Host σ) (h : σ)
    (he : (m.step host h).result = .error e) :
    m.Unmoved (m.step host h).machine ∧ (m.step host h).host = h ∧
      ∀ h', ((m.step host h).machine.step host h').result = .error e := by
  have hl := lacks_of_step he
  obtain ⟨k, hk⟩ := hr.oneRam.ramAt
  obtain ⟨t, hs, hleaves⟩ := step_lacks_ramAt hl hk host h
  have hstate : m.state.SameProgram (m.step host h).machine.state := hleaves.state.symm ▸ hs
  refine ⟨⟨hstate, ⟨k, hleaves.platform⟩, hleaves.environment, hleaves.interruptPending⟩,
    hleaves.host, ?_⟩
  intro h'
  exact (step_error_iff _ host h' e).mpr (hl.again hk hstate hleaves.platform hleaves.environment)

/-- A user program that asks for the time of day, a call that is not built. -/
def askingTime : Machine :=
  ((Machine.ofConfig {} (.ofConfigAt {} 0)).load ⟨0, [⟨0, [0x02, 0, 19, 0]⟩], false⟩ [] 0x1000).2

theorem fault_unmoved_askingTime :
    (askingTime.step Host.noting none).result = .error (.unimplemented .gettimeofdayCall) ∧
      askingTime.Unmoved (askingTime.step Host.noting none).machine := by
  have hr : askingTime.Reachable :=
    .acted (.built {} 0) Host.noting none (.load ⟨0, [⟨0, [0x02, 0, 19, 0]⟩], false⟩ [] 0x1000)
  have he : (askingTime.step Host.noting none).result =
      .error (.unimplemented .gettimeofdayCall) := by
    rfl
  exact ⟨he, (fault_unmoved hr Host.noting none he).1⟩

end Machine

end TypedCore
