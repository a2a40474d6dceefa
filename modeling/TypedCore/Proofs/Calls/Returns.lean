import TypedCore.Proofs.Calls.Endings
import TypedCore.Proofs.Calls.Service
import TypedCore.Proofs.Models.Agreement

/-!
# System calls return

The loop that reads a path for a system call has no bound. `Platform.serviceBy` is
the service of a call with the way to read paths left open: with the bounded
reading of the model it is the service of the model
(`Platform.serviceBy_boundedPath`), with `Platform.chasePath` its loops go on until
something ends them.

Something always does, and not because memory is small: the largest one fills all
of what a window can show. It is the call itself. Its number was fetched from
memory, and the high byte of a number that asks for a path is zero
(`Platform.zero_of_fetchHalf`). So `Machine.syscall_returns` has no hypothesis about
what memory holds.
-/

namespace TypedCore

namespace Platform

variable {p q : Platform} {addr : Word} {r : Ram}

/-! ## The number of a call -/

/-- The number of a call is in memory, and below 256 its second byte is zero. -/
theorem zero_of_fetchHalf {mode : Mode} {number : Half} (hb : p.bus.Fronted r)
    (h : p.fetchHalf mode addr = (.ok number, q)) (hnumber : number.toNat < 256) :
    q = p.usedLast 0 ∧ ∃ z : Word, z.toNat < r.size ∧ r.byte z.toNat = 0 := by
  rw [fetchHalf_eq] at h
  obtain ⟨hvalue, hq⟩ := Prod.mk.inj h
  cases hal : Width.half.isAligned addr with
  | false =>
      rw [load_unaligned hal] at hvalue
      cases hvalue
  | true =>
      cases hphys : p.physical mode addr .fetch with
      | error fault =>
          rw [load_denied hal hphys] at hvalue
          cases hvalue
      | ok a =>
          rw [load_allowed hal hphys] at hvalue hq
          cases hbytes : (p.bus.readBytes a Width.half.bytes).1 with
          | none =>
              rw [hbytes] at hvalue
              cases hvalue
          | some bytes =>
              obtain ⟨hsize, hread⟩ := hb.readBytes_half hbytes
              have hread' : p.bus.readBytes a Width.half.bytes = _ := hread
              have hmax := hb.size
              rw [hread'] at hvalue hq
              have hnext : (a + 1).toNat = a.toNat + 1 := by
                have hadd : (a + 1).toNat = (a.toNat + 1) % 2 ^ 32 := BitVec.toNat_add a 1
                have hlimit : maxRamSize = 0x10000000 := rfl
                omega
              refine ⟨hq.symm, a + 1, by omega, ?_⟩
              have hspelt : number.toNat =
                  (r.byte a.toNat).toNat + 256 * (r.byte (a.toNat + 1)).toNat := by
                rw [← Except.ok.inj hvalue]
                have hlow := (r.byte a.toNat).isLt
                have hhigh := (r.byte (a.toNat + 1)).isLt
                simp [Word.ofBytes, natOfBytes]
                omega
              rw [hnext]
              exact BitVec.eq_of_toNat_eq (by show _ = 0; omega)

end Platform

/-! ## Calls that read paths -/

/-- Whether a call reads a path. -/
def Syscall.hasPath : Syscall → Bool
  | openFile | unlink | changeDir | changeMode | link => true
  | _ => false

/-- The calls with paths have numbers of one byte. -/
theorem Syscall.number_lt {n : Nat} {call : Syscall} (h : ofNumber? n = some call)
    (hp : call.hasPath = true) : n < 256 := by
  unfold ofNumber? at h
  split at h <;> first | omega | (cases h <;> cases hp)

namespace Platform

variable {σ : Type}

/-- A way to read paths, which may have no end. A path of none is one that cannot be read. -/
def PathReader : Type := Platform → Word → Part (Option (List Byte) × Platform)

/-- Reads a path by the loop that only a zero byte or a fault ends. -/
def chasePath : PathReader := fun p addr =>
  (chase [] addr p).map fun (x, p) => (x.toOption, p)

/-- The service of a call with a given way to read paths. -/
def serviceBy (read : PathReader) (p : Platform) (host : Host σ) (call : Option Syscall)
    (args : SyscallArgs) (h : σ) : Part (Except HostFault SyscallReply × Platform × σ) :=
  let withPath (ask : List Byte → SyscallReply × σ) := do
    match ← read p args.first with
    | (some path, p) =>
      let (reply, h) := ask path
      return (.ok reply, p, h)
    | (none, p) => return (.ok (.refused .badAddress), p, h)
  match call with
  | some .openFile =>
    withPath fun path => host.pass (.openFile path (hostOpenFlags args.second) args.third) h id
  | some .unlink => withPath fun path => host.pass (.unlink path) h id
  | some .changeDir => withPath fun path => host.pass (.changeDir path) h id
  | some .changeMode => withPath fun path => host.pass (.changeMode path args.second) h id
  | some .link => do
    let (old, p) ← read p args.first
    let (new, p) ← read p args.second
    match old, new with
    | some old, some new =>
      let (reply, h) := host.pass (.link old new) h id
      return (.ok reply, p, h)
    | _, _ => return (.ok (.refused .badAddress), p, h)
  | call => Part.some (p.service host call args h)

/-- Reads a path as the model does, looking at as many bytes as there are addresses. -/
def boundedPath : PathReader := fun p addr => Part.some (p.readPath addr)

theorem serviceBy_boundedPath (p : Platform) (host : Host σ) (call : Option Syscall)
    (args : SyscallArgs) (h : σ) :
    serviceBy boundedPath p host call args h = Part.some (p.service host call args h) := by
  cases call with
  | none => rfl
  | some call =>
      cases call with
      | openFile | unlink | changeDir | changeMode =>
          simp only [serviceBy, service, withPath, boundedPath, Part.bind_eq_bind, Part.bind_some]
          cases hread : p.readPath args.first with
          | mk path q => cases path <;> rfl
      | link =>
          simp only [serviceBy, service, serviceLink, boundedPath, Part.bind_eq_bind,
            Part.bind_some]
          cases hold : p.readPath args.first with
          | mk old q =>
              cases hnew : q.readPath args.second with
              | mk new q' =>
                  cases old <;> cases new <;> rfl
      | _ => rfl

/-- The loops of a call: from where it reads a path, and on which platform. Both paths of a
link are read before either is looked at. -/
inductive PathLoop (p : Platform) (args : SyscallArgs) : Syscall → Platform → Word → Prop
  | first {call : Syscall} (h : call.hasPath = true) : PathLoop p args call p args.first
  | second : PathLoop p args .link (p.readPath args.first).2 args.second

theorem chasePath_eq {p q : Platform} {addr : Word} {x : Except MemFault (List Byte)}
    (h : scanString [] 0x100000000 addr p = (some x, q)) :
    chasePath p addr = boundedPath p addr := by
  rw [chasePath, chase_of_scanString h, boundedPath, readPath, h]
  cases x <;> rfl

theorem serviceBy_chasePath {p : Platform} {args : SyscallArgs} {call : Syscall}
    (hends : ∀ q addr, PathLoop p args call q addr → chasePath q addr = boundedPath q addr)
    (host : Host σ) (h : σ) :
    serviceBy chasePath p host (some call) args h =
      Part.some (p.service host (some call) args h) := by
  rw [← serviceBy_boundedPath]
  cases call with
  | openFile | unlink | changeDir | changeMode =>
      simp only [serviceBy]
      rw [hends _ _ (.first rfl)]
  | link =>
      have hsecond := hends _ _ .second
      simp only [serviceBy]
      rw [hends _ _ (.first rfl)]
      simp only [boundedPath, Part.bind_eq_bind, Part.bind_some]
      rw [hsecond, boundedPath, Part.bind_some]
  | _ => rfl

end Platform

variable {σ : Type}

/-- The service of the call that the task just made, with a given way to read paths. -/
def State.syscallBy (read : Platform.PathReader) (s : State) (p : Platform) (host : Host σ)
    (h : σ) : Part (Response σ) :=
  match p.fetchHalf .task (s.tpc.even + 2) with
  | (.error fault, p) => Part.some ⟨.ok (some (.bySignal fault.cause.signal)), s, p, h⟩
  | (.ok number, p) => do
    let s := { s with nextTpc := s.tpc.even + 4 }
    match ← p.serviceBy read host (Syscall.ofNumber? number.toNat) s.callArgs h with
    | (.error e, p, h) => return ⟨.error e, s, p, h⟩
    | (.ok reply, p, h) => return s.delivered p reply h

/-- A way to read paths makes no difference to a call if it makes none to its service. -/
theorem State.syscallBy_eq {read : Platform.PathReader} {s : State} {p : Platform} {host : Host σ}
    {h : σ}
    (hs : ∀ number q, p.fetchHalf .task (s.tpc.even + 2) = (.ok number, q) →
      q.serviceBy read host (Syscall.ofNumber? number.toNat) s.callArgs h =
        Part.some (q.service host (Syscall.ofNumber? number.toNat) s.callArgs h)) :
    s.syscallBy read p host h = Part.some (s.syscall p host h) := by
  unfold syscallBy
  cases hf : p.fetchHalf .task (s.tpc.even + 2) with
  | mk x q =>
      cases x with
      | error fault => rw [syscall_unfetched hf]
      | ok number =>
          have hargs : { s with nextTpc := s.tpc.even + 4 }.callArgs = s.callArgs := rfl
          rw [syscall_fetched hf]
          dsimp only
          rw [hargs, hs number q hf, Part.bind_eq_bind, Part.bind_some]
          generalize q.service host (Syscall.ofNumber? number.toNat) s.callArgs h = reply
          obtain ⟨reply | reply, q', h'⟩ := reply <;> rfl

/-! ## Configured machines -/

/-- The memory of a configuration is in front of its other devices. -/
theorem Config.front (c : Config) :
    ∃ ds, (Platform.ofConfigAt c ramBase).bus.devices =
        .ram { base := ramBase, size := c.ramSize } :: ds ∧
      (∀ d ∈ ds, d.isRam = false) ∧ (c.model = .windowed → ds = []) := by
  unfold Platform.ofConfigAt devicesAt
  cases c.model with
  | generic => exact ⟨[], rfl, by simp, fun _ => rfl⟩
  | windowed => exact ⟨[], rfl, by simp, fun _ => rfl⟩
  | peripheral =>
      obtain ⟨ds, hds, hperm⟩ :=
        Bus.front_ofDevices (r := { base := ramBase, size := c.ramSize }) rfl c.others
      refine ⟨ds, hds, fun d hd => ?_, fun h => by cases h⟩
      have hmem := hperm.mem_iff.mp hd
      unfold others at hmem
      obtain rfl | hmem := List.mem_cons.mp hmem
      · rfl
      · obtain ⟨g, -, rfl⟩ := List.mem_map.mp hmem
        rfl

theorem Config.Describes.fronted {c : Config} {m : Machine} (h : c.Describes ramBase m)
    (hsize : c.ramSize ≤ maxRamSize) :
    ∃ r, m.platform.bus.Fronted r ∧
      (m.platform.model = .windowed → m.platform.bus.devices = [.ram r]) := by
  obtain ⟨ds, hds, hno, hwindowed⟩ := c.front
  have hlayout := h.layout
  unfold Bus.layout at hlayout
  rw [hds, List.map_cons] at hlayout
  obtain ⟨d, es, hes, hd, hrest⟩ := List.map_eq_cons_iff.mp hlayout
  obtain ⟨r, rfl, hbase, hrsize⟩ :
      ∃ r : Ram, d = .ram r ∧ r.base = ramBase ∧ r.size = c.ramSize := by
    cases d with
    | ram r =>
        obtain ⟨hbase, hrsize, -⟩ := Ram.mk.inj (Device.ram.inj hd)
        exact ⟨r, rfl, hbase, hrsize⟩
    | console c => cases hd
    | gpio g => cases hd
  refine ⟨r, ⟨⟨es, hes, fun e he => ?_⟩, hbase, hrsize ▸ hsize⟩, fun hm => ?_⟩
  · have hmem : e.blank ∈ ds.map Device.blank := hrest ▸ List.mem_map_of_mem he
    obtain ⟨d', hd', heq⟩ := List.mem_map.mp hmem
    rw [← Device.isRam_blank, ← heq, Device.isRam_blank]
    exact hno d' hd'
  · rw [hwindowed (h.model.symm.trans hm), List.map_nil] at hrest
    rw [hes, List.map_eq_nil_iff.mp hrest]

/-! ## Steps -/

namespace Machine

variable {m : Machine}

/-- The loops of the next instruction end, if that is a system call: its own number puts a
zero byte into memory, and memory was used last to fetch it. -/
theorem loops_end {c : Config} (hsize : c.ramSize ≤ maxRamSize) (hm : c.Describes ramBase m)
    {number : Half} {call : Syscall} (hn : m.callNumber = .ok number)
    (hcall : Syscall.ofNumber? number.toNat = some call) {q : Platform} {addr : Word}
    (hl : m.numbered.PathLoop m.state.callArgs call q addr) :
    ∃ x q', Platform.scanString [] 0x100000000 addr q = (some x, q') := by
  obtain ⟨i, hi⟩ := m.fetched_usedLast
  obtain ⟨r, hb, hwindowed⟩ := hm.fronted hsize
  have hpath : call.hasPath = true := by
    cases hl with
    | first h => exact h
    | second => rfl
  have hfetched : m.fetched.2.bus.Fronted r := by
    rw [hi]
    exact ⟨hb.front, hb.base, hb.size⟩
  have hfetch : m.fetched.2.fetchHalf .task (m.state.tpc.even + 2) = (.ok number, m.numbered) :=
    Prod.ext hn rfl
  obtain ⟨hnumbered, z, hz, hbyte⟩ :=
    Platform.zero_of_fetchHalf hfetched hfetch (Syscall.number_lt hcall hpath)
  obtain ⟨hfirst, hsecond⟩ := Platform.loopsEnd_of_zero (p := m.numbered) (r := r)
    (by rw [hnumbered]; exact ⟨hfetched.front, hfetched.base, hfetched.size⟩)
    (by rw [hnumbered, hi]; exact hwindowed) (by rw [hnumbered]; rfl) hz hbyte
  cases hl with
  | first h => exact hfirst _
  | second => exact hsecond _ _

/-- A system call of the user environment returns, on every machine whose configuration asks
for no more memory than there are addresses: each loop over a path ends within one turn of
the address space, with a zero byte or a fault, and the step is the one with loops that
nothing else ends. -/
theorem syscall_returns {σ : Type} {c : Config} (hc : c.ramSizeOk = true)
    (hm : c.Describes ramBase m) (hu : m.environment.isUser = true)
    (hi : m.insn? = some (.interrupt .syscall)) (host : Host σ) (h : σ) :
    (∀ number call, m.callNumber = .ok number → Syscall.ofNumber? number.toNat = some call →
      ∀ q addr, m.numbered.PathLoop m.state.callArgs call q addr →
        ∃ n < 2 ^ 32, q.StopsAfter addr n) ∧
    ∃ response, (m.raisedState (.raise .syscall)).syscallBy Platform.chasePath m.fetched.2 host h =
        Part.some response ∧
      (m.step host h).Follows
        ⟨m.raisedState (.raise .syscall), m.fetched.2, m.environment, m.interruptPending⟩
        response := by
  have hsize := Config.ramSize_le hc
  constructor
  · intro number call hn hcall q addr hl
    obtain ⟨x, q', hs⟩ := loops_end hsize hm hn hcall hl
    exact Platform.stops_of_scanString hs
  · refine ⟨_, State.syscallBy_eq fun number q hf => ?_, step_calls hu hi host h⟩
    have hn : m.callNumber = .ok number := congrArg Prod.fst hf
    obtain rfl : m.numbered = q := congrArg Prod.snd hf
    cases hcall : Syscall.ofNumber? number.toNat with
    | none => rfl
    | some call =>
        refine Platform.serviceBy_chasePath (fun q addr hl => ?_) host h
        obtain ⟨x, q', hs⟩ := loops_end hsize hm hn hcall hl
        exact Platform.chasePath_eq hs

/-- A configuration with a console over the last two bytes of memory. -/
def consoleAtEnd : Config :=
  { model := .peripheral, ramSize := 64, consoleBase := 62, gpios := [] }

/-- A user program about to link one path to another. The first is in the console behind
memory, the second begins where both memory and console are. -/
def linking : Machine where
  state := { regs := RegFile.set (RegFile.set {} resultReg (.int 64)) (resultReg + 1) (.int 62) }
  platform :=
    { model := .peripheral
      bus :=
        { devices := [.ram (Ram.setBytes ⟨0, 64, ∅⟩ 0 [0x02, 0x00, 0x15, 0x00]),
            .console { base := 62, received := [7] }] } }
  environment := .user

theorem syscall_returns_linking :
    consoleAtEnd.ramSizeOk = true ∧ consoleAtEnd.Describes ramBase linking ∧
      linking.insn? = some (.interrupt .syscall) ∧ linking.callNumber = .ok 21 ∧
      (∃ n < 2 ^ 32, (linking.numbered.readPath 64).2.StopsAfter 62 n) ∧
      ∃ response, (linking.raisedState (.raise .syscall)).syscallBy Platform.chasePath
        linking.fetched.2 Host.noting none = Part.some response := by
  have hc : consoleAtEnd.ramSizeOk = true := rfl
  have hm : consoleAtEnd.Describes ramBase linking := ⟨rfl, rfl, rfl⟩
  have hi : linking.insn? = some (.interrupt .syscall) := by decide +kernel
  have hn : linking.callNumber = .ok 21 := by rfl
  obtain ⟨hloops, response, hresponse, -⟩ := syscall_returns hc hm rfl hi Host.noting none
  exact ⟨hc, hm, hi, hn, hloops 21 .link hn rfl _ _ .second, response, hresponse⟩

end Machine

end TypedCore
