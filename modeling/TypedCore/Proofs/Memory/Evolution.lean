import TypedCore.Proofs.Execution.Run

/-!
# What a machine does to its bus

Whatever a program does, its calls to the host included, and whatever is loaded,
the bus sees no more than reads, writes and collected exit requests, one after
the other. `Bus.Evolves` is the relation of a bus to what it can become by them,
and a platform's bus always does (`act_evolves`).

What each single access keeps, a whole run therefore keeps, by an induction with
four cases.
-/

namespace TypedCore

/-! ## Accesses one after the other -/

/-- What a bus can become by accesses, answered or not, and by collecting exit requests. -/
inductive Bus.Evolves (b : Bus) : Bus → Prop where
  | refl : Evolves b b
  | read {c : Bus} (h : Evolves b c) (addr : Word) (len : Nat) : Evolves b (c.readBytes addr len).2
  | write {c : Bus} (h : Evolves b c) (addr : Word) (data : List Byte) :
      Evolves b (c.writeBytes addr data).2
  | exit {c : Bus} (h : Evolves b c) : Evolves b c.takeExit.2

namespace Bus.Evolves

variable {b c d : Bus}

theorem trans (h₁ : b.Evolves c) (h₂ : c.Evolves d) : b.Evolves d := by
  induction h₂ with
  | refl => exact h₁
  | read _ addr len ih => exact ih.read addr len
  | write _ addr data ih => exact ih.write addr data
  | exit _ ih => exact ih.exit

theorem ofRead {addr : Word} {width : Width} {x : Option Word} (h : b.read addr width = (x, c)) :
    b.Evolves c := by
  have hc : (b.readBytes addr width.bytes).2 = c := congrArg Prod.snd h
  exact hc ▸ .read .refl addr width.bytes

theorem ofWrite {addr value : Word} {width : Width} {taken : Bool}
    (h : b.write addr width value = (taken, c)) : b.Evolves c := by
  have hc : (b.writeBytes addr (bytesOfNat width.bytes value.toNat)).2 = c := congrArg Prod.snd h
  exact hc ▸ .write .refl addr _

theorem writeEach (b : Bus) (addr : Word) (data : List Byte) :
    b.Evolves (b.writeEach addr data).2 := by
  induction data generalizing b addr with
  | nil => exact .refl
  | cons byte rest ih =>
      unfold Bus.writeEach
      have hone := Bus.Evolves.refl (b := b) |>.write addr [byte]
      split <;> rename_i c hwrite <;> rw [hwrite] at hone
      · exact hone.trans (ih c (addr + 1))
      · exact hone

theorem load (b : Bus) (addr : Word) (data : List Byte) : b.Evolves (b.load addr data).2 := by
  unfold Bus.load
  have hall := Bus.Evolves.refl (b := b) |>.write addr data
  split <;> rename_i c hwrite <;> rw [hwrite] at hall
  · exact hall
  · exact hall.trans (writeEach c addr data)

theorem placeAll (segments : List Segment) (b : Bus) :
    b.Evolves (Image.placeAll segments b).2 := by
  induction segments generalizing b with
  | nil => exact .refl
  | cons seg rest ih =>
      unfold Image.placeAll
      have hseg := load b seg.addr seg.data
      split <;> rename_i c hload <;> rw [hload] at hseg
      · exact hseg.trans (ih c)
      · exact hseg

theorem placeArguments (args : List (List Byte)) (b : Bus) :
    b.Evolves (Arguments.place args b).2 := by
  unfold Arguments.place
  have hblock := Bus.Evolves.refl (b := b) |>.write 0 (Arguments.block args)
  split <;> rename_i c hwrite <;> rw [hwrite] at hblock <;> exact hblock

theorem place (image : Image) (args : List (List Byte)) (b : Bus) :
    b.Evolves (image.place args b).2 := by
  unfold Image.place
  have hall := placeAll image.segments b
  split <;> rename_i c hplace <;> rw [hplace] at hall
  · exact hall
  · split
    · exact hall.trans (placeArguments args c)
    · exact hall

end Bus.Evolves

/-- A platform of the same model whose bus evolved; the windows may be any. -/
structure Platform.Evolves (p q : Platform) : Prop where
  model : q.model = p.model
  bus : p.bus.Evolves q.bus

namespace Platform.Evolves

variable {σ : Type} {p q r : Platform} {mode : Mode} {addr value : Word} {width : Width}
  {access : Access}

theorem refl (p : Platform) : p.Evolves p := ⟨rfl, .refl⟩

theorem trans (h₁ : p.Evolves q) (h₂ : q.Evolves r) : p.Evolves r :=
  ⟨h₂.model.trans h₁.model, h₁.bus.trans h₂.bus⟩

theorem load {x : Except MemFault Word} (h : p.load mode addr width access = (x, q)) :
    p.Evolves q := by
  unfold Platform.load at h
  split at h
  · split at h
    · obtain ⟨-, rfl⟩ := Prod.mk.inj h
      exact .refl p
    · split at h <;> rename_i hread <;> obtain ⟨-, rfl⟩ := Prod.mk.inj h <;>
        exact ⟨rfl, .ofRead hread⟩
  · obtain ⟨-, rfl⟩ := Prod.mk.inj h
    exact .refl p

theorem write {x : Except MemFault Unit} (h : p.write mode addr width value = (x, q)) :
    p.Evolves q := by
  unfold Platform.write at h
  split at h
  · split at h
    · obtain ⟨-, rfl⟩ := Prod.mk.inj h
      exact .refl p
    · split at h <;> rename_i hwrite <;> obtain ⟨-, rfl⟩ := Prod.mk.inj h <;>
        exact ⟨rfl, .ofWrite hwrite⟩
  · obtain ⟨-, rfl⟩ := Prod.mk.inj h
    exact .refl p

theorem fetchHalf {x : Except MemFault Half} (h : p.fetchHalf mode addr = (x, q)) :
    p.Evolves q := by
  unfold Platform.fetchHalf at h
  split at h <;> rename_i hload <;> obtain ⟨-, rfl⟩ := Prod.mk.inj h <;> exact load hload

/-! ### Calls to the host -/

theorem readBytesOnto (acc : List Byte) (len : Nat) (addr : Word) (p : Platform) :
    p.Evolves (Platform.readBytesOnto acc len addr p).2 := by
  induction len generalizing acc addr p with
  | zero => exact .refl p
  | succ len ih =>
      unfold Platform.readBytesOnto
      split <;> rename_i hread
      · exact (load hread).trans (ih _ _ _)
      · exact load hread

theorem writeBytes (p : Platform) (addr : Word) (data : List Byte) :
    p.Evolves (p.writeBytes addr data).2 := by
  induction data generalizing p addr with
  | nil => exact .refl p
  | cons byte rest ih =>
      unfold Platform.writeBytes
      split <;> rename_i hwrite
      · exact (write hwrite).trans (ih _ _)
      · exact write hwrite

theorem scanString (acc : List Byte) (limit : Nat) (addr : Word) (p : Platform) :
    p.Evolves (Platform.scanString acc limit addr p).2 := by
  induction limit generalizing acc addr p with
  | zero => exact .refl p
  | succ limit ih =>
      unfold Platform.scanString
      split <;> rename_i hread
      · split
        · exact load hread
        · exact (load hread).trans (ih _ _ _)
      · exact load hread

theorem readPath (p : Platform) (addr : Word) : p.Evolves (p.readPath addr).2 := by
  have hscan := scanString [] 0x100000000 addr p
  unfold Platform.readPath
  split <;> rename_i hs <;> rw [hs] at hscan <;> exact hscan

theorem withPath (p : Platform) (addr : Word) (h : σ) (ask : List Byte → SyscallReply × σ) :
    p.Evolves (p.withPath addr h ask).2.1 := by
  have hpath := readPath p addr
  unfold Platform.withPath
  split <;> rename_i hp <;> rw [hp] at hpath <;> exact hpath

variable (p) {call : Option Syscall} (host : Host σ) (args : SyscallArgs) (h : σ)

theorem serviceRead : p.Evolves (p.serviceRead host args h).2.1 := by
  unfold Platform.serviceRead
  split
  · exact .refl p
  · split
    · exact .refl p
    · rename_i data _ _
      split
      · exact .refl p
      · have hw := writeBytes p args.second data
        split <;> rename_i hwrite <;> rw [hwrite] at hw <;> exact hw

theorem serviceWrite : p.Evolves (p.serviceWrite host args h).2.1 := by
  unfold Platform.serviceWrite
  split
  · exact .refl p
  · have hr : p.Evolves (p.readBytes args.second args.third.toNat).2 := readBytesOnto _ _ _ p
    split <;> rename_i hread <;> rw [hread] at hr <;> exact hr

theorem serviceLink : p.Evolves (p.serviceLink host args h).2.1 := by
  have hboth := (readPath p args.first).trans (readPath _ args.second)
  unfold Platform.serviceLink
  dsimp only
  split <;> exact hboth

theorem serviceTime : p.Evolves (p.serviceTime host args h).2.1 := by
  unfold Platform.serviceTime
  split
  · split
    · exact .refl p
    · split <;> rename_i hwrite <;> exact write hwrite
  · exact .refl p

variable {p} {host} {args} {h}

/-- Whatever a call does, it reaches memory only by accesses. -/
theorem service {reply : Except HostFault SyscallReply} {h' : σ}
    (hs : p.service host call args h = (reply, q, h')) : p.Evolves q := by
  have hq : (p.service host call args h).2.1 = q := by rw [hs]
  rw [← hq]
  unfold Platform.service
  cases call with
  | none => exact .refl p
  | some call =>
      cases call with
      | openFile | unlink | changeDir | changeMode => exact withPath p _ _ _
      | read => exact serviceRead p host args h
      | write => exact serviceWrite p host args h
      | link => exact serviceLink p host args h
      | time => exact serviceTime p host args h
      | close | isTerminal => dsimp only; split <;> exact .refl p
      | _ => exact .refl p

variable {s t : State}

theorem deliver {reply : SyscallReply} {halt : Option Halt}
    (hd : s.deliver p reply = .ok (halt, t, q)) : p.Evolves q := by
  unfold State.deliver at hd
  cases reply with
  | halt x =>
      obtain ⟨-, -, rfl⟩ := Except.ok.inj hd
      exact .refl p
  | value v =>
      dsimp only at hd
      cases hw : s.writeReg resultReg (.int v) with
      | error e => rw [hw] at hd; cases hd
      | ok u => rw [hw] at hd; cases hd; exact .refl p
  | failed ret errno =>
      dsimp only at hd
      cases hw : s.writeReg resultReg (.int ret) with
      | error e => rw [hw] at hd; cases hd
      | ok u =>
          simp only [hw, bind, Except.bind, pure, Except.pure] at hd
          split at hd
          · cases hd; exact .refl p
          · split at hd <;> cases hd
            · exact .refl p
            · exact write (Prod.eta _).symm

theorem syscall (s : State) (p : Platform) (host : Host σ) (h : σ) :
    p.Evolves (s.syscall p host h).platform := by
  unfold State.syscall
  dsimp only
  split <;> rename_i q hf
  · exact fetchHalf hf
  · split <;> rename_i hs
    · exact (fetchHalf hf).trans (service hs)
    · have hserviced := (fetchHalf hf).trans (service hs)
      split <;> rename_i hd
      · exact hserviced.trans (deliver hd)
      · exact hserviced

theorem respond (s : State) (environment : Environment) (p : Platform) (host : Host σ) (h : σ) :
    p.Evolves (s.respond environment p host h).platform := by
  unfold State.respond
  split
  · split
    · exact syscall s p host h
    · exact .refl p
  · split <;> exact .refl p

/-! ### Instructions -/

theorem fetchExtension {pc : Word} {len : Nat} {x : Except MemFault Word}
    (h : p.fetchExtension mode pc len = (x, q)) : p.Evolves q := by
  unfold Platform.fetchExtension at h
  split at h
  · obtain ⟨-, rfl⟩ := Prod.mk.inj h
    exact .refl p
  · split at h <;> rename_i hlow <;> obtain ⟨-, rfl⟩ := Prod.mk.inj h <;> exact fetchHalf hlow
  · split at h <;> rename_i hlow
    · obtain ⟨-, rfl⟩ := Prod.mk.inj h
      exact fetchHalf hlow
    · split at h <;> rename_i hhigh <;> obtain ⟨-, rfl⟩ := Prod.mk.inj h <;>
        exact (fetchHalf hlow).trans (fetchHalf hhigh)

theorem fetch (p : Platform) (mode : Mode) (pc : Word) : p.Evolves (p.fetch mode pc).2 := by
  unfold Platform.fetch
  split <;> rename_i hword
  · exact fetchHalf hword
  · split <;> rename_i hext <;> exact (fetchHalf hword).trans (fetchExtension hext)

theorem execute {insn : Insn} {effects : Effects} (hex : insn.execute s p = .ok (effects, q)) :
    p.Evolves q := by
  cases insn.behaviour s with
  | unbuilt e hcsr hall => rw [hall] at hex; cases hex
  | silent effects' hcsr haddr hall =>
      rw [hall] at hex
      cases hex
      exact .refl p
  | load addr width use hcsr huse hall =>
      rw [hall] at hex
      rcases Platform.loadThen_cases (Except.ok.inj hex) with ⟨v, hread, -⟩ | ⟨fault, hread, -⟩
      · exact load hread
      · exact load hread
  | store addr width value hcsr hall =>
      rw [hall] at hex
      rcases Platform.storeLow_cases (Except.ok.inj hex) with ⟨hwrite, -⟩ | ⟨fault, hwrite, -⟩
      · exact write hwrite
      · exact write hwrite

/-- A status register has nothing to do with the bus. -/
theorem apply {effects : Effects} (hc : effects.cause.isRaised = false)
    (happly : effects.apply s p = .ok (t, q)) : p.Evolves q := by
  obtain ⟨u, -, h⟩ := Effects.apply_ok hc happly
  cases hcsr : effects.csr with
  | none =>
      rw [hcsr] at h
      rw [h.2]
      exact .refl p
  | some access =>
      rw [hcsr] at h
      cases access with
      | read rd addr =>
          rw [(CsrAccess.apply_read h).1]
          exact .refl p
      | write addr value =>
          obtain ⟨-, hwrite⟩ := CsrAccess.apply_write h
          rcases Platform.writeCsr_cases hwrite with ⟨-, -, -, rfl⟩ | ⟨rfl, -⟩
          · exact ⟨rfl, .refl⟩
          · exact .refl _

end Platform.Evolves

theorem Core.Ends.evolves {c d : Core} {halt x : Option Halt} (h : c.Ends halt x d) :
    c.platform.Evolves d.platform := by
  cases h with
  | exited halt bus hexit =>
      have hbus : c.platform.bus.takeExit.2 = bus := congrArg Prod.snd hexit
      exact ⟨rfl, hbus ▸ .exit .refl⟩
  | _ => exact .refl _

/-! ## Actions -/

namespace Machine

variable {σ : Type} (m : Machine) (host : Host σ) (h : σ)

theorem attempt_evolves {m : Machine} {effects : Effects} {p : Platform}
    (ha : m.attempt = .ok (effects, p)) : m.platform.Evolves p := by
  have hfetch : m.platform.Evolves m.fetched.2 := .fetch m.platform _ _
  unfold attempt at ha
  split at ha <;> rename_i hf <;> rw [hf] at hfetch
  · obtain ⟨-, rfl⟩ := Prod.mk.inj (Except.ok.inj ha)
    exact hfetch
  · exact hfetch.trans (.execute ha)

theorem step_evolves : m.platform.Evolves (m.step host h).machine.platform := by
  cases m.step_goes host h with
  | unbuilt e ha hl =>
      rw [hl.platform]
      exact .fetch m.platform _ _
  | refused effects p e ha hc happly hl =>
      rw [hl.platform]
      exact attempt_evolves ha
  | raised effects p ha hc hf =>
      have hreaction := (attempt_evolves ha).trans
        (.respond (m.raisedState effects) m.environment p host h)
      unfold StepOutcome.Follows at hf
      split at hf
      · rw [hf.platform]
        exact hreaction
      · obtain ⟨x, d, hends, hl⟩ := hf
        rw [hl.platform]
        exact hreaction.trans hends.evolves
  | retired effects p s q ha hc happly hr =>
      obtain ⟨x, d, hends, hl⟩ := hr
      rw [hl.platform]
      exact ((attempt_evolves ha).trans (.apply hc happly)).trans hends.evolves

theorem load_evolves (image : Image) (args : List (List Byte)) (sp : Word) :
    m.platform.Evolves (m.load image args sp).2.platform := by
  have hplace := Bus.Evolves.place image args m.platform.bus
  unfold load
  split <;> rename_i hp <;> rw [hp] at hplace
  · exact ⟨rfl, hplace⟩
  · dsimp only
    split <;> exact ⟨rfl, hplace⟩

theorem act_evolves (a : Action) : m.platform.Evolves (m.act host h a).1.platform := by
  cases a with
  | step => exact m.step_evolves host h
  | interrupt => exact .refl _
  | load image args sp => exact m.load_evolves image args sp

theorem run_evolves (acts : List Action) : m.platform.Evolves (m.run host h acts).1.platform := by
  induction acts generalizing m h with
  | nil => exact .refl _
  | cons a acts ih => exact (m.act_evolves host h a).trans (ih _ _)

end Machine

end TypedCore
