import TypedCore.Proofs.Memory.Routing

/-!
# The console as a queue

A history of a bus with a console: bytes that arrive, and accesses of any kind at any
address. What passes the console is written down in a `ConsoleLog`, from the answers of
the bus and from what it sent, and the log accounts for the console as it is afterwards
(`ConsoleLog.Accounts`): what arrived is what was handed out, in order, and what waits
still; what was transmitted is what was written to the data register; the other
registers have what was written to them last.

The accounts of one event are in `ConsoleEvent.accounts`. Accounts add up
(`ConsoleLog.Accounts.append`), so those of a history are an induction on its events.
No access but of a single byte means a register, and whether it does is decided before
the queue is looked at; so an access that is refused leaves no trace at all.
-/

namespace TypedCore

/-! ## Registers -/

namespace Console

/-- The register that an access is to, of a console at an address. -/
def register? (base addr : Word) (len : Nat) : Option Nat :=
  if len = 1 ∧ base.toNat ≤ addr.toNat ∧ addr.toNat < base.toNat + size then
    some (addr.toNat - base.toNat)
  else none

/-- Whether some byte of an access is one of a console at an address. -/
def Touches (base addr : Word) (len : Nat) : Prop :=
  0 < len ∧ addr.toNat < base.toNat + size ∧ base.toNat < addr.toNat + len

instance (base addr : Word) (len : Nat) : Decidable (Touches base addr len) :=
  inferInstanceAs (Decidable (_ ∧ _))

variable {base addr : Word} {len j : Nat} {c : Console}

theorem register?_eq_some_iff :
    register? base addr len = some j ↔
      len = 1 ∧ j < size ∧ addr.toNat = base.toNat + j := by
  unfold register?
  constructor
  · intro h
    split at h
    · rename_i hin
      obtain rfl := Option.some.inj h
      omega
    · cases h
  · rintro ⟨rfl, hj, haddr⟩
    rw [if_pos (by omega)]
    congr 1
    omega

theorem touches_of_register? (h : register? base addr len = some j) : Touches base addr len := by
  obtain ⟨rfl, hj, haddr⟩ := register?_eq_some_iff.mp h
  unfold Touches
  omega

theorem readRegister_lt (c : Console) (hj : j < size) :
    ∃ x c', c.readRegister j = some (x, c') := by
  unfold size at hj
  rcases j with _ | _ | _ | _ | _ | j
  · exact ⟨_, _, rfl⟩
  · exact ⟨_, _, rfl⟩
  · exact ⟨_, _, rfl⟩
  · exact ⟨_, _, rfl⟩
  · exact ⟨_, _, rfl⟩
  · omega

/-- Every register but that of the status takes a byte. -/
theorem isSome_writeRegister (c : Console) (x : Byte) (hj : j < size) :
    (c.writeRegister x j).isSome = true ↔ j ≠ 1 := by
  unfold size at hj
  rcases j with _ | _ | _ | _ | _ | j
  · exact iff_of_true rfl (by decide)
  · exact iff_of_false Bool.false_ne_true fun h => h rfl
  · exact iff_of_true rfl (by decide)
  · exact iff_of_true rfl (by decide)
  · exact iff_of_true rfl (by decide)
  · omega

theorem status_eq (c : Console) : c.status = if c.received = [] then 2 else 3 := by
  unfold status
  cases c.received <;> rfl

/-- Only the data register changes by being read. -/
theorem eq_of_readRegister {x : Byte} {c' : Console}
    (h : c.readRegister (j + 1) = some (x, c')) : c' = c := by
  unfold readRegister at h
  split at h <;> cases h <;> first | rfl | contradiction

/-- What is no register is not a single byte of the console. -/
theorem len_ne_one (h : register? c.base addr len = none)
    (hcovers : (Device.console c).covers addr len = true) : len ≠ 1 := by
  rintro rfl
  obtain ⟨hlow, hhigh⟩ := Device.covers_iff.mp hcovers
  change c.base.toNat ≤ addr.toNat at hlow
  change addr.toNat + 1 ≤ c.base.toNat + size at hhigh
  unfold register? at h
  rw [if_pos ⟨rfl, hlow, hhigh⟩] at h
  cases h

end Console

/-- A console takes no more and no less than one byte. -/
theorem Device.length_of_write_console {c : Console} {offset : Nat} {data out : List Byte}
    {d : Device} (h : (Device.console c).write offset data = some (d, out)) : data.length = 1 := by
  obtain ⟨r, hwrite, -⟩ := Option.map_eq_some_iff.mp h
  unfold Console.write at hwrite
  split at hwrite
  · rfl
  · cases hwrite

theorem Device.silent {d d' : Device} {offset : Nat} {data out : List Byte}
    (hd : ∀ c, d ≠ .console c) (h : d.write offset data = some (d', out)) : out = [] := by
  cases d with
  | ram r =>
      obtain ⟨_, -, heq⟩ := Option.map_eq_some_iff.mp h
      exact (Prod.mk.inj heq).2.symm
  | console c => exact absurd rfl (hd c)
  | gpio g =>
      obtain ⟨_, -, heq⟩ := Option.map_eq_some_iff.mp h
      exact (Prod.mk.inj heq).2.symm

/-! ## Accesses -/

namespace Bus

variable {b : Bus} {k i : Nat} {c : Console} {addr : Word} {len j : Nat} {data : List Byte}

/-- Nothing is sent when something is read. -/
theorem sent_readBytes (b : Bus) (addr : Word) (len : Nat) :
    (b.readBytes addr len).2.sent = b.sent := by
  unfold readBytes
  split
  · rfl
  · split
    · rfl
    · split <;> rfl

/-- An access that has a byte in common with a device that is alone goes there or nowhere. -/
theorem Alone.eq_of_route {d : Device} (ha : b.Alone k) (hk : b.devices[k]? = some d)
    (hlow : addr.toNat < d.base.toNat + d.size) (hhigh : d.base.toNat < addr.toNat + len)
    (hroute : b.route addr len = some i) : i = k := by
  refine Classical.byContradiction fun hik => ?_
  have howns := owns_of_route hroute
  unfold owns at howns
  split at howns
  · rename_i e he
    obtain ⟨hlow', hhigh'⟩ := Device.covers_iff.mp howns
    have hapart := ha i d e hk he hik
    unfold Device.Apart at hapart
    omega
  · cases howns

theorem device_of_layout {b' : Bus} {d : Device} (h : b'.layout = b.layout)
    (hd : b'.devices[i]? = some d) : ∃ e, b.devices[i]? = some e ∧ e.blank = d.blank := by
  have hmap : b.layout[i]? = some d.blank := by
    rw [← h, layout, List.getElem?_map, hd]
    rfl
  rw [layout, List.getElem?_map] at hmap
  exact Option.map_eq_some_iff.mp hmap

theorem Alone.of_layout {b' : Bus} (ha : b.Alone k) (h : b'.layout = b.layout) : b'.Alone k := by
  intro i d e hd he hik
  obtain ⟨d', hd', hdd⟩ := device_of_layout h hd
  obtain ⟨e', he', hee⟩ := device_of_layout h he
  have hapart := ha i d' e' hd' he' hik
  rwa [← Device.apart_blank, hdd, hee, Device.apart_blank] at hapart

/-! ### Registers -/

/-- An access to a register goes to the console. -/
theorem route_register (ha : b.Alone k) (hk : b.devices[k]? = some (.console c))
    (hreg : Console.register? c.base addr len = some j) :
    b.route addr len = some k ∧ addr.toNat - (Device.console c).base.toNat = j := by
  obtain ⟨rfl, hj, haddr⟩ := Console.register?_eq_some_iff.mp hreg
  have hbase : (Device.console c).base.toNat = c.base.toNat := rfl
  have hsize : (Device.console c).size = Console.size := rfl
  have hcovers : (Device.console c).covers addr 1 = true :=
    Device.covers_iff.mpr ⟨by omega, by omega⟩
  exact ⟨route_of_owns ha Nat.one_pos ((owns_eq_covers hk).trans hcovers), by omega⟩

theorem readBytes_register (ha : b.Alone k) (hk : b.devices[k]? = some (.console c))
    (hreg : Console.register? c.base addr len = some j) :
    ∃ x c', c.readRegister j = some (x, c') ∧
      b.readBytes addr len =
        (some [x], { b with devices := b.devices.set k (.console c'), last := k }) := by
  obtain ⟨hroute, hoffset⟩ := route_register ha hk hreg
  obtain ⟨rfl, hj, -⟩ := Console.register?_eq_some_iff.mp hreg
  obtain ⟨x, c', hread⟩ := c.readRegister_lt hj
  refine ⟨x, c', hread, ?_⟩
  unfold readBytes
  rw [hroute]
  simp only [hk, hoffset, Device.read_console.mpr ⟨c', hread, rfl⟩]

theorem writeBytes_register (ha : b.Alone k) (hk : b.devices[k]? = some (.console c))
    (hreg : Console.register? c.base addr data.length = some j) :
    ∃ x, data = [x] ∧ b.writeBytes addr data =
      match c.writeRegister x j with
      | some (c', out) =>
        (true, ⟨b.devices.set k (.console c'), k, b.sent ++ out.toArray⟩)
      | none => (false, b.usedLast k) := by
  obtain ⟨hroute, hoffset⟩ := route_register ha hk hreg
  obtain ⟨hlen, hj, -⟩ := Console.register?_eq_some_iff.mp hreg
  obtain ⟨x, rfl⟩ := List.length_eq_one_iff.mp hlen
  refine ⟨x, rfl, ?_⟩
  unfold writeBytes
  rw [hroute]
  simp only [hk, hoffset, Device.write, Console.write]
  cases c.writeRegister x j with
  | none => rfl
  | some r => rfl

/-! ### Other accesses -/

/-- An access that is no register of a console does not change it. -/
theorem readBytes_no_register (hk : b.devices[k]? = some (.console c))
    (hreg : Console.register? c.base addr len = none) :
    (b.readBytes addr len).2.devices[k]? = some (.console c) := by
  cases hown : b.owns addr len k with
  | false => exact (readBytes_elsewhere hown).trans hk
  | true =>
      have hlen := Console.len_ne_one hreg ((owns_eq_covers hk).symm.trans hown)
      obtain ⟨i, hi⟩ := b.readBytes_wide addr hlen
      rw [hi]
      exact hk

theorem writeBytes_no_register (hk : b.devices[k]? = some (.console c))
    (hreg : Console.register? c.base addr data.length = none) :
    (b.writeBytes addr data).2.devices[k]? = some (.console c) := by
  cases hown : b.owns addr data.length k with
  | false => exact (writeBytes_elsewhere hown).trans hk
  | true =>
      have hlen := Console.len_ne_one hreg ((owns_eq_covers hk).symm.trans hown)
      unfold writeBytes
      split
      · exact hk
      · rename_i i hroute
        split
        · exact hk
        · rename_i d hd
          split
          · rename_i d' out hwrite
            have hik : i ≠ k := by
              rintro rfl
              obtain rfl := Option.some.inj (hk.symm.trans hd)
              exact hlen (Device.length_of_write_console hwrite)
            exact (List.getElem?_set_ne hik).trans hk
          · exact hk

/-- An access that has a byte of a console and is no register of it is refused. -/
theorem readBytes_touching (ha : b.Alone k) (hk : b.devices[k]? = some (.console c))
    (htouches : Console.Touches c.base addr len)
    (hreg : Console.register? c.base addr len = none) : (b.readBytes addr len).1 = none := by
  obtain ⟨-, hlow, hhigh⟩ := htouches
  unfold readBytes
  cases hroute : b.route addr len with
  | none => rfl
  | some i =>
      obtain rfl := ha.eq_of_route hk hlow hhigh hroute
      have hlen := Console.len_ne_one hreg ((owns_eq_covers hk).symm.trans (owns_of_route hroute))
      simp only [hk, Device.read, Console.read, if_neg hlen, Option.map_none]

theorem writeBytes_touching (ha : b.Alone k) (hk : b.devices[k]? = some (.console c))
    (htouches : Console.Touches c.base addr data.length)
    (hreg : Console.register? c.base addr data.length = none) :
    (b.writeBytes addr data).1 = false := by
  obtain ⟨-, hlow, hhigh⟩ := htouches
  unfold writeBytes
  cases hroute : b.route addr data.length with
  | none => rfl
  | some i =>
      obtain rfl := ha.eq_of_route hk hlow hhigh hroute
      have hlen := Console.len_ne_one hreg ((owns_eq_covers hk).symm.trans (owns_of_route hroute))
      simp only [hk]
      cases hwrite : (Device.console c).write (addr.toNat - (Device.console c).base.toNat) data with
      | none => rfl
      | some r => exact absurd (Device.length_of_write_console hwrite) hlen

end Bus

/-! ## Histories -/

/-- A byte arrives at device `k`, if that is a console. -/
def Bus.receive (b : Bus) (k : Nat) (byte : Byte) : Bus :=
  match b.devices[k]? with
  | some (.console c) => { b with devices := b.devices.set k (.console (c.receive byte)) }
  | _ => b

theorem Bus.layout_receive (b : Bus) (k : Nat) (byte : Byte) :
    (b.receive k byte).layout = b.layout := by
  unfold receive
  split
  · rename_i c hk
    exact map_blank_set hk rfl
  · rfl

inductive ConsoleEvent where
  | receive (byte : Byte)
  | read (addr : Word) (len : Nat)
  | write (addr : Word) (data : List Byte)

/-- The bus after an event; what arrives does so at device `k`. -/
def ConsoleEvent.perform (k : Nat) (b : Bus) : ConsoleEvent → Bus
  | receive byte => b.receive k byte
  | read addr len => (b.readBytes addr len).2
  | write addr data => (b.writeBytes addr data).2

/-- What passed a console. -/
structure ConsoleLog where
  arrived : List Byte := []
  /-- What reads of the data register answered while a byte waited. -/
  handed : List Byte := []
  /-- The bytes that were successfully written to each register. -/
  written : Nat → List Byte := fun _ => []
  /-- What was sent during accesses to the console. -/
  transmitted : List Byte := []

namespace ConsoleLog

/-- One history after another. -/
instance : Append ConsoleLog where
  append l l' :=
    { arrived := l.arrived ++ l'.arrived
      handed := l.handed ++ l'.handed
      written := fun j => l.written j ++ l'.written j
      transmitted := l.transmitted ++ l'.transmitted }

/-- A log accounts for what became of a console. -/
structure Accounts (l : ConsoleLog) (c c' : Console) : Prop where
  base : c'.base = c.base
  queue : c.received ++ l.arrived = l.handed ++ c'.received
  config1 : c'.config1 = (l.written 2).getLast?.getD c.config1
  config2 : c'.config2 = (l.written 3).getLast?.getD c.config2
  divider : c'.divider = (l.written 4).getLast?.getD c.divider
  output : l.transmitted = l.written 0

variable {l l' : ConsoleLog} {c c' c'' : Console}

theorem Accounts.refl (c : Console) : Accounts {} c c := ⟨rfl, by simp, rfl, rfl, rfl, rfl⟩

theorem Accounts.append (h : l.Accounts c c') (h' : l'.Accounts c' c'') :
    (l ++ l').Accounts c c'' where
  base := h'.base.trans h.base
  queue := by
    show c.received ++ (l.arrived ++ l'.arrived) = l.handed ++ l'.handed ++ c''.received
    rw [← List.append_assoc, h.queue, List.append_assoc, h'.queue, List.append_assoc]
  config1 := by
    show c''.config1 = (l.written 2 ++ l'.written 2).getLast?.getD c.config1
    rw [List.getLast?_append, Option.getD_or, ← h.config1, h'.config1]
  config2 := by
    show c''.config2 = (l.written 3 ++ l'.written 3).getLast?.getD c.config2
    rw [List.getLast?_append, Option.getD_or, ← h.config2, h'.config2]
  divider := by
    show c''.divider = (l.written 4 ++ l'.written 4).getLast?.getD c.divider
    rw [List.getLast?_append, Option.getD_or, ← h.divider, h'.divider]
  output := by
    show l.transmitted ++ l'.transmitted = l.written 0 ++ l'.written 0
    rw [h.output, h'.output]

theorem Accounts.of_writeRegister {x : Byte} {j : Nat} {out : List Byte}
    (h : c.writeRegister x j = some (c', out)) :
    Accounts { written := fun i => if j = i then [x] else [], transmitted := out } c c' := by
  unfold Console.writeRegister at h
  split at h <;> cases h <;> exact ⟨rfl, by simp, rfl, rfl, rfl, rfl⟩

end ConsoleLog

namespace Bus

/-- Whether device `k` is a console at which a byte waits. -/
def waits (b : Bus) (k : Nat) : Bool :=
  match b.devices[k]? with
  | some (.console c) => !c.received.isEmpty
  | _ => false

/-- Whether no device but `k` is a console. -/
def OnlyConsole (b : Bus) (k : Nat) : Prop :=
  ∀ i c, b.devices[i]? = some (.console c) → i = k

theorem OnlyConsole.of_layout {b b' : Bus} {k : Nat} (h : b.OnlyConsole k)
    (hl : b'.layout = b.layout) : b'.OnlyConsole k := by
  intro i c hc
  obtain ⟨e, he, hblank⟩ := device_of_layout hl hc
  cases e with
  | console c' => exact h i c' he
  | ram r => cases hblank
  | gpio g => cases hblank

/-- Only consoles send. -/
theorem sent_writeBytes_no_register {b : Bus} {k : Nat} {c : Console} {addr : Word}
    {data : List Byte} (hk : b.devices[k]? = some (.console c)) (honly : b.OnlyConsole k)
    (hreg : Console.register? c.base addr data.length = none) :
    (b.writeBytes addr data).2.sent = b.sent := by
  unfold writeBytes
  split
  · rfl
  · rename_i i hroute
    split
    · rfl
    · rename_i d hd
      split
      · rename_i d' out hwrite
        have hout : out = [] := by
          refine Device.silent (fun c' hc' => ?_) hwrite
          subst hc'
          obtain rfl := honly i c' hd
          obtain rfl := Device.console.inj (Option.some.inj (hk.symm.trans hd))
          have hcovers := (owns_eq_covers hk).symm.trans (owns_of_route hroute)
          exact Console.len_ne_one hreg hcovers (Device.length_of_write_console hwrite)
        rw [hout]
        simp
      · rfl

/-- What was sent between two states of a bus. -/
def sentUntil (b b' : Bus) : List Byte := b'.sent.toList.drop b.sent.size

theorem sentUntil_self (b : Bus) : b.sentUntil b = [] := by simp [sentUntil]

theorem sentUntil_append (b : Bus) (ds : List Device) (i : Nat) (out : List Byte) :
    b.sentUntil ⟨ds, i, b.sent ++ out.toArray⟩ = out := by simp [sentUntil]

end Bus

/-- What passes the console `k`, whose registers begin at an address, in one event. -/
def ConsoleEvent.log (k : Nat) (base : Word) (b : Bus) : ConsoleEvent → ConsoleLog
  | receive byte => { arrived := [byte] }
  | read addr len =>
    { handed :=
        if Console.register? base addr len = some 0 ∧ b.waits k then
          (b.readBytes addr len).1.getD []
        else []
      transmitted :=
        if Console.Touches base addr len then b.sentUntil (b.readBytes addr len).2 else [] }
  | write addr data =>
    { written := fun j =>
        if Console.register? base addr data.length = some j ∧ (b.writeBytes addr data).1 then data
        else []
      transmitted :=
        if Console.Touches base addr data.length then b.sentUntil (b.writeBytes addr data).2
        else [] }

namespace Bus

/-- The bus after a history. -/
def play (k : Nat) (b : Bus) (events : List ConsoleEvent) : Bus :=
  events.foldl (ConsoleEvent.perform k) b

/-- What passes the console `k` in a history. -/
def log (k : Nat) (base : Word) : Bus → List ConsoleEvent → ConsoleLog
  | _, [] => {}
  | b, e :: es => e.log k base b ++ log k base (e.perform k b) es

end Bus

namespace ConsoleEvent

variable {b : Bus} {k : Nat} {c : Console}

theorem accounts_receive (hk : b.devices[k]? = some (.console c)) (byte : Byte) :
    ∃ c', ((receive byte).perform k b).devices[k]? = some (.console c') ∧
      ((receive byte).log k c.base b).Accounts c c' := by
  refine ⟨c.receive byte, ?_, rfl, rfl, rfl, rfl, rfl, rfl⟩
  unfold perform Bus.receive
  rw [hk]
  exact List.getElem?_set_self (List.getElem?_eq_some_iff.mp hk).1

theorem accounts_read (ha : b.Alone k) (hk : b.devices[k]? = some (.console c)) (addr : Word)
    (len : Nat) :
    ∃ c', ((read addr len).perform k b).devices[k]? = some (.console c') ∧
      ((read addr len).log k c.base b).Accounts c c' := by
  have hsent : b.sentUntil (b.readBytes addr len).2 = [] := by
    rw [Bus.sentUntil, Bus.sent_readBytes]
    simp
  cases hreg : Console.register? c.base addr len with
  | none =>
      refine ⟨c, Bus.readBytes_no_register hk hreg, ?_⟩
      simpa [log, hreg, hsent] using ConsoleLog.Accounts.refl c
  | some j =>
      obtain ⟨x, c', hx, hread⟩ := Bus.readBytes_register ha hk hreg
      have hdevice : (b.readBytes addr len).2.devices[k]? = some (.console c') := by
        rw [hread]
        exact List.getElem?_set_self (List.getElem?_eq_some_iff.mp hk).1
      rw [hread] at hsent
      have hlog : (read addr len).log k c.base b =
          { handed := if j = 0 ∧ b.waits k then [x] else [] } := by
        simp only [log, hsent, ite_self, hreg, Option.some.injEq, hread, Option.getD_some]
      refine ⟨c', hdevice, hlog ▸ ?_⟩
      cases j with
      | zero =>
          obtain ⟨rfl, rfl⟩ := Prod.mk.inj (Option.some.inj hx)
          refine ⟨rfl, ?_, rfl, rfl, rfl, rfl⟩
          cases hqueue : c.received with
          | nil => simp [Bus.waits, hk, hqueue]
          | cons y ys => simp [Bus.waits, hk, hqueue]
      | succ j =>
          obtain rfl := Console.eq_of_readRegister hx
          exact ⟨rfl, by simp, rfl, rfl, rfl, rfl⟩

section Write

variable {addr : Word} {x : Byte} {j : Nat} {base : Word}

theorem log_refused (hreg : Console.register? base addr [x].length = some j)
    (hwrite : b.writeBytes addr [x] = (false, b.usedLast k)) :
    (write addr [x]).log k base b = {} := by
  simp only [log, hwrite, Bool.false_eq_true, and_false, if_false]
  rw [if_pos (Console.touches_of_register? hreg)]
  congr 1
  exact Bus.sentUntil_self b

theorem log_taken {ds : List Device} {out : List Byte}
    (hreg : Console.register? base addr [x].length = some j)
    (hwrite : b.writeBytes addr [x] = (true, ⟨ds, k, b.sent ++ out.toArray⟩)) :
    (write addr [x]).log k base b =
      { written := fun i => if j = i then [x] else [], transmitted := out } := by
  simp only [log, hwrite, hreg, Option.some.injEq, and_true]
  rw [if_pos (Console.touches_of_register? hreg), Bus.sentUntil_append]

end Write

theorem accounts_write (ha : b.Alone k) (hk : b.devices[k]? = some (.console c)) (addr : Word)
    (data : List Byte) :
    ∃ c', ((write addr data).perform k b).devices[k]? = some (.console c') ∧
      ((write addr data).log k c.base b).Accounts c c' := by
  cases hreg : Console.register? c.base addr data.length with
  | none =>
      have hsent : (if Console.Touches c.base addr data.length then
          b.sentUntil (b.writeBytes addr data).2 else []) = [] := by
        split
        · rename_i htouches
          obtain ⟨i, hi⟩ := Bus.writeBytes_refused (Bus.writeBytes_touching ha hk htouches hreg)
          rw [hi]
          exact Bus.sentUntil_self b
        · rfl
      refine ⟨c, Bus.writeBytes_no_register hk hreg, ?_⟩
      simpa [log, hreg, hsent] using ConsoleLog.Accounts.refl c
  | some j =>
      obtain ⟨x, rfl, hwrite⟩ := Bus.writeBytes_register ha hk hreg
      cases hx : c.writeRegister x j with
      | none =>
          rw [hx] at hwrite
          exact ⟨c, by rw [perform, hwrite]; exact hk, log_refused hreg hwrite ▸ .refl c⟩
      | some r =>
          obtain ⟨c', out⟩ := r
          rw [hx] at hwrite
          have hdevice : (b.writeBytes addr [x]).2.devices[k]? = some (.console c') := by
            rw [hwrite]
            exact List.getElem?_set_self (List.getElem?_eq_some_iff.mp hk).1
          exact ⟨c', hdevice, log_taken hreg hwrite ▸ .of_writeRegister hx⟩

/-- What an event leaves of a console is accounted for by what passed it. -/
theorem accounts (ha : b.Alone k) (hk : b.devices[k]? = some (.console c)) (e : ConsoleEvent) :
    ∃ c', (e.perform k b).devices[k]? = some (.console c') ∧ (e.log k c.base b).Accounts c c' := by
  cases e with
  | receive byte => exact accounts_receive hk byte
  | read addr len => exact accounts_read ha hk addr len
  | write addr data => exact accounts_write ha hk addr data

theorem layout_perform (b : Bus) (k : Nat) (e : ConsoleEvent) :
    (e.perform k b).layout = b.layout := by
  cases e with
  | receive byte => exact b.layout_receive k byte
  | read addr len => exact b.layout_readBytes addr len
  | write addr data => exact b.layout_writeBytes addr data

/-- If no other console is attached, all that is sent is what the data register takes. -/
theorem sent_perform (ha : b.Alone k) (hk : b.devices[k]? = some (.console c))
    (honly : b.OnlyConsole k) (e : ConsoleEvent) :
    (e.perform k b).sent.toList = b.sent.toList ++ (e.log k c.base b).written 0 := by
  cases e with
  | receive byte =>
      unfold perform Bus.receive
      rw [hk]
      exact (List.append_nil _).symm
  | read addr len =>
      rw [perform, Bus.sent_readBytes]
      exact (List.append_nil _).symm
  | write addr data =>
      cases hreg : Console.register? c.base addr data.length with
      | none =>
          have hwritten : ((write addr data).log k c.base b).written 0 = [] := by simp [log, hreg]
          rw [perform, Bus.sent_writeBytes_no_register hk honly hreg, hwritten, List.append_nil]
      | some j =>
          obtain ⟨x, rfl, hwrite⟩ := Bus.writeBytes_register ha hk hreg
          cases hx : c.writeRegister x j with
          | none =>
              rw [hx] at hwrite
              rw [perform, hwrite, log_refused hreg hwrite]
              exact (List.append_nil _).symm
          | some r =>
              obtain ⟨c', out⟩ := r
              rw [hx] at hwrite
              have hout : out = if j = 0 then [x] else [] :=
                (ConsoleLog.Accounts.of_writeRegister hx).output
              rw [perform, hwrite, log_taken hreg hwrite]
              show (b.sent ++ out.toArray).toList = b.sent.toList ++ if j = 0 then [x] else []
              rw [← hout, Array.toList_append]

end ConsoleEvent

namespace Bus

variable {b : Bus} {k : Nat} {c : Console}

/-- How the accesses to a console are answered. -/
structure Serves (b : Bus) (c : Console) : Prop where
  data : ∀ addr, Console.register? c.base addr 1 = some 0 →
    (b.readBytes addr 1).1 = some [c.received.headD 0]
  /-- Bit 0 says that a byte waits, bit 1 that a byte can be transmitted. -/
  status : ∀ addr, Console.register? c.base addr 1 = some 1 →
    (b.readBytes addr 1).1 = some [if c.received = [] then 2 else 3]
  config1 : ∀ addr, Console.register? c.base addr 1 = some 2 →
    (b.readBytes addr 1).1 = some [c.config1]
  config2 : ∀ addr, Console.register? c.base addr 1 = some 3 →
    (b.readBytes addr 1).1 = some [c.config2]
  divider : ∀ addr, Console.register? c.base addr 1 = some 4 →
    (b.readBytes addr 1).1 = some [c.divider]
  /-- Only the status register cannot be written. -/
  write : ∀ addr x j, Console.register? c.base addr 1 = some j →
    ((b.writeBytes addr [x]).1 = true ↔ j ≠ 1)
  readOther : ∀ addr len, Console.Touches c.base addr len →
    Console.register? c.base addr len = none → (b.readBytes addr len).1 = none
  writeOther : ∀ addr data, Console.Touches c.base addr data.length →
    Console.register? c.base addr data.length = none → (b.writeBytes addr data).1 = false

theorem serves (ha : b.Alone k) (hk : b.devices[k]? = some (.console c)) : b.Serves c := by
  have hread : ∀ {addr j x c'}, Console.register? c.base addr 1 = some j →
      c.readRegister j = some (x, c') → (b.readBytes addr 1).1 = some [x] := by
    intro addr j x c' hreg hx
    obtain ⟨y, d, hy, hbytes⟩ := readBytes_register ha hk hreg
    rw [hbytes, (Prod.mk.inj (Option.some.inj (hx.symm.trans hy))).1]
  have hwrite : ∀ {addr j} (x : Byte), Console.register? c.base addr 1 = some j →
      ((b.writeBytes addr [x]).1 = true ↔ j ≠ 1) := by
    intro addr j x hreg
    have hone : Console.register? c.base addr [x].length = some j := hreg
    obtain ⟨y, -, hbytes⟩ := writeBytes_register ha hk hone
    rw [hbytes, ← c.isSome_writeRegister y (Console.register?_eq_some_iff.mp hreg).2.1]
    cases c.writeRegister y j <;> simp
  refine ⟨fun _ h => hread h rfl, fun _ h => ?_, fun _ h => hread h rfl, fun _ h => hread h rfl,
    fun _ h => hread h rfl, fun _ x _ h => hwrite x h, fun _ _ => readBytes_touching ha hk,
    fun _ _ => writeBytes_touching ha hk⟩
  rw [hread h rfl, Console.status_eq]

/-- What a history leaves of a console is accounted for by what passed it. -/
theorem accounts_play (ha : b.Alone k) (hk : b.devices[k]? = some (.console c))
    (events : List ConsoleEvent) :
    ∃ c', (b.play k events).devices[k]? = some (.console c') ∧
      (b.play k events).layout = b.layout ∧ (b.log k c.base events).Accounts c c' := by
  induction events generalizing b c with
  | nil => exact ⟨c, hk, rfl, .refl c⟩
  | cons e es ih =>
      obtain ⟨c₁, hk₁, hfirst⟩ := e.accounts ha hk
      have hlayout := e.layout_perform b k
      obtain ⟨c', hk', hlayout', hrest⟩ := ih (ha.of_layout hlayout) hk₁
      rw [hfirst.base] at hrest
      exact ⟨c', hk', hlayout'.trans hlayout, hfirst.append hrest⟩

theorem sent_play (ha : b.Alone k) (hk : b.devices[k]? = some (.console c))
    (honly : b.OnlyConsole k) (events : List ConsoleEvent) :
    (b.play k events).sent.toList = b.sent.toList ++ (b.log k c.base events).written 0 := by
  induction events generalizing b c with
  | nil => exact (List.append_nil _).symm
  | cons e es ih =>
      obtain ⟨c₁, hk₁, hfirst⟩ := e.accounts ha hk
      have hlayout := e.layout_perform b k
      have hrest := ih (ha.of_layout hlayout) hk₁ (honly.of_layout hlayout)
      rw [hfirst.base, e.sent_perform ha hk honly, List.append_assoc] at hrest
      exact hrest

/-- A console that shares no address with another device, after any history of bytes that arrive
and of accesses of any width at any address: what arrived is, in order and each byte once, what
reads of the data register answered while a byte waited and then what waits still; what was
transmitted is what was written to the data register, and if no other console is attached, nothing
else was sent at all; and the configuration registers have the last bytes written to them. The next
read of the data register answers the first byte that waits, or zero, and the status says whether
one does. Other accesses to the console are refused, and any access that is refused changes nothing
but the note of the device used last. -/
theorem console_fifo (b : Bus) (k : Nat) (c : Console) (ha : b.Alone k)
    (hk : b.devices[k]? = some (.console c)) (events : List ConsoleEvent) :
    let after := b.play k events
    let log := b.log k c.base events
    (∃ c', after.devices[k]? = some (.console c') ∧ log.Accounts c c' ∧ after.Serves c') ∧
    (b.OnlyConsole k → after.sent.toList = b.sent.toList ++ log.written 0) ∧
    (∀ addr len, (after.readBytes addr len).1 = none →
      ∃ i, (after.readBytes addr len).2 = after.usedLast i) ∧
    (∀ addr data, (after.writeBytes addr data).1 = false →
      ∃ i, (after.writeBytes addr data).2 = after.usedLast i) := by
  intro after log
  obtain ⟨c', hk', hlayout, haccounts⟩ := accounts_play ha hk events
  exact ⟨⟨c', hk', haccounts, serves (ha.of_layout hlayout) hk'⟩,
    fun honly => sent_play ha hk honly events, fun _ _ => readBytes_refused,
    fun _ _ => writeBytes_refused⟩

/-- Memory up to address 16, and behind it a console at which one byte waits. -/
def withConsole : Bus :=
  { devices := [.ram { base := 0, size := 16 }, .console { base := 16, received := [7] }] }

/-- A word across the console's first registers and a write to its status are refused; of the four
reads of data the second finds nothing. -/
theorem console_fifo_withConsole :
    let events : List ConsoleEvent :=
      [.read 16 4, .read 16 1, .write 17 [0xff], .read 16 1, .receive 8, .write 18 [1],
        .receive 9, .write 16 [0x41], .read 16 1, .write 18 [2], .write 16 [0x42], .read 14 1]
    ∃ c', (withConsole.play 1 events).devices[1]? = some (.console c') ∧
      c'.received = [9] ∧ c'.config1 = 2 ∧
      (withConsole.log 1 16 events).handed = [7, 8] ∧
      (withConsole.play 1 events).sent.toList = [0x41, 0x42] := by
  intro events
  have halone : withConsole.Alone 1 := by
    intro i d e hd he hi
    obtain rfl := Option.some.inj hd
    match i with
    | 0 => obtain rfl := Option.some.inj he; decide
    | 1 => exact absurd rfl hi
    | i + 2 => cases he
  have honly : withConsole.OnlyConsole 1 := by
    intro i c hc
    match i with
    | 0 => cases hc
    | 1 => rfl
    | i + 2 => cases hc
  have hk : withConsole.devices[1]? = some (.console { base := 16, received := [7] }) := rfl
  obtain ⟨⟨c', hk', haccounts, -⟩, hsent, -⟩ := console_fifo withConsole 1 _ halone hk events
  have hhanded : (withConsole.log 1 16 events).handed = [7, 8] := by decide +kernel
  have harrived : (withConsole.log 1 16 events).arrived = [8, 9] := by decide +kernel
  have hqueue := haccounts.queue
  rw [hhanded, harrived] at hqueue
  have hrest : [7, 8] ++ [9] = [7, 8] ++ c'.received := hqueue
  refine ⟨c', hk', (List.append_cancel_left hrest).symm, ?_, hhanded, ?_⟩
  · rw [haccounts.config1]
    decide +kernel
  · rw [hsent honly]
    decide +kernel

end Bus

end TypedCore
