import Mathlib.Algebra.Group.Nat.Defs
import Mathlib.Logic.Relation
import TypedCore.Host.Syscall
import TypedCore.Proofs.Memory.Routing

/-!
# Copying between the guest and the host

The bytes of a path or of a buffer go over one by one. That some bytes of task
memory read as given (`Platform.Reads`), or that they could be written
(`Platform.Writes`), is a relation between the platforms before and after: a
console is another one once it was read from. Neither mentions how the bytes are
collected. The functions that collect them find exactly these (`readBytes_iff`,
`readPath_iff`), so what they do not find is not there.
-/

namespace TypedCore

/-! ## One byte -/

theorem Device.length_of_read {d d' : Device} {offset len : Nat} {bytes : List Byte}
    (h : d.read offset len = some (bytes, d')) : bytes.length = len := by
  cases d with
  | ram r =>
      obtain ⟨data, hdata, heq⟩ := Option.map_eq_some_iff.mp h
      obtain ⟨rfl, -⟩ := Prod.mk.inj heq
      unfold Ram.read at hdata
      split at hdata
      · cases hdata
        simp
      · cases hdata
  | console c =>
      obtain ⟨⟨data, c'⟩, hdata, heq⟩ := Option.map_eq_some_iff.mp h
      obtain ⟨rfl, -⟩ := Prod.mk.inj heq
      unfold Console.read at hdata
      split at hdata
      · obtain ⟨r, -, hr⟩ := Option.map_eq_some_iff.mp hdata
        obtain ⟨rfl, -⟩ := Prod.mk.inj hr
        simp [*]
      · cases hdata
  | gpio g =>
      obtain ⟨data, hdata, heq⟩ := Option.map_eq_some_iff.mp h
      obtain ⟨rfl, -⟩ := Prod.mk.inj heq
      unfold Gpio.read at hdata
      split at hdata
      · cases hdata
        simp [*]
      · cases hdata

theorem Bus.length_of_readBytes {b : Bus} {addr : Word} {len : Nat} {bytes : List Byte}
    (h : (b.readBytes addr len).1 = some bytes) : bytes.length = len := by
  unfold readBytes at h
  split at h
  · cases h
  · split at h
    · cases h
    · split at h
      · rename_i hread
        cases h
        exact Device.length_of_read hread
      · cases h

namespace Platform

/-- What one byte reads as is a byte. -/
theorem byte_of_load {p q : Platform} {mode : Mode} {addr v : Word} {access : Access}
    (h : p.load mode addr .byte access = (.ok v, q)) : ∃ b : Byte, v = b.setWidth 32 := by
  have hal : Width.byte.isAligned addr = true := by
    simp [Width.isAligned, Width.bytes, Nat.mod_one]
  cases hphys : p.physical mode addr access with
  | error fault => rw [load_denied hal hphys] at h; cases h
  | ok a =>
      rw [load_allowed hal hphys] at h
      cases hbytes : (p.bus.readBytes a Width.byte.bytes).1 with
      | none => rw [hbytes] at h; cases h
      | some bytes =>
          rw [hbytes] at h
          obtain rfl := Except.ok.inj (Prod.mk.inj h).1
          obtain ⟨b, rfl⟩ := List.length_eq_one_iff.mp (Bus.length_of_readBytes hbytes)
          exact ⟨b, BitVec.eq_of_toNat_eq (by simp [Word.ofBytes, natOfBytes])⟩

end Platform

theorem Byte.eq_of_setWidth {b c : Byte} (h : (b.setWidth 32 : Word) = c.setWidth 32) : b = c := by
  simpa using congrArg (BitVec.setWidth 8) h

/-! ## Bytes in a row -/

namespace Platform

/-- From an address on, task memory reads as some bytes. -/
inductive Reads : Platform → Word → List Byte → Platform → Prop
  | nil (p : Platform) (addr : Word) : Reads p addr [] p
  | cons {p q r : Platform} {addr : Word} {b : Byte} {bytes : List Byte}
      (head : p.read .task addr .byte = (.ok (b.setWidth 32), q))
      (tail : Reads q (addr + 1) bytes r) : Reads p addr (b :: bytes) r

/-- From an address on, task memory takes some bytes. -/
inductive Writes : Platform → Word → List Byte → Platform → Prop
  | nil (p : Platform) (addr : Word) : Writes p addr [] p
  | cons {p q r : Platform} {addr : Word} {b : Byte} {bytes : List Byte}
      (head : p.write .task addr .byte (b.setWidth 32) = (.ok (), q))
      (tail : Writes q (addr + 1) bytes r) : Writes p addr (b :: bytes) r

/-- At an address there is a path: bytes other than zero, and then a zero. -/
structure HasPath (p : Platform) (addr : Word) (path : List Byte) (q : Platform) : Prop where
  reads : p.Reads addr (path ++ [0]) q
  nonzero : 0 ∉ path
  length : path.length < 2 ^ 32

/-- A platform on which bytes have been read, and nothing else. -/
def Peeks : Platform → Platform → Prop :=
  Relation.ReflTransGen fun p q => ∃ addr, (p.read .task addr .byte).2 = q

variable {p p' q : Platform} {addr : Word} {path data : List Byte} {len : Nat}

theorem Peeks.read {x : Except MemFault Word} (h : p.read .task addr .byte = (x, q)) :
    p.Peeks q :=
  .single ⟨addr, congrArg Prod.snd h⟩

/-! ### Reading -/

theorem reads_nil_iff : p.Reads addr [] q ↔ q = p := by
  constructor
  · intro h
    cases h
    rfl
  · rintro rfl
    exact .nil q addr

/-- The first of some bytes is the one that is read first. -/
theorem reads_cons_iff {b c : Byte} (hread : p.read .task addr .byte = (.ok (b.setWidth 32), p')) :
    p.Reads addr (c :: data) q ↔ c = b ∧ p'.Reads (addr + 1) data q := by
  constructor
  · intro h
    cases h with
    | cons head tail =>
        rw [hread] at head
        obtain ⟨hv, rfl⟩ := Prod.mk.inj head
        exact ⟨(Byte.eq_of_setWidth (Except.ok.inj hv)).symm, tail⟩
  · rintro ⟨rfl, tail⟩
    exact .cons hread tail

theorem not_reads_cons {c : Byte} {fault : MemFault}
    (hread : p.read .task addr .byte = (.error fault, p')) : ¬p.Reads addr (c :: data) q := by
  intro h
  cases h with
  | cons head tail =>
      rw [hread] at head
      cases head

theorem readBytesOnto_iff (acc : List Byte) (len : Nat) (addr : Word) (p : Platform) :
    readBytesOnto acc len addr p = (.ok data, q) ↔
      ∃ bytes, data = acc.reverse ++ bytes ∧ bytes.length = len ∧ p.Reads addr bytes q := by
  fun_induction readBytesOnto acc len addr p with
  | case1 acc addr p =>
      constructor
      · intro h
        cases h
        exact ⟨[], by simp, rfl, .nil _ addr⟩
      · rintro ⟨bytes, rfl, hlen, hreads⟩
        obtain rfl := List.length_eq_zero_iff.mp hlen
        obtain rfl := reads_nil_iff.mp hreads
        simp
  | case2 acc len addr p v p' hread ih =>
      obtain ⟨b, rfl⟩ := byte_of_load hread
      rw [ih]
      constructor
      · rintro ⟨bytes, rfl, hlen, hreads⟩
        exact ⟨b :: bytes, by simp, by simp [hlen], .cons hread hreads⟩
      · rintro ⟨_ | ⟨c, bytes⟩, rfl, hlen, hreads⟩
        · simp at hlen
        · obtain ⟨rfl, htail⟩ := (reads_cons_iff hread).mp hreads
          exact ⟨bytes, by simp, by simpa using hlen, htail⟩
  | case3 acc len addr p fault p' hread =>
      constructor
      · intro h
        cases h
      · rintro ⟨_ | ⟨c, bytes⟩, -, hlen, hreads⟩
        · simp at hlen
        · exact (not_reads_cons hread hreads).elim

theorem readBytes_iff :
    p.readBytes addr len = (.ok data, q) ↔ data.length = len ∧ p.Reads addr data q := by
  unfold readBytes
  rw [readBytesOnto_iff]
  constructor
  · rintro ⟨bytes, rfl, h⟩
    exact h
  · intro h
    exact ⟨data, rfl, h⟩

theorem scanString_iff (acc : List Byte) (limit : Nat) (addr : Word) (p : Platform) :
    scanString acc limit addr p = (some (.ok path), q) ↔
      ∃ bytes, path = acc.reverse ++ bytes ∧ bytes.length < limit ∧ 0 ∉ bytes ∧
        p.Reads addr (bytes ++ [0]) q := by
  fun_induction scanString acc limit addr p with
  | case1 => simp
  | case2 acc limit addr p p' hread =>
      have hzero : p.read .task addr .byte = (.ok ((0 : Byte).setWidth 32), p') := hread
      constructor
      · intro h
        cases h
        exact ⟨[], by simp, by simp, by simp, .cons hzero (.nil _ _)⟩
      · rintro ⟨_ | ⟨c, bytes⟩, rfl, hlen, hnonzero, hreads⟩
        · obtain ⟨-, htail⟩ := (reads_cons_iff hzero).mp hreads
          simp [reads_nil_iff.mp htail]
        · obtain ⟨rfl, -⟩ := (reads_cons_iff hzero).mp hreads
          simp at hnonzero
  | case3 acc limit addr p v p' hread hv ih =>
      obtain ⟨b, rfl⟩ := byte_of_load hread
      rw [ih]
      constructor
      · rintro ⟨bytes, rfl, hlen, hnonzero, hreads⟩
        have hb : 0 ≠ b := by
          rintro rfl
          exact hv rfl
        exact ⟨b :: bytes, by simp, by simpa using hlen,
          List.not_mem_cons_of_ne_of_not_mem hb hnonzero, .cons hread hreads⟩
      · rintro ⟨_ | ⟨c, bytes⟩, rfl, hlen, hnonzero, hreads⟩
        · obtain ⟨rfl, -⟩ := (reads_cons_iff hread).mp hreads
          exact (hv rfl).elim
        · obtain ⟨rfl, htail⟩ := (reads_cons_iff hread).mp hreads
          exact ⟨bytes, by simp, by simpa using hlen, fun h => hnonzero (.tail _ h), htail⟩
  | case4 acc limit addr p fault p' hread =>
      constructor
      · intro h
        cases h
      · rintro ⟨_ | ⟨c, bytes⟩, -, -, -, hreads⟩
        · exact (not_reads_cons hread hreads).elim
        · exact (not_reads_cons hread hreads).elim

theorem readPath_iff : p.readPath addr = (some path, q) ↔ p.HasPath addr path q := by
  have hscan : scanString [] 0x100000000 addr p = (some (.ok path), q) ↔ _ :=
    scanString_iff [] 0x100000000 addr p
  constructor
  · intro h
    unfold readPath at h
    split at h
    · rename_i data r hs
      cases h
      obtain ⟨bytes, rfl, hlen, hnonzero, hreads⟩ := hscan.mp hs
      exact ⟨hreads, hnonzero, hlen⟩
    · cases h
  · intro h
    unfold readPath
    rw [hscan.mpr ⟨path, rfl, h.length, h.nonzero, h.reads⟩]

theorem peeks_readBytesOnto (acc : List Byte) (len : Nat) (addr : Word) (p : Platform) :
    p.Peeks (readBytesOnto acc len addr p).2 := by
  fun_induction readBytesOnto acc len addr p with
  | case1 => exact .refl
  | case2 acc len addr p v q hread ih => exact (Peeks.read hread).trans ih
  | case3 acc len addr p fault q hread => exact .read hread

theorem peeks_scanString (acc : List Byte) (limit : Nat) (addr : Word) (p : Platform) :
    p.Peeks (scanString acc limit addr p).2 := by
  fun_induction scanString acc limit addr p with
  | case1 => exact .refl
  | case2 acc limit addr p q hread => exact .read hread
  | case3 acc limit addr p v q hread hv ih => exact (Peeks.read hread).trans ih
  | case4 acc limit addr p fault q hread => exact .read hread

theorem peeks_readPath (p : Platform) (addr : Word) : p.Peeks (p.readPath addr).2 := by
  have hscan := peeks_scanString [] 0x100000000 addr p
  unfold readPath
  split <;> rename_i hs <;> rw [hs] at hscan <;> exact hscan

/-! ### Writing -/

theorem writeBytes_of_writes (h : p.Writes addr data q) : p.writeBytes addr data = (.ok (), q) := by
  induction h with
  | nil p addr => rfl
  | cons head tail ih =>
      unfold writeBytes
      rw [head]
      exact ih

end Platform

end TypedCore
