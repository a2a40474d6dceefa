import Mathlib.Data.List.Forall2
import TypedCore.Proofs.Models.Agreement
import TypedCore.Proofs.Programs.Overlay

/-!
# The argument vector

An executable finds its arguments where a C program looks for them: their number
behind a zero word at address 0, then a pointer to each and a null pointer, and
behind these the strings. `readArguments` is such a reader. It knows nothing of the
block; it goes by the numbers it loads.

The pointers are computed ahead of the bytes they point at. That the two stay in
step is one induction over the arguments, with what stands in front of the current
one as its invariant (`Sees.strings`). What the reader is given is a view of
memory, so whatever was placed before the block does not matter as long as loads
see the block there (`Bus.Shows.sees`).
-/

namespace TypedCore

/-! ## Reading -/

/-- What a load sees at an address. -/
def Platform.look (p : Platform) (mode : Mode) (addr : Word) (width : Width) : Option Word :=
  (p.read mode addr width).1.toOption

section Reader

variable (look : Word → Width → Option Word)

/-- The number in the word at an address. -/
def wordAt (a : Nat) : Option Nat := (look (BitVec.ofNat 32 a) .word).map BitVec.toNat

/-- Reads the bytes in front of the next zero byte, if there are fewer than `limit` of them. -/
def readString : Nat → Word → Option (List Byte)
  | 0, _ => none
  | limit + 1, addr => do
    let v ← look addr .byte
    if v = 0 then return []
    return v.setWidth 8 :: (← readString limit (addr + 1))

/-- Reads some strings whose pointers lie one after the other from an address on. -/
def readStrings (limit : Nat) : Nat → Nat → Option (List (List Byte))
  | _, 0 => some []
  | a, count + 1 => do
    let s ← readString look limit (BitVec.ofNat 32 (← wordAt look a))
    return s :: (← readStrings limit (a + 4) count)

/-- Reads as many strings as the count at address 4 says. -/
def readArguments (limit : Nat) : Option (List (List Byte)) := do
  readStrings look limit 8 (← wordAt look 4)

/-- What stands where of an argument vector with given pointers. -/
structure Arguments.Found (limit : Nat) (args : List (List Byte)) (pointers : List Nat) : Prop where
  zero : wordAt look 0 = some 0
  count : wordAt look 4 = some args.length
  pointer : ∀ i (h : i < pointers.length), wordAt look (8 + 4 * i) = some pointers[i]
  null : wordAt look (8 + 4 * args.length) = some 0
  strings : List.Forall₂ (fun p arg => readString look limit (BitVec.ofNat 32 p) = some arg)
    pointers args
  increasing : pointers.Pairwise (· < ·)
  /-- The strings lie behind the null pointer, -/
  behind : ∀ p ∈ pointers, 8 + 4 * args.length + 4 ≤ p
  /-- and each ends with its zero byte before the next ones. -/
  apart : (pointers.zip args).Pairwise fun x y => x.1 + (x.2.length + 1) ≤ y.1

end Reader

variable {look : Word → Width → Option Word} {limit : Nat}

theorem readStrings_eq {args : List (List Byte)} {pointers : List Nat} {a : Nat}
    (hpointer : ∀ i (h : i < pointers.length), wordAt look (a + 4 * i) = some pointers[i])
    (hstrings : List.Forall₂ (fun p arg => readString look limit (BitVec.ofNat 32 p) = some arg)
      pointers args) :
    readStrings look limit a args.length = some args := by
  induction hstrings generalizing a with
  | nil => rfl
  | @cons p arg ps args hstring hrest ih =>
      have hfirst : wordAt look a = some p := hpointer 0 (Nat.zero_lt_succ _)
      have hnext : readStrings look limit (a + 4) args.length = some args :=
        ih fun i hi => by
          have h := hpointer (i + 1) (Nat.succ_lt_succ hi)
          rwa [Nat.mul_succ, Nat.add_comm (4 * i), ← Nat.add_assoc] at h
      rw [List.length_cons, readStrings, hfirst]
      simp [hstring, hnext]

/-- What is found is what a reader reads. -/
theorem Arguments.Found.readArguments {args : List (List Byte)} {pointers : List Nat}
    (h : Found look limit args pointers) : readArguments look limit = some args := by
  rw [TypedCore.readArguments, h.count]
  exact readStrings_eq h.pointer h.strings

/-! ## The block -/

/-- Memory begins with some bytes as far as loads can see. -/
def Sees (look : Word → Width → Option Word) (bytes : List Byte) : Prop :=
  ∀ n width, n % width.bytes = 0 → n + width.bytes ≤ bytes.length →
    look (BitVec.ofNat 32 n) width = some (Word.ofBytes ((bytes.drop n).take width.bytes))

theorem Word.ofBytes_bytesOfNat (v : Nat) : Word.ofBytes (bytesOfNat 4 v) = BitVec.ofNat 32 v := by
  apply BitVec.eq_of_toNat_eq
  rw [Word.ofBytes, natOfBytes_bytesOfNat, BitVec.toNat_ofNat, BitVec.toNat_ofNat]
  exact Nat.mod_mod _ _

/-- Words one after the other are at multiples of four. -/
theorem take_drop_words {words : List Nat} {k v : Nat} (hk : words[k]? = some v)
    (back : List Byte) :
    ((words.flatMap (bytesOfNat 4) ++ back).drop (4 * k)).take 4 = bytesOfNat 4 v := by
  induction words generalizing k with
  | nil => cases hk
  | cons w words ih =>
      have hlen : (bytesOfNat 4 w).length = 4 := length_bytesOfNat 4 w
      rw [List.flatMap_cons, List.append_assoc]
      cases k with
      | zero =>
          obtain rfl := Option.some.inj hk
          rw [Nat.mul_zero, List.drop_zero, List.take_left' hlen]
      | succ k =>
          rw [Nat.mul_succ, Nat.add_comm, ← List.drop_drop, List.drop_left' hlen]
          exact ih hk

namespace Sees

variable {front arg back : List Byte} {args : List (List Byte)}

theorem byte {b : Byte} (h : Sees look (front ++ b :: back)) :
    look (BitVec.ofNat 32 front.length) .byte = some (b.setWidth 32) := by
  rw [h front.length .byte (Nat.mod_one _) (by simp [Width.bytes]), List.drop_left]
  simp [Width.bytes, Word.ofBytes, natOfBytes]

theorem string (harg : 0 ∉ arg) (h : Sees look (front ++ (arg ++ 0 :: back)))
    (hlimit : arg.length < limit) :
    readString look limit (BitVec.ofNat 32 front.length) = some arg := by
  induction arg generalizing front limit with
  | nil =>
      obtain ⟨limit, rfl⟩ := Nat.exists_eq_add_one_of_ne_zero (Nat.ne_of_gt hlimit)
      rw [readString, h.byte]
      rfl
  | cons b arg ih =>
      obtain ⟨limit, rfl⟩ := Nat.exists_eq_add_one_of_ne_zero (Nat.ne_zero_of_lt hlimit)
      obtain ⟨hb, harg⟩ := not_or.mp (mt List.mem_cons.mpr harg)
      have hne : b.setWidth 32 ≠ (0 : Word) := fun h =>
        hb (by simpa using (congrArg (BitVec.setWidth 8) h).symm)
      have hnext : BitVec.ofNat 32 front.length + 1 = BitVec.ofNat 32 (front ++ [b]).length := by
        rw [List.length_append, BitVec.ofNat_add]
        rfl
      have hrest : readString look limit (BitVec.ofNat 32 (front ++ [b]).length) = some arg :=
        ih harg (by simpa using h) (Nat.lt_of_succ_lt_succ hlimit)
      rw [readString, h.byte, hnext, hrest]
      simp only [Option.bind_eq_bind, Option.bind_some, if_neg hne]
      simp

/-- Strings one after the other, each with its zero byte, are read at their addresses. -/
theorem strings (hargs : ∀ arg ∈ args, 0 ∉ arg)
    (h : Sees look (front ++ args.flatMap Arguments.terminated))
    (hlimit : (front ++ args.flatMap Arguments.terminated).length ≤ limit) :
    List.Forall₂ (fun p arg => readString look limit (BitVec.ofNat 32 p) = some arg)
      (Arguments.addresses front.length args) args := by
  induction args generalizing front with
  | nil => exact .nil
  | cons arg args ih =>
      obtain ⟨harg, hrest⟩ := List.forall_mem_cons.mp hargs
      rw [List.flatMap_cons] at h hlimit
      have hfirst : Sees look (front ++ (arg ++ 0 :: args.flatMap Arguments.terminated)) := by
        rwa [Arguments.terminated, List.append_assoc] at h
      have hlt : arg.length < limit := by
        simp [Arguments.terminated] at hlimit
        omega
      rw [← List.append_assoc] at h hlimit
      refine .cons (string harg hfirst hlt) ?_
      rw [← List.length_append]
      exact ih hrest h hlimit

end Sees

namespace Arguments

variable {args : List (List Byte)}

@[simp] theorem length_addresses (a : Nat) (args : List (List Byte)) :
    (addresses a args).length = args.length := by
  induction args generalizing a with
  | nil => rfl
  | cons arg args ih => simp [addresses, ih]

theorem addresses_bounds {a p : Nat} (hp : p ∈ addresses a args) :
    a ≤ p ∧ p < a + (args.flatMap terminated).length := by
  induction args generalizing a with
  | nil => cases hp
  | cons arg args ih =>
      rw [List.flatMap_cons, List.length_append]
      have hlen : (terminated arg).length = arg.length + 1 := List.length_append
      rcases List.mem_cons.mp hp with rfl | hp
      · omega
      · obtain ⟨hlow, hhigh⟩ := ih hp
        omega

theorem addresses_apart (a : Nat) (args : List (List Byte)) :
    ((addresses a args).zip args).Pairwise fun x y => x.1 + (x.2.length + 1) ≤ y.1 := by
  induction args generalizing a with
  | nil => exact .nil
  | cons arg args ih =>
      refine .cons (fun y hy => ?_) (ih _)
      have hlow := (addresses_bounds (List.of_mem_zip hy).1).1
      rwa [terminated, List.length_append] at hlow

theorem addresses_increasing (a : Nat) (args : List (List Byte)) :
    (addresses a args).Pairwise (· < ·) := by
  have hzip : ((addresses a args).zip args).map Prod.fst = addresses a args :=
    List.map_fst_zip (Nat.le_of_eq (length_addresses a args))
  rw [← hzip, List.pairwise_map]
  exact (addresses_apart a args).imp fun h => by omega

theorem length_table (args : List (List Byte)) : (table args).length = args.length + 3 := by
  simp [table]

theorem table_pointer {i : Nat} (hi : i < (addresses (start args.length) args).length) :
    (table args)[i + 2]? = some (addresses (start args.length) args)[i] := by
  show (addresses (start args.length) args ++ [0])[i]? = _
  rw [List.getElem?_append_left hi, List.getElem?_eq_getElem hi]

theorem table_null (args : List (List Byte)) : (table args)[args.length + 2]? = some 0 := by
  show (addresses (start args.length) args ++ [0])[args.length]? = _
  rw [List.getElem?_append_right (by simp), length_addresses, Nat.sub_self]
  rfl

/-- The first string is where the first pointer says. -/
theorem length_words (args : List (List Byte)) :
    ((table args).flatMap (bytesOfNat 4)).length = start args.length := by
  have hwords : ∀ words : List Nat, (words.flatMap (bytesOfNat 4)).length = 4 * words.length := by
    intro words
    induction words with
    | nil => rfl
    | cons w words ih =>
        rw [List.flatMap_cons, List.length_append, ih, length_bytesOfNat, List.length_cons]
        omega
  rw [hwords, length_table, start]
  omega

theorem length_block (args : List (List Byte)) :
    (block args).length = start args.length + (args.flatMap terminated).length := by
  rw [block, List.length_append, length_words]

theorem found (hargs : ∀ arg ∈ args, 0 ∉ arg) (h : Sees look (block args))
    (hlimit : (block args).length ≤ limit) (hlt : (block args).length < 2 ^ 32) :
    Found look limit args (addresses (start args.length) args) := by
  have hword : ∀ {k v}, (table args)[k]? = some v → v < 2 ^ 32 →
      wordAt look (4 * k) = some v := by
    intro k v hk hv
    have hkt : k < args.length + 3 := length_table args ▸ (List.getElem?_eq_some_iff.mp hk).1
    have hload := h (4 * k) .word (Nat.mul_mod_right 4 k) (by
      rw [length_block, start, Width.bytes]
      omega)
    rw [wordAt, hload, block, Width.bytes, take_drop_words hk, Word.ofBytes_bytesOfNat]
    rw [Option.map_some, BitVec.toNat_ofNat, Nat.mod_eq_of_lt hv]
  have hstart : start args.length ≤ (block args).length :=
    (length_block args).symm ▸ Nat.le_add_right _ _
  have hbound : ∀ p ∈ addresses (start args.length) args, p < 2 ^ 32 := fun p hp =>
    Nat.lt_trans (length_block args ▸ (addresses_bounds hp).2) hlt
  have hcount : args.length < 2 ^ 32 := by
    unfold start at hstart
    omega
  refine ⟨hword (k := 0) rfl (by decide), hword (k := 1) rfl hcount, fun i hi => ?_, ?_, ?_,
    addresses_increasing _ _, fun p hp => ?_, addresses_apart _ _⟩
  · rw [show 8 + 4 * i = 4 * (i + 2) by omega]
    refine hword ?_ (hbound _ (List.getElem_mem hi))
    rw [table_pointer hi]
  · rw [show 8 + 4 * args.length = 4 * (args.length + 2) by omega]
    exact hword (table_null args) (by decide)
  · rw [← length_words args]
    exact Sees.strings hargs h hlimit
  · have hlow := (addresses_bounds hp).1
    unfold start at hlow
    omega

end Arguments

/-! ## Loaded machines -/

/-- Whether data is addressed where it is in memory. -/
def Platform.Unmoved (p : Platform) (mode : Mode) : Prop :=
  p.model = .windowed → mode = .task → p.data = .whole

theorem Platform.Unmoved.physical {p : Platform} {mode : Mode} {a : Word} (h : p.Unmoved mode)
    (ha : a.toNat < maxRamSize) : p.physical mode a .read = .ok a := by
  have hlow : a.low28 = a.toNat := Nat.mod_eq_of_lt ha
  unfold Platform.physical
  split
  · rfl
  · rfl
  · rw [hlow, BitVec.ofNat_toNat, BitVec.setWidth_eq]
  · rename_i hmodel
    simp [h hmodel rfl, Opens.physical?_whole ha]

/-- Loads see what a bus shows. -/
theorem Bus.Shows.sees {p : Platform} {mode : Mode} {size : Nat} {f : Nat → Byte}
    {bytes : List Byte} (h : p.bus.Shows size f) (hmode : p.Unmoved mode)
    (hsize : size ≤ maxRamSize) (hfit : bytes.length ≤ size)
    (hbytes : ∀ a (ha : a < bytes.length), f a = bytes[a]) : Sees (p.look mode) bytes := by
  intro n width haligned hend
  obtain ⟨r, hr, hbase, rfl, hbyte⟩ := h
  have hlimit : maxRamSize = 0x10000000 := rfl
  have hpos := width.bytes_pos
  have hn : (BitVec.ofNat 32 n).toNat = n := by
    rw [BitVec.toNat_ofNat]
    omega
  have hzero : r.base.toNat = 0 := congrArg BitVec.toNat hbase
  have hal : width.isAligned (BitVec.ofNat 32 n) = true := by
    rw [Width.isAligned, hn, haligned]
    rfl
  have hphys := hmode.physical (a := BitVec.ofNat 32 n) (by omega)
  have hcovers : r.Covers (BitVec.ofNat 32 n) width.bytes := by
    unfold Ram.Covers
    omega
  have hread : ((List.range width.bytes).map fun i => r.byte (n - 0 + i)) =
      (bytes.drop n).take width.bytes := by
    apply List.ext_getElem
    · simp
      omega
    · intro i hi hi'
      simp only [List.length_map, List.length_range] at hi
      rw [List.getElem_map, List.getElem_range, List.getElem_take, List.getElem_drop, hbyte,
        Nat.sub_zero, hbytes]
  unfold Platform.look Platform.read
  rw [Platform.load_allowed hal hphys, Bus.readBytes_ram hr, if_pos hcovers, hn, hzero, hread]
  rfl

theorem Config.Describes.shows {c : Config} {m : Machine} (h : c.Describes ramBase m)
    (hc : c.model ≠ .peripheral) : ∃ f, m.platform.bus.Shows c.ramSize f := by
  obtain ⟨r, hr, hbase, hsize, -⟩ := c.shows hc
  have hlayout : m.platform.bus.layout = [(Device.ram r).blank] := by
    rw [h.layout]
    exact congrArg (List.map Device.blank) hr
  obtain ⟨s, hs, hbase', hsize'⟩ := Bus.memory_of_layout hlayout
  exact ⟨s.byte, s, hs, hbase'.trans hbase, hsize'.trans hsize, fun _ => rfl⟩

namespace Machine

/-- A machine of the generic or the windowed model that loaded an executable, with arguments that
have no zero byte: reading its memory as a C program does gives the arguments. The table of
pointers is complete, from the zero word in front to the null pointer behind it, the pointers grow,
and no string lies over the table or over another one. -/
theorem load_arguments (c : Config) (hc : c.model ≠ .peripheral) (hsize : c.ramSize ≤ maxRamSize)
    (m : Machine) (hm : c.Describes ramBase m) (image : Image)
    (hexec : image.isExecutable = true) (args : List (List Byte))
    (hargs : ∀ arg ∈ args, 0 ∉ arg) (sp : Word) (hload : (m.load image args sp).1 = .ok ())
    (mode : Mode) (hmode : m.platform.Unmoved mode) :
    let look := (m.load image args sp).2.platform.look mode
    readArguments look c.ramSize = some args ∧
      ∃ pointers, Arguments.Found look c.ramSize args pointers := by
  intro look
  obtain ⟨f, hf⟩ := hm.shows hc
  obtain ⟨b, g, hplace, hshows, hover⟩ :=
    hf.place (Nat.lt_of_le_of_lt hsize (by decide)) image args
  cases hmisfit : image.misfit? args c.ramSize with
  | some fault =>
      rw [hmisfit] at hplace
      rw [load_refused hplace sp] at hload
      cases hload
  | none =>
      have hfits := Image.misfit?_eq_none_iff.mp hmisfit
      rw [hmisfit] at hplace
      have hlook : look = Platform.look { m.platform with bus := b } mode :=
        congrArg (Platform.look · mode) (load_starts hplace sp).2.1
      have hblock := hfits.arguments hexec
      have hbytes : ∀ a (ha : a < (Arguments.block args).length),
          g a = (Arguments.block args)[a] := by
        intro a ha
        rw [congrFun (hover hfits) a, Image.byte?, if_pos hexec, List.getElem?_eq_getElem ha]
        rfl
      have hsees : Sees look (Arguments.block args) := by
        rw [hlook]
        exact hshows.sees hmode hsize hblock hbytes
      have hfound := Arguments.found hargs hsees hblock
        (Nat.lt_of_le_of_lt hblock (Nat.lt_of_le_of_lt hsize (by decide)))
      exact ⟨hfound.readArguments, _, hfound⟩

/-- Three arguments, one of them empty and one of two bytes outside ASCII, in a task of a windowed
machine whose program lies over the same addresses. -/
theorem load_arguments_layered :
    let m := Machine.ofConfig narrow (.ofConfig narrow)
    let args : List (List Byte) := [[0x61], [], [0xc3, 0xa9]]
    let look := (m.load layered args narrow.initialSp).2.platform.look .task
    readArguments look 64 = some args ∧ wordAt look 0 = some 0 ∧ wordAt look 4 = some 3 ∧
      wordAt look 20 = some 0 := by
  intro m args look
  have hmodel : narrow.model ≠ .peripheral := by decide
  have hsize : narrow.ramSize ≤ maxRamSize := by decide
  have hload : (m.load layered args narrow.initialSp).1 = .ok () := by decide +kernel
  obtain ⟨hread, pointers, hfound⟩ := load_arguments narrow hmodel hsize m (.ofConfig narrow _)
    layered rfl args (by decide) _ hload .task fun _ _ => rfl
  exact ⟨hread, hfound.zero, hfound.count, hfound.null⟩

end Machine

end TypedCore
