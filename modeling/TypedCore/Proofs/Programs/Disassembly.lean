import Mathlib.Data.List.Forall2
import TypedCore.Image.Listing
import TypedCore.Proofs.Calls.Returns
import TypedCore.Proofs.Execution.Run

/-!
# Listings and what is fetched

The listing of a program and the processor read instructions in their own ways: one
takes halfwords from a list of bytes, the other loads them through the memory
interface. What an instruction is comes down to its halfwords for both
(`instructionAt`), and two readings give one instruction exactly if they agree on the
halfwords that belong to it (`instructionAt_eq_iff`).

They agree on every halfword but one: where the bytes end within a halfword, a listing
has zero, and memory has the last byte. So a listing shows what is fetched, unless the
last instruction is cut off there by a byte that is not zero
(`ListingLine.Complete`); and whatever it shows is fetched if the program is loaded
without the byte left over.
-/

namespace TypedCore

/-! ## Instructions from halfwords -/

theorem append_half_inj {x y x' y' : Half} (h : x ++ y = x' ++ y') : x = x' ∧ y = y' := by
  have hhigh := congrArg (fun w : Word => w.extractLsb' 16 16) h
  have hlow := congrArg (fun w : Word => w.extractLsb' 0 16) h
  rw [BitVec.extractLsb'_append_eq_left, BitVec.extractLsb'_append_eq_left] at hhigh
  rw [BitVec.extractLsb'_append_eq_right, BitVec.extractLsb'_append_eq_right] at hlow
  exact ⟨hhigh, hlow⟩

/-- The instruction that halfwords spell at an offset. -/
def instructionAt (half : Nat → Half) (o : Nat) : Decoded :=
  decode (half o) <|
    match (half o).insnLength with
    | 2 => 0
    | 4 => (half (o + 2)).setWidth 32
    | _ => half (o + 4) ++ half (o + 2)

section Halfwords

variable {f g : Nat → Half} {o : Nat}

theorem instructionAt_congr
    (h : ∀ i, i % 2 = 0 → i < (f o).insnLength → f (o + i) = g (o + i)) :
    instructionAt f o = instructionAt g o := by
  have hcases := (f o).insnLength_cases
  have hword : f o = g o := h 0 rfl (by omega)
  unfold instructionAt
  rw [← hword]
  obtain hlen | hlen | hlen := hcases
  · simp only [hlen]
  · simp only [hlen, ← h 2 rfl (by omega)]
  · simp only [hlen, ← h 2 rfl (by omega), ← h 4 rfl (by omega)]

/-- An instruction determines all of its halfwords. -/
theorem half_of_instructionAt (h : instructionAt f o = instructionAt g o) {i : Nat}
    (heven : i % 2 = 0) (hi : i < (f o).insnLength) : f (o + i) = g (o + i) := by
  have hword : f o = g o := congrArg Decoded.word h
  have hext := congrArg Decoded.ext h
  simp only [instructionAt, decode, decodeWith, ← hword] at hext
  obtain hlen | hlen | hlen := (f o).insnLength_cases
  · obtain rfl : i = 0 := by omega
    exact hword
  · simp only [hlen, cutExtension] at hext
    have hlow : f (o + 2) = g (o + 2) := by
      simpa using congrArg (fun w : Word => w.setWidth 16) hext
    obtain rfl | rfl : i = 0 ∨ i = 2 := by omega
    · exact hword
    · exact hlow
  · simp only [hlen, cutExtension] at hext
    obtain ⟨hhigh, hlow⟩ := append_half_inj hext
    obtain rfl | rfl | rfl : i = 0 ∨ i = 2 ∨ i = 4 := by omega
    · exact hword
    · exact hlow
    · exact hhigh

/-- Two readings give the same instruction exactly if they agree on its halfwords. -/
theorem instructionAt_eq_iff :
    instructionAt f o = instructionAt g o ↔
      ∀ i, i % 2 = 0 → i < (f o).insnLength → f (o + i) = g (o + i) :=
  ⟨fun h _ heven hi => half_of_instructionAt h heven hi, instructionAt_congr⟩

end Halfwords

/-! ## Halfwords of a list of bytes -/

/-- The halfword at an offset of a memory that is zero but for the bytes at its start. -/
def halfInMemory (bytes : List Byte) (o : Nat) : Half := bytes.getD (o + 1) 0 ++ bytes.getD o 0

/-- The halfword at an offset as a listing reads it. -/
def halfInListing (bytes : List Byte) (o : Nat) : Half := leadingHalf (bytes.drop o)

section Bytes

variable {bytes : List Byte} {o : Nat}

theorem halfInListing_eq :
    halfInListing bytes o = if o + 2 ≤ bytes.length then halfInMemory bytes o else 0 := by
  unfold halfInListing halfInMemory
  split
  · rename_i h
    have hlow : o < bytes.length := by omega
    have hhigh : o + 1 < bytes.length := by omega
    rw [List.drop_eq_getElem_cons hlow, List.drop_eq_getElem_cons hhigh]
    simp [leadingHalf, hlow, hhigh]
  · rename_i h
    have hlen : (bytes.drop o).length < 2 := by
      rw [List.length_drop]
      omega
    unfold leadingHalf
    split
    · rename_i hdrop
      rw [hdrop] at hlen
      simp only [List.length_cons] at hlen
      omega
    · rfl

/-- What lies behind the bytes is zero. -/
theorem halfInMemory_behind (h : bytes.length ≤ o) : halfInMemory bytes o = 0 := by
  have hnext : bytes.length ≤ o + 1 := by omega
  simp [halfInMemory, h, hnext]

/-- Only a halfword that the bytes end in can be read in two ways. -/
theorem halfInListing_eq_inMemory_iff :
    halfInListing bytes o = halfInMemory bytes o ↔
      o + 1 ≠ bytes.length ∨ bytes.getLast? = some 0 := by
  rw [halfInListing_eq]
  by_cases hin : o + 2 ≤ bytes.length
  · rw [if_pos hin]
    exact iff_of_true rfl (.inl (by omega))
  rw [if_neg hin]
  by_cases hend : o + 1 = bytes.length
  · have ho : o < bytes.length := by omega
    have hlast : bytes.getLast? = some bytes[o] := by
      rw [List.getLast?_eq_getElem?, show bytes.length - 1 = o by omega,
        List.getElem?_eq_getElem ho]
    have hhalf : halfInMemory bytes o = (0 : Byte) ++ bytes[o] := by
      have hnext : bytes.length ≤ o + 1 := by omega
      simp [halfInMemory, ho, hnext]
    rw [hlast, hhalf, Option.some.injEq]
    constructor
    · intro h
      have hlow := congrArg (fun w : Half => w.extractLsb' 0 8) h
      rw [BitVec.extractLsb'_append_eq_right] at hlow
      exact .inr hlow.symm
    · rintro (h | h)
      · exact absurd hend h
      · rw [h]
        rfl
  · rw [halfInMemory_behind (by omega)]
    exact iff_of_true rfl (.inl hend)

/-- A listing never looks at the byte left over. -/
theorem halfInListing_eq_cut (heven : o % 2 = 0) :
    halfInListing bytes o = halfInMemory (bytes.take (bytes.length / 2 * 2)) o := by
  rw [halfInListing_eq]
  split
  · rename_i h
    have hlow : o < bytes.length / 2 * 2 := by omega
    have hhigh : o + 1 < bytes.length / 2 * 2 := by omega
    simp [halfInMemory, hlow, hhigh]
  · rename_i h
    rw [halfInMemory_behind]
    rw [List.length_take]
    omega

end Bytes

/-! ## Lines -/

namespace ListingLine

/-- Lines that follow one another from an address on, each where the instruction of the one
before ends. -/
def Consecutive : Nat → List ListingLine → Prop
  | _, [] => True
  | addr, line :: rest => line.addr = addr ∧ Consecutive (addr + line.decoded.len) rest

/-- A line of a listing from address 0 on, unless the bytes end within a halfword of its
instruction, in a byte that is not zero. -/
def Complete (bytes : List Byte) (line : ListingLine) : Prop :=
  bytes.length % 2 = 0 ∨ line.addr + line.decoded.len ≤ bytes.length ∨ bytes.getLast? = some 0

instance (bytes : List Byte) (line : ListingLine) : Decidable (line.Complete bytes) :=
  inferInstanceAs (Decidable (_ ∨ _))

/-- What stands in front of the assembly text in a line. -/
def columns (line : ListingLine) : String :=
  let bytes := " ".intercalate (line.bytes.map fun b => Text.hexPadded 2 b.toNat)
  Text.hexPadded 8 line.addr ++ ":  " ++ Text.padRight 18 bytes ++ " "

theorem text_eq {line : ListingLine} {t : String} (h : line.decoded.text = .ok t) :
    line.text = .ok (line.columns ++ t) := by
  simp [text, columns, h, bind, Except.bind, pure, Except.pure, String.append_assoc]

end ListingLine

section Lines

variable {addr : Nat} {bytes : List Byte} {line : ListingLine}

theorem consecutive_listing (addr : Nat) (bytes : List Byte) :
    ListingLine.Consecutive addr (listing addr bytes) := by
  fun_induction listing addr bytes with
  | case1 addr low high rest bytes word len ih => exact ⟨rfl, ih⟩
  | case2 => trivial

/-- The lines print the bytes in their order, but for one that may be left over. -/
theorem bytes_listing (addr : Nat) (bytes : List Byte) :
    ∃ rest, bytes = (listing addr bytes).flatMap ListingLine.bytes ++ rest ∧ rest.length ≤ 1 := by
  fun_induction listing addr bytes with
  | case1 addr low high tail bytes word len ih =>
      obtain ⟨rest, hrest, hlen⟩ := ih
      refine ⟨rest, ?_, hlen⟩
      rw [List.flatMap_cons, List.append_assoc, ← hrest]
      exact (List.take_append_drop len bytes).symm
  | case2 addr bytes h =>
      refine ⟨bytes, rfl, ?_⟩
      match bytes, h with
      | [], _ => exact Nat.zero_le 1
      | [_], _ => exact Nat.le_refl 1
      | a :: b :: t, h => exact absurd rfl (h a b t)

theorem length_listing (addr : Nat) (bytes : List Byte) :
    2 * (listing addr bytes).length ≤ bytes.length := by
  fun_induction listing addr bytes with
  | case1 addr low high tail bytes word len ih =>
      have hlen : len = 2 ∨ len = 4 ∨ len = 6 := word.insnLength_cases
      have hbytes : bytes.length = tail.length + 2 := rfl
      rw [List.length_drop] at ih
      simp only [List.length_cons]
      omega
  | case2 => exact Nat.zero_le _

/-- A line holds the instruction at its place, and its bytes as far as there are any. -/
theorem mem_listing (h : line ∈ listing addr bytes) :
    ∃ o, line.addr = addr + o ∧ o % 2 = 0 ∧ o + 2 ≤ bytes.length ∧
      line.bytes = (bytes.drop o).take line.decoded.len ∧
      line.decoded = instructionAt (halfInListing bytes) o := by
  fun_induction listing addr bytes with
  | case1 addr low high tail bytes word len ih =>
      have hlen : len = 2 ∨ len = 4 ∨ len = 6 := word.insnLength_cases
      change ∃ o, _ ∧ _ ∧ o + 2 ≤ bytes.length ∧ _ = (bytes.drop o).take _ ∧
        _ = instructionAt (halfInListing bytes) o
      obtain rfl | hmem := List.mem_cons.mp h
      · exact ⟨0, rfl, rfl, Nat.le_add_left 2 tail.length, rfl, rfl⟩
      · obtain ⟨o, haddr, heven, ho, htake, hdecoded⟩ := ih hmem
        rw [List.length_drop] at ho
        refine ⟨len + o, by omega, by omega, by omega, ?_, ?_⟩
        · rw [htake, List.drop_drop]
        · rw [hdecoded]
          unfold halfInListing
          simp only [instructionAt, List.drop_drop, Nat.add_assoc]
  | case2 => cases h

end Lines

/-! ## Fetching from fresh memory -/

theorem Word.ofBytes_half (low high : Byte) :
    (Word.ofBytes [low, high]).setWidth 16 = high ++ low := by
  have hlow := low.isLt
  have hhigh := high.isLt
  apply BitVec.eq_of_toNat_eq
  rw [BitVec.toNat_append, ← Nat.shiftLeft_add_eq_or_of_lt hlow, Nat.shiftLeft_eq]
  simp [Word.ofBytes, natOfBytes]
  omega

namespace Platform

/-- A platform just after a program is loaded at address 0: the windows are open, memory is
in front of the other devices and the first to be tried, and behind the program it is zero. -/
structure Fresh (p : Platform) (size : Nat) (bytes : List Byte) : Prop where
  memory : ∃ r, p.bus.Fronted r ∧ r.size = size ∧ ∀ i, r.byte i = bytes.getD i 0
  last : p.bus.last = 0
  inst : p.inst = .whole

namespace Fresh

variable {p : Platform} {size : Nat} {bytes : List Byte}

theorem size_le (h : p.Fresh size bytes) : size ≤ maxRamSize := by
  obtain ⟨r, hr, rfl, -⟩ := h.memory
  exact hr.size

/-- Every model fetches from a fresh platform without moving the address. -/
theorem physical (h : p.Fresh size bytes) (mode : Mode) {a : Word} (ha : a.toNat < size) :
    p.physical mode a .fetch = .ok a := by
  have hlow : a.toNat < 0x10000000 := Nat.lt_of_lt_of_le ha h.size_le
  have hmod : a.low28 = a.toNat := Nat.mod_eq_of_lt hlow
  unfold Platform.physical
  rw [h.inst]
  split
  · rfl
  · rfl
  · simp [hmod]
  · simp [Opens.physical?_whole hlow]

theorem fetchHalf (h : p.Fresh size bytes) (mode : Mode) {a : Word} (heven : a.toNat % 2 = 0)
    (ha : a.toNat + 2 ≤ size) :
    p.fetchHalf mode a = (.ok (halfInMemory bytes a.toNat), p) := by
  have hphys := h.physical mode (show a.toNat < size by omega)
  obtain ⟨r, hr, rfl, hbyte⟩ := h.memory
  have hal : Width.half.isAligned a = true := beq_iff_eq.mpr heven
  have hbase : r.base.toNat = 0 := congrArg BitVec.toNat hr.base
  have hcovers : r.Covers a Width.half.bytes := ⟨by omega, by rw [hbase, Nat.zero_add]; exact ha⟩
  have hroute : p.bus.route a Width.half.bytes = some 0 := by
    rw [Bus.route_last (h.last ▸ hr.owns_zero a _ ▸ decide_eq_true ha), h.last]
  obtain ⟨ds, hds, -⟩ := hr.front
  have hread : p.bus.readBytes a Width.half.bytes =
      (some [r.byte a.toNat, r.byte (a.toNat + 1)], p.bus) := by
    have hsame : p.bus.usedLast 0 = p.bus :=
      (congrArg p.bus.usedLast h.last).symm.trans (Bus.usedLast_self p.bus)
    rw [Bus.readBytes_of_route hroute (by rw [hds]; rfl) hcovers, hbase, hsame]
    rfl
  rw [fetchHalf_eq, load_allowed hal hphys, hread, hbyte, hbyte]
  exact Prod.ext (congrArg Except.ok (Word.ofBytes_half _ _)) rfl

/-- What is fetched is the instruction that the bytes spell, with zeros behind them. -/
theorem fetch (h : p.Fresh size bytes) (mode : Mode) {pc : Word} (heven : pc.toNat % 2 = 0)
    (hpc : pc.toNat + 6 ≤ size) :
    p.fetch mode pc = (.ok (instructionAt (halfInMemory bytes) pc.toNat), p) := by
  have hmax := h.size_le
  have hlimit : maxRamSize = 0x10000000 := rfl
  have htwo : (pc + 2).toNat = pc.toNat + 2 := by
    rw [BitVec.toNat_add]
    exact Nat.mod_eq_of_lt (by simp; omega)
  have hfour : (pc + 4).toNat = pc.toNat + 4 := by
    rw [BitVec.toNat_add]
    exact Nat.mod_eq_of_lt (by simp; omega)
  have hsecond := h.fetchHalf mode (a := pc + 2) (by omega) (by omega)
  have hthird := h.fetchHalf mode (a := pc + 4) (by omega) (by omega)
  rw [htwo] at hsecond
  rw [hfour] at hthird
  unfold Platform.fetch instructionAt
  rw [h.fetchHalf mode heven (by omega)]
  dsimp only
  unfold fetchExtension
  obtain hlen | hlen | hlen := (halfInMemory bytes pc.toNat).insnLength_cases
  · simp only [hlen]
  · simp only [hlen, hsecond]
  · simp only [hlen, hsecond, hthird]

end Fresh

end Platform

/-! ## Loading -/

/-- The image of a program that is not an executable. -/
def Image.raw (bytes : List Byte) : Image := ⟨0, [⟨0, bytes⟩], false⟩

theorem Image.parse_raw {bytes : List Byte} {image : Image} (h : parse bytes = .ok image)
    (hraw : image.isExecutable = false) : image = raw bytes := by
  unfold parse at h
  split at h
  · cases he : Elf.parse bytes with
    | error e => simp [he, bind, Except.bind] at h
    | ok parsed =>
        simp only [he, bind, Except.bind, pure, Except.pure, Except.ok.injEq] at h
        rw [← h] at hraw
        cases hraw
  · exact (Except.ok.inj h).symm

/-- No device was used yet on a bus that is just built. -/
theorem Bus.last_ofDevices (ds : List Device) : (ofDevices ds).last = 0 := by
  have hfold : ∀ (ds : List Device) (b : Bus), b.last = 0 → (ds.foldl attach b).last = 0 := by
    intro ds
    induction ds with
    | nil => exact fun b h => h
    | cons d ds ih => exact fun b _ => ih (b.attach d) rfl
  exact hfold ds {} rfl

/-- A program that fits is written to the memory in front, if that is tried first. -/
theorem Image.place_raw {b : Bus} {r : Ram} {bytes : List Byte} (hb : b.Fronted r)
    (hlast : b.last = 0) (hfit : bytes.length ≤ r.size) (args : List (List Byte)) :
    ∃ b', (raw bytes).place args b = (.ok (), b') ∧ b'.Fronted (r.setBytes 0 bytes) ∧
      b'.last = 0 := by
  obtain ⟨ds, hds, hno⟩ := hb.front
  have hbase : r.base.toNat = 0 := congrArg BitVec.toNat hb.base
  have hend : (0 : Word).toNat + bytes.length ≤ r.size := (Nat.zero_add _).trans_le hfit
  have hroute : b.route 0 bytes.length = some 0 := by
    rw [Bus.route_last (hlast ▸ hb.owns_zero _ _ ▸ decide_eq_true hend), hlast]
  have hwrite := Bus.writeBytes_of_route (r := r) hroute (by rw [hds]; rfl)
    ⟨hbase.trans_le (Nat.zero_le _), by rw [hbase, Nat.zero_add]; exact hend⟩
  rw [hds, hbase] at hwrite
  refine ⟨{ b.usedLast 0 with devices := .ram (r.setBytes 0 bytes) :: ds }, ?_, ?_, rfl⟩
  · simp only [raw, place, placeAll, Bus.load, hwrite]
    rfl
  · exact ⟨⟨ds, rfl, hno⟩, (Ram.base_setBytes r 0 bytes).trans hb.base,
      (Ram.size_setBytes r 0 bytes).trans_le hb.size⟩

theorem Machine.load_of_place {m : Machine} {image : Image} {args : List (List Byte)} {b : Bus}
    (h : image.place args m.platform.bus = (.ok (), b)) (sp : Word) :
    ∃ s, m.load image args sp =
      (.ok (), { m with state := s, platform := { m.platform with bus := b } }) := by
  obtain ⟨s, hs⟩ := State.writeReg_ok (i := stackReg) (by decide) (m.state.setPc image.entry)
    (.int sp)
  refine ⟨s, ?_⟩
  unfold load
  rw [h]
  simp only [hs]

/-- A configured machine takes every program that fits, and is fresh then. -/
theorem Config.load_raw (c : Config) (hsize : c.ramSize ≤ maxRamSize) {bytes : List Byte}
    (hfit : bytes.length ≤ c.ramSize) (args : List (List Byte)) (sp : Word) :
    ∃ m, (Machine.ofConfig c (.ofConfig c)).load (.raw bytes) args sp = (.ok (), m) ∧
      m.platform.Fresh c.ramSize bytes := by
  obtain ⟨ds, hds, hno, -⟩ := c.front
  let start := Machine.ofConfig c (.ofConfig c)
  let r : Ram := { base := ramBase, size := c.ramSize }
  have hb : start.platform.bus.Fronted r := ⟨⟨ds, hds, hno⟩, rfl, hsize⟩
  obtain ⟨b, hplace, hfront, hlast⟩ :=
    Image.place_raw hb (Bus.last_ofDevices (c.devicesAt ramBase)) hfit args
  obtain ⟨s, hload⟩ := Machine.load_of_place hplace sp
  have hbyte : ∀ i, (r.setBytes 0 bytes).byte i = bytes.getD i 0 := by
    intro i
    have hempty : r.byte i = 0 := by simp [Ram.byte, r]
    rw [Ram.byte_setBytes, hempty]
    by_cases hi : i < bytes.length
    · rw [if_pos (by omega), Nat.sub_zero]
    · rw [if_neg (by omega)]
      simp [Nat.not_lt.mp hi]
  exact ⟨_, hload, ⟨r.setBytes 0 bytes, hfront, Ram.size_setBytes r 0 bytes, hbyte⟩, hlast, rfl⟩

/-! ## What a listing shows -/

namespace ListingLine

/-- What is printed for a line: its columns and the assembly text of its instruction. -/
def Prints (line : ListingLine) (printed : String) : Prop :=
  ∃ t, line.decoded.text = .ok t ∧ printed = line.columns ++ t

theorem mapM_text {lines : List ListingLine}
    (h : ∀ line ∈ lines, ∃ t, line.decoded.text = .ok t) :
    ∃ printed, lines.mapM text = .ok printed ∧ List.Forall₂ Prints lines printed := by
  induction lines with
  | nil => exact ⟨[], rfl, .nil⟩
  | cons line lines ih =>
      obtain ⟨t, ht⟩ := h line (List.mem_cons_self ..)
      obtain ⟨printed, hprinted, hprints⟩ := ih fun l hl => h l (List.mem_cons_of_mem _ hl)
      refine ⟨(line.columns ++ t) :: printed, ?_, .cons ⟨t, ht, rfl⟩ hprints⟩
      rw [List.mapM_cons, text_eq ht, hprinted]
      rfl

end ListingLine

theorem Image.listing_of_mapM {bytes : List Byte} {printed : List String}
    (h : (TypedCore.listing 0 bytes).mapM ListingLine.text = .ok printed) :
    (raw bytes).listing = .ok ("entry: 0x00000000" :: "" :: printed) := by
  have hentry : "entry: 0x" ++ Text.hexPadded 8 (0 : Word).toNat = "entry: 0x00000000" := by
    decide +kernel
  rw [← hentry]
  simp [listing, raw, Segment.listing, h, bind, Except.bind, pure, Except.pure]

/-- The listing of a program that is not an executable prints all of its lines. -/
theorem Image.listing_raw (bytes : List Byte) :
    ∃ printed, (raw bytes).listing = .ok ("entry: 0x00000000" :: "" :: printed) ∧
      List.Forall₂ ListingLine.Prints (TypedCore.listing 0 bytes) printed := by
  have htext : ∀ line ∈ TypedCore.listing 0 bytes, ∃ t, line.decoded.text = .ok t := by
    intro line hline
    obtain ⟨o, -, -, -, -, hdecoded⟩ := mem_listing hline
    rw [hdecoded]
    exact decode_text_ok _ _
  obtain ⟨printed, hprinted, hprints⟩ := ListingLine.mapM_text htext
  exact ⟨printed, listing_of_mapM hprinted, hprints⟩

/-- The instruction of a line is the one in memory exactly if the line is complete. -/
theorem ListingLine.decoded_eq_iff {bytes : List Byte} {line : ListingLine}
    (h : line ∈ listing 0 bytes) :
    line.decoded = instructionAt (halfInMemory bytes) line.addr ↔ line.Complete bytes := by
  obtain ⟨o, haddr, heven, ho, -, hdecoded⟩ := mem_listing h
  obtain rfl : o = line.addr := by omega
  have hlen : line.decoded.len = (halfInListing bytes line.addr).insnLength := by
    rw [hdecoded]
    rfl
  have hcases := (halfInListing bytes line.addr).insnLength_cases
  rw [hdecoded, instructionAt_eq_iff, ← hlen]
  simp only [halfInListing_eq_inMemory_iff]
  unfold Complete
  constructor
  · intro hall
    by_cases hcut : bytes.length % 2 = 0 ∨ line.addr + line.decoded.len ≤ bytes.length
    · exact hcut.imp_right .inl
    -- otherwise the bytes end within the halfword that holds the last of them
    · obtain hne | hzero := hall (bytes.length - 1 - line.addr) (by omega) (by omega)
      · omega
      · exact .inr (.inr hzero)
  · rintro (hwhole | hwhole | hzero) i hi hlt
    · exact .inl (by omega)
    · exact .inl (by omega)
    · exact .inr hzero

theorem Machine.fetched_fresh {m : Machine} {size o : Nat} {bytes : List Byte} {s : State}
    (h : m.platform.Fresh size bytes) (hpc : s.pc = BitVec.ofNat 32 o) (heven : o % 2 = 0)
    (ho : o + 6 ≤ size) :
    ({ m with state := s } : Machine).fetched.1 = .ok (instructionAt (halfInMemory bytes) o) := by
  have hmax := h.size_le
  have hlimit : maxRamSize = 0x10000000 := rfl
  have hnat : s.pc.toNat = o := by
    rw [hpc, BitVec.toNat_ofNat]
    exact Nat.mod_eq_of_lt (by omega)
  have hsame : s.pc.even = s.pc := BitVec.eq_of_toNat_eq (by rw [Word.toNat_even]; omega)
  have hfetch : m.platform.fetch s.mode s.pc = _ := h.fetch s.mode (by omega) (by omega)
  unfold fetched
  dsimp only
  rw [hsame, hfetch, hnat]

/-- The listing of a program is made of lines that follow one another from address 0 on and
print its bytes, all but one at most, once and in order. At the address of a line the
processor fetches the instruction of that line, just after the program was loaded, exactly if
the line is complete; and always, if the program is loaded without the byte that an odd number
leaves over. -/
theorem Image.listing_fetched (c : Config) (hsize : c.ramSize ≤ maxRamSize) {bytes : List Byte}
    {image : Image} (hparse : parse bytes = .ok image) (hraw : image.isExecutable = false)
    (hfit : bytes.length + 6 ≤ c.ramSize) (args : List (List Byte)) (sp : Word) :
    let start := Machine.ofConfig c (.ofConfig c)
    let lines := TypedCore.listing 0 bytes
    (∃ printed, image.listing = .ok ("entry: 0x00000000" :: "" :: printed) ∧
      List.Forall₂ ListingLine.Prints lines printed) ∧
    ListingLine.Consecutive 0 lines ∧
    (∃ rest, bytes = lines.flatMap ListingLine.bytes ++ rest ∧ rest.length ≤ 1) ∧
    2 * lines.length ≤ bytes.length ∧
    ∃ m whole, start.load image args sp = (.ok (), m) ∧
      start.load (raw (bytes.take (bytes.length / 2 * 2))) args sp = (.ok (), whole) ∧
      ∀ line ∈ lines, line.bytes = (bytes.drop line.addr).take line.decoded.len ∧
        ∀ s : State, s.pc = BitVec.ofNat 32 line.addr →
          (∃ d, ({ m with state := s } : Machine).fetched.1 = .ok d ∧
            (line.decoded = d ↔ line.Complete bytes)) ∧
          ({ whole with state := s } : Machine).fetched.1 = .ok line.decoded := by
  intro start lines
  obtain rfl := parse_raw hparse hraw
  obtain ⟨m, hload, hm⟩ := c.load_raw hsize (show bytes.length ≤ c.ramSize by omega) args sp
  have hcut : (bytes.take (bytes.length / 2 * 2)).length ≤ c.ramSize := by
    rw [List.length_take]
    omega
  obtain ⟨whole, hwhole, hw⟩ := c.load_raw hsize hcut args sp
  refine ⟨listing_raw bytes, consecutive_listing 0 bytes, bytes_listing 0 bytes,
    length_listing 0 bytes, m, whole, hload, hwhole, fun line hline => ?_⟩
  obtain ⟨o, haddr, heven, ho, hbytes, hdecoded⟩ := mem_listing hline
  obtain rfl : o = line.addr := by omega
  refine ⟨hbytes, fun s hpc => ⟨⟨_, Machine.fetched_fresh hm hpc heven (by omega),
    ListingLine.decoded_eq_iff hline⟩, ?_⟩⟩
  rw [Machine.fetched_fresh hw hpc heven (by omega), hdecoded]
  refine congrArg Except.ok (instructionAt_congr fun i hi _ => ?_)
  exact (halfInListing_eq_cut (by omega)).symm

/-- Two instructions and a byte that is left over. -/
theorem Image.listing_fetched_leftOver :
    let c : Config := {}
    let bytes : List Byte := [0x04, 0x0f, 0x12, 0x00, 0x54, 0x46, 0x99]
    c.ramSize ≤ maxRamSize ∧ parse bytes = .ok (raw bytes) ∧ (raw bytes).isExecutable = false ∧
      bytes.length + 6 ≤ c.ramSize ∧
      ∃ m, (Machine.ofConfig c (.ofConfig c)).load (raw bytes) [] 0 = (.ok (), m) ∧
        ∀ s : State, s.pc = 4 →
          ({ m with state := s } : Machine).fetched.1 = .ok (decode 0x4654 0) := by
  intro c bytes
  have hsize : c.ramSize ≤ maxRamSize := by decide
  have hparse : parse bytes = .ok (raw bytes) := rfl
  have hfit : bytes.length + 6 ≤ c.ramSize := by decide
  obtain ⟨-, -, -, -, m, _, hload, -, hlines⟩ := listing_fetched c hsize hparse rfl hfit [] 0
  let line : ListingLine := ⟨4, [0x54, 0x46], decode 0x4654 0⟩
  have hmem : line ∈ TypedCore.listing 0 bytes := by
    have hfirst : Half.insnLength 0x0f04#16 = 4 := by decide
    have hsecond : Half.insnLength 0x4654#16 = 2 := by decide
    simp [TypedCore.listing, bytes, line, leadingExtension, hfirst, hsecond]
  refine ⟨hsize, hparse, rfl, hfit, m, hload, fun s hpc => ?_⟩
  obtain ⟨⟨d, hd, hiff⟩, -⟩ := (hlines line hmem).2 s hpc
  rw [hd, ← hiff.mpr (by decide)]

/-- A short immediate is cut off after its low byte, 18. The listing shows it as 0, and the
processor fetches it as 18. -/
theorem Image.listing_misses_byte :
    let c : Config := {}
    let bytes : List Byte := [0x04, 0x0f, 0x12]
    parse bytes = .ok (raw bytes) ∧ bytes.length + 6 ≤ c.ramSize ∧
      (raw bytes).listing = .ok ["entry: 0x00000000", "",
        "00000000:  04 0f 12           $r4 <- short 0 (0x0)"] ∧
      ∃ m, (Machine.ofConfig c (.ofConfig c)).load (raw bytes) [] 0 = (.ok (), m) ∧
        ∀ s : State, s.pc = 0 → ∃ d, ({ m with state := s } : Machine).fetched.1 = .ok d ∧
          d.text = .ok "$r4 <- short 18 (0x12)" := by
  intro c bytes
  have hfit : bytes.length ≤ c.ramSize := by decide
  obtain ⟨m, hload, hm⟩ := c.load_raw (by decide) hfit [] 0
  refine ⟨rfl, by decide, ?_, m, hload, fun s hpc => ?_⟩
  · have hlen : Half.insnLength 0x0f04#16 = 4 := by decide
    have hlines : TypedCore.listing 0 bytes = [⟨0, bytes, decode 0x0f04 0⟩] := by
      simp [TypedCore.listing, bytes, hlen, leadingExtension, leadingHalf]
    apply listing_of_mapM
    rw [hlines]
    decide +kernel
  · exact ⟨_, Machine.fetched_fresh hm hpc rfl (by decide), by decide +kernel⟩

end TypedCore
