import Mathlib.Data.PFun
import TypedCore.Proofs.Calls.Copying

/-!
# The loop that reads a path

`Platform.scanString` looks at no more bytes than it is told. The loop of a
machine has no such bound: it goes on, round the end of the address space if
need be, until it comes to a zero byte or to a fault. `Platform.chase` is that
loop. Its result is partial: there is none where the loop has no end.

A loop that ends within a bound ends as the bounded one does
(`chase_of_scanString`), and it does so if one of the reads within the bound must
be of a zero byte or fail (`scanString_ends`).
-/

namespace TypedCore.Platform

/-- One turn of the loop: its result, or what has been read by then (in reverse), the
address to read next, and the platform. -/
def turn : List Byte × Word × Platform →
    (Except MemFault (List Byte) × Platform) ⊕ (List Byte × Word × Platform)
  | (acc, addr, p) =>
    match p.read .task addr .byte with
    | (.ok v, p) =>
      if v = 0 then .inl (.ok acc.reverse, p) else .inr (v.setWidth 8 :: acc, addr + 1, p)
    | (.error fault, p) => .inl (.error fault, p)

/-- Reads task memory up to a zero byte or a fault, in front of what was already read
(in reverse). -/
def chase (acc : List Byte) (addr : Word) (p : Platform) :
    Part (Except MemFault (List Byte) × Platform) :=
  PFun.fix (fun cursor => Part.some (turn cursor)) (acc, addr, p)

/-- A read with which the loop ends: of a zero byte, or of none at all. -/
def EndsLoop (p : Platform) (addr : Word) : Prop :=
  (p.read .task addr .byte).1 = .ok 0 ∨ ∃ fault, (p.read .task addr .byte).1 = .error fault

/-- The loop reads `n` bytes other than zero, and ends with the read after them. -/
def StopsAfter (p : Platform) (addr : Word) (n : Nat) : Prop :=
  ∃ bytes q, bytes.length = n ∧ 0 ∉ bytes ∧ p.Reads addr bytes q ∧
    q.EndsLoop (addr + BitVec.ofNat 32 n)

variable {p q : Platform} {addr : Word} {xs ys : List Byte} {limit : Nat}

/-- Of bytes in a row the first ones are read first. -/
theorem Reads.split (h : p.Reads addr (xs ++ ys) q) :
    ∃ m, p.Reads addr xs m ∧ m.Reads (addr + BitVec.ofNat 32 xs.length) ys q := by
  induction xs generalizing p addr with
  | nil => exact ⟨p, .nil p addr, by simpa using h⟩
  | cons x xs ih =>
      cases h with
      | cons head tail =>
          obtain ⟨m, hxs, hys⟩ := ih tail
          refine ⟨m, .cons head hxs, ?_⟩
          rw [List.length_cons, Word.add_ofNat_succ]
          exact hys

/-! ## The bounded loop -/

theorem chase_stop {acc : List Byte} {r : Except MemFault (List Byte) × Platform}
    (h : turn (acc, addr, p) = .inl r) : chase acc addr p = Part.some r :=
  Part.eq_some_iff.mpr (PFun.fix_stop (Part.mem_some_iff.mpr h.symm))

theorem chase_next {acc acc' : List Byte} {addr' : Word}
    (h : turn (acc, addr, p) = .inr (acc', addr', q)) : chase acc addr p = chase acc' addr' q :=
  PFun.fix_fwd_eq (Part.mem_some_iff.mpr h.symm)

theorem chase_of_scanString {acc : List Byte} {x : Except MemFault (List Byte)}
    (h : scanString acc limit addr p = (some x, q)) : chase acc addr p = Part.some (x, q) := by
  fun_induction scanString acc limit addr p with
  | case1 => cases h
  | case2 acc limit addr p p' hread =>
      cases h
      refine chase_stop ?_
      rw [turn, hread]
      rfl
  | case3 acc limit addr p v p' hread hv ih =>
      have hturn : turn (acc, addr, p) = .inr (v.setWidth 8 :: acc, addr + 1, p') := by
        rw [turn, hread]
        exact if_neg hv
      rw [chase_next hturn]
      exact ih h
  | case4 acc limit addr p fault p' hread =>
      cases h
      refine chase_stop ?_
      rw [turn, hread]

/-- The bounded loop runs into its bound over bytes other than zero. -/
theorem reads_of_scanString_none {acc : List Byte} (h : scanString acc limit addr p = (none, q)) :
    ∃ bytes, bytes.length = limit ∧ 0 ∉ bytes ∧ p.Reads addr bytes q := by
  fun_induction scanString acc limit addr p with
  | case1 acc addr p =>
      cases h
      exact ⟨[], rfl, List.not_mem_nil, .nil _ _⟩
  | case2 => cases h
  | case3 acc limit addr p v p' hread hv ih =>
      obtain ⟨b, rfl⟩ := byte_of_load hread
      obtain ⟨bytes, hlen, hnonzero, hreads⟩ := ih h
      refine ⟨b :: bytes, congrArg (· + 1) hlen, ?_, .cons hread hreads⟩
      refine List.not_mem_cons_of_ne_of_not_mem ?_ hnonzero
      rintro rfl
      exact hv rfl
  | case4 => cases h

/-- The bounded loop comes to a fault over bytes other than zero. -/
theorem reads_of_scanString_error {acc : List Byte} {fault : MemFault}
    (h : scanString acc limit addr p = (some (.error fault), q)) :
    ∃ bytes m, bytes.length < limit ∧ 0 ∉ bytes ∧ p.Reads addr bytes m ∧
      m.read .task (addr + BitVec.ofNat 32 bytes.length) .byte = (.error fault, q) := by
  fun_induction scanString acc limit addr p with
  | case1 => cases h
  | case2 => cases h
  | case3 acc limit addr p v p' hread hv ih =>
      obtain ⟨b, rfl⟩ := byte_of_load hread
      obtain ⟨bytes, m, hlen, hnonzero, hreads, hfault⟩ := ih h
      refine ⟨b :: bytes, m, Nat.succ_lt_succ hlen, ?_, .cons hread hreads, ?_⟩
      · refine List.not_mem_cons_of_ne_of_not_mem ?_ hnonzero
        rintro rfl
        exact hv rfl
      · rw [List.length_cons, Word.add_ofNat_succ]
        exact hfault
  | case4 acc limit addr p fault' p' hread =>
      cases h
      refine ⟨[], p, Nat.succ_pos _, List.not_mem_nil, .nil _ _, ?_⟩
      simpa using hread

/-- A loop that ends within a bound has read bytes other than zero before. -/
theorem stops_of_scanString {x : Except MemFault (List Byte)}
    (h : scanString [] limit addr p = (some x, q)) : ∃ n < limit, p.StopsAfter addr n := by
  cases x with
  | ok path =>
      obtain ⟨bytes, -, hlen, hnonzero, hreads⟩ := (scanString_iff [] limit addr p).mp h
      obtain ⟨m, hbytes, hzero⟩ := hreads.split
      refine ⟨bytes.length, hlen, bytes, m, rfl, hnonzero, hbytes, .inl ?_⟩
      cases hzero with
      | cons head tail => rw [head]; rfl
  | error fault =>
      obtain ⟨bytes, m, hlen, hnonzero, hreads, hfault⟩ := reads_of_scanString_error h
      exact ⟨bytes.length, hlen, bytes, m, rfl, hnonzero, hreads, .inr ⟨fault, by rw [hfault]⟩⟩

/-- The loop ends within its bound if one of the reads that it may do must end it. -/
theorem scanString_ends {i : Nat} (hi : i < limit)
    (h : ∀ bytes m, bytes.length = i → p.Reads addr bytes m →
      m.EndsLoop (addr + BitVec.ofNat 32 i)) :
    ∃ x q, scanString [] limit addr p = (some x, q) := by
  cases hscan : scanString [] limit addr p with
  | mk x q =>
      cases x with
      | some x => exact ⟨x, q, rfl⟩
      | none =>
          obtain ⟨bytes, hlen, hnonzero, hreads⟩ := reads_of_scanString_none hscan
          rw [← List.take_append_drop i bytes] at hreads
          obtain ⟨m, htake, hdrop⟩ := hreads.split
          have hlength : (bytes.take i).length = i := by
            rw [List.length_take]
            omega
          have hend := h _ m hlength htake
          rw [List.drop_eq_getElem_cons (by omega), hlength] at hdrop
          cases hdrop with
          | cons head tail =>
              unfold EndsLoop at hend
              rw [head] at hend
              obtain hzero | ⟨fault, hfault⟩ := hend
              · have hbyte : bytes[i] = 0 := Byte.eq_of_setWidth (Except.ok.inj hzero)
                exact absurd (hbyte ▸ List.getElem_mem _) hnonzero
              · cases hfault

end TypedCore.Platform
