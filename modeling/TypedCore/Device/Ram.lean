import Std.Data.TreeMap
import TypedCore.Word

/-!
# Memory

A stretch of bytes, all zero at first. Only the bytes that were written are
stored, so a large memory costs nothing; `Ram.byte` is the view on which
everything about memory is said.
-/

namespace TypedCore

/-- A memory of `size` bytes, fewer than `2 ^ 32` wherever a configuration asks for it. -/
structure Ram where
  base : Word
  size : Nat
  /-- The bytes written so far, by offset. -/
  cells : Std.TreeMap Nat Byte := ∅

namespace Ram

def byte (r : Ram) (i : Nat) : Byte := r.cells.getD i 0

def setByte (r : Ram) (i : Nat) (b : Byte) : Ram := { r with cells := r.cells.insert i b }

def setBytes (r : Ram) (i : Nat) : List Byte → Ram
  | [] => r
  | b :: bs => (r.setByte i b).setBytes (i + 1) bs

/-- `len` bytes from an offset on, if they all exist. -/
def read (r : Ram) (offset len : Nat) : Option (List Byte) :=
  if offset + len ≤ r.size then some ((List.range len).map fun i => r.byte (offset + i)) else none

/-- Replaces the bytes from an offset on, if they all exist. -/
def write (r : Ram) (offset : Nat) (data : List Byte) : Option Ram :=
  if offset + data.length ≤ r.size then some (r.setBytes offset data) else none

theorem byte_setByte (r : Ram) (i j : Nat) (b : Byte) :
    (r.setByte i b).byte j = if i = j then b else r.byte j := by
  simp [byte, setByte, Std.TreeMap.getD_insert]

/-- A write replaces the bytes it covers and no others. -/
theorem byte_setBytes (r : Ram) (i j : Nat) (data : List Byte) :
    (r.setBytes i data).byte j =
      if i ≤ j ∧ j < i + data.length then data.getD (j - i) 0 else r.byte j := by
  induction data generalizing r i with
  | nil => simp only [setBytes, List.length_nil]; rw [if_neg (by omega)]
  | cons b bs ih =>
    rw [setBytes, ih, byte_setByte, List.length_cons]
    by_cases h : i = j
    · subst h
      rw [if_neg (by omega), if_pos rfl, if_pos (by omega)]
      simp
    · by_cases hj : i + 1 ≤ j ∧ j < i + 1 + bs.length
      · rw [if_pos hj, if_pos (by omega), show j - i = j - (i + 1) + 1 by omega,
          List.getD_cons_succ]
      · rw [if_neg hj, if_neg h, if_neg (by omega)]

@[simp] theorem size_setBytes (r : Ram) (i : Nat) (data : List Byte) :
    (r.setBytes i data).size = r.size := by
  induction data generalizing r i with
  | nil => rfl
  | cons b bs ih => rw [setBytes, ih]; rfl

end Ram

end TypedCore
