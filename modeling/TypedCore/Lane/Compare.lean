import TypedCore.Lane.Arithmetic

/-!
# Lane comparisons

Branches and lane masks are two readings of one lane-wise comparison: a
branch asks whether the comparison holds in some lane, or in every lane,
and a mask has all bits of a lane set where it holds.
-/

namespace TypedCore.Lane

/-- The answer of a comparison in each lane, the lowest first. -/
def compare (l : Layout) (cond : Cond) (signed : Bool) (left right : Word) : List Bool :=
  if l.overflow = .float then
    List.zipWith (Single.holds cond) (l.singles left) (l.singles right)
  else
    (List.range l.count).map fun i =>
      if signed then cond.holds (l.laneSigned left i) (l.laneSigned right i)
      else cond.holds (l.lane left i) (l.lane right i)

/-- Whether a comparison holds in some lane, or in every lane. -/
def holds (type : RegType) (cond : Cond) (signed allLanes : Bool) (left right : Word) :
    Except Cause Bool := do
  let l ← type.layout
  let hits := compare l cond signed left right
  return if allLanes then hits.all id else hits.any id

/-- The type of a mask with lanes of a given width. -/
def maskType : Width → RegType
  | .word => .int32
  | .half => .int16x2
  | .byte => .int8x4

/-- The mask of the lanes where a comparison holds. -/
def mask (type : RegType) (cond : Cond) (signed : Bool) (left right : Word) :
    Except Cause TypedWord := do
  let l ← type.layout
  let hits := compare l cond signed left right
  return ⟨l.pack (hits.map fun hit => if hit then l.range - 1 else 0), maskType l.width⟩

end TypedCore.Lane
