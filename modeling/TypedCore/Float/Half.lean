import TypedCore.Float.Format

/-!
# Half precision

Half-precision numbers are only stored; arithmetic widens them to singles,
which is exact, and rounds the result back. A NaN keeps its sign and as
much of its payload as fits, and stays a NaN.
-/

namespace TypedCore.HalfFloat

def value (h : Half) : FloatValue := FloatFormat.binary16.decode h.toNat

def toSingle (h : Half) : Word :=
  match value h with
  | .nan => BitVec.ofNat 32 (h.toNat >>> 15 <<< 31 + 0x7f800000 + (h.toNat % 0x400) <<< 13)
  | v => BitVec.ofNat 32 (FloatFormat.binary32.encode v)

def ofSingle (x : Word) : Half :=
  match FloatFormat.binary32.decode x.toNat with
  | .nan =>
    BitVec.ofNat 16 (x.toNat >>> 31 <<< 15 + (0x7e00 ||| (x.toNat % 0x800000) >>> 13))
  | v => BitVec.ofNat 16 (FloatFormat.binary16.encode v)

end TypedCore.HalfFloat
