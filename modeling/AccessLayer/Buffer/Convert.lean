import AccessLayer.Sampling.Blend
/-!
What a read gives when the stored data is missing or of another type. Missing data reads as the
"no value" marker of the requested type for a scalar, and as an array of empty dimensions
otherwise. Characters, integers and doubles convert element by element through their real value:
to a double exactly, to an integer by truncation, to a character by the low byte of the
truncated integer, to a complex number with no imaginary part. Complex data has no real value
and reads as missing.
-/
namespace AccessLayer

namespace Buffer

/-- What a read of missing data gives for type `dt` in `dim` dimensions. -/
def unset (dt : DataType) (dim : Int) : Except Failure Buffer :=
  if !dt.valid then .error (.lowlevel ("Unknown data type=" ++ toString dt.code))
  else if dim > 0 then .ok (Buffer.zeros dt (List.replicate dim.toNat 0))
  else
    let marker : Cells :=
      if dt = .char then .chars [0]
      else if dt = .integer then .ints [emptyInt]
      else if dt = .double then .doubles [emptyDouble]
      else .complex [⟨emptyDouble, emptyDouble⟩]
    .ok { type := dt, cells := some marker }

/-- The real values of the stored elements; complex elements have none. -/
def reals (b : Buffer) : List Float :=
  match b.cells with
  | some (.chars v) => v.map fun x => x.toNat.toFloat
  | some (.ints v) => v.map fun x => Float.ofInt x.toInt
  | some (.doubles v) => v
  | _ => []

/-- The data converted to type `dt`, keeping its shape. -/
def convert (src : Buffer) (dt : DataType) (dim : Int) : Except Failure Buffer :=
  if src.type = .complex || !dt.valid then unset dt dim
  else
    let xs := src.reals
    let cells : Cells :=
      if dt = .char then .chars (xs.map fun x => ((truncToInt32 x).toInt % 256).toNat.toUInt8)
      else if dt = .integer then .ints (xs.map truncToInt32)
      else if dt = .double then .doubles xs
      else .complex (xs.map fun x => ⟨x, 0⟩)
    .ok { type := dt, shape := src.shape, cells := some cells }

end Buffer

end AccessLayer
