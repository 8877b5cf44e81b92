import AccessLayer.Sampling.Selection
/-!
Blending two time slices. Only the linear mode blends: the other modes keep the lower slice,
the selection having been made before. Doubles and complex values move from the lower slice
toward the upper one by the fraction of the way `t` lies between their times; integers are
blended as doubles and rounded; characters do not blend, so two differing slices give an empty
(zeroed) one.
-/
namespace AccessLayer

/-- The times of the two slices of a blend. -/
structure SliceTimes where
  inf : Float
  sup : Float
  deriving Inhabited

/-- How far `t` lies from the lower time toward the upper one, clamped to `[0, 1]`. -/
def blendFactor (t : Float) (times : SliceTimes) : Float :=
  if t ≤ times.inf then 0
  else if t ≥ times.sup then 1
  else (t - times.inf) / (times.sup - times.inf)

/-- The integer a double converts to: truncated toward zero, and the least integer when the
double is not a number or leaves the range of 32-bit integers. -/
def truncToInt32 (x : Float) : Int32 :=
  match Decimal.classify x with
  | .finite negative m q _ =>
    let (tn, td) := Decimal.twoPow q
    let mag : Int := (m * tn / td : Nat)
    let v := if negative then -mag else mag
    if v < -2147483648 || v > 2147483647 then -2147483648 else Int32.ofInt v
  | _ => -2147483648

/-- The integer nearest to a double, halves going away from zero, as a double. Not a number,
the infinities and integral values are kept, and a value that rounds to zero keeps its sign. The
rounding is done on the exact binary value. -/
def roundHalfAway (x : Float) : Float :=
  match Decimal.classify x with
  | .finite negative m q _ =>
    if 0 ≤ q then x
    else
      let d := Nat.pow 2 (-q).toNat
      let r := m / d + (if 2 * (m % d) ≥ d then 1 else 0)
      if negative then -r.toFloat else r.toFloat
  | _ => x

/-- Applies `f` to the first `n` pairs of `xs` and `ys`, keeping the rest of `xs`. -/
def mixPrefix {α : Type} (f : α → α → α) : Nat → List α → List α → List α
  | 0, xs, _ => xs
  | _ + 1, [], _ => []
  | n + 1, x :: xs, y :: ys => f x y :: mixPrefix f n xs ys
  | _ + 1, x :: xs, [] => x :: xs

/-- The lower slice with its first `n` elements blended toward the upper slice by `f`. -/
def blendCells (n : Nat) (f : Float) : Cells → Cells → Cells
  | .ints a, .ints b => .ints (mixPrefix (fun x y =>
      let xa := Float.ofInt x.toInt
      let xb := Float.ofInt y.toInt
      truncToInt32 (roundHalfAway (xa + (xb - xa) * f))) n a b)
  | .doubles a, .doubles b => .doubles (mixPrefix (fun x y => x + (y - x) * f) n a b)
  | .complex a, .complex b =>
    .complex (mixPrefix (fun x y => x + (y - x) * (⟨f, 0⟩ : ComplexFloat)) n a b)
  | c, _ => c

/-- The lower character slice, with its first `n` characters zeroed when they differ from the
upper slice's. -/
def blendChars (n : Nat) (a b : List UInt8) : List UInt8 :=
  if (a.take n) == (b.take n) then a
  else List.replicate (min n a.length) 0 ++ a.drop n

/-- Combines two slices of `shape` elements of type `dt` at time `t`. -/
def interpolate (dt : DataType) (shape : Int) (inf : Option Buffer) (sup : Option Buffer)
    (times : SliceTimes) (t : Float) (mode : InterpMode) : Except SamplingError Buffer :=
  if shape = 0 then .error .zeroShape
  else match inf with
  | none => .error (.lowerSlice shape dt)
  | some lo =>
    if lo.type ≠ dt || (lo.len : Int) < shape then .error (.lowerSlice shape dt)
    else if mode ≠ .linear then .ok lo
    else match sup with
    | none => .error .missingUpper
    | some hi =>
      if hi.type ≠ dt || (hi.len : Int) < shape then .error (.upperSlice shape dt)
      else
        let n := shape.toNat
        match lo.cells, hi.cells with
        | some (.chars a), some (.chars b) => .ok { lo with cells := some (.chars (blendChars n a b)) }
        | some a, some b =>
          let f := blendFactor t times
          if f == 0 then .ok lo else .ok { lo with cells := some (blendCells n f a b) }
        | _, _ => .ok lo

end AccessLayer
