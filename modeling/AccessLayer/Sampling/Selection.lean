import AccessLayer.Buffer.Basic
import AccessLayer.Decimal.Layout
/-!
Locating a requested time in an ascending vector of stored times. The bracket of `t` is the pair
of neighbouring samples around it; the selected sample is the one a mode picks from the bracket:
the closer one, the one at or before `t`, or the lower one for linear blending.
-/
namespace AccessLayer

/-- Why a time selection, blend or resampling is refused. -/
inductive SamplingError where
  | badMode
  | emptyTimes
  | nonPositiveStep (step : Float)
  | tooManySamples (step tmin tmax : Float)
  | zeroShape
  | lowerSlice (shape : Int) (type : DataType)
  | missingUpper
  | upperSlice (shape : Int) (type : DataType)
  | indexOutOfRange (index : Int) (count : Nat)
  | noStep
  | typeMismatch (stored wanted : DataType)
  | sample (index : Int) (message : String)
  | append (message : String)
  deriving Inhabited

/-- The backend failure reported for each reason. -/
def SamplingError.failure : SamplingError → Failure
  | .badMode => .backend "Interpolation mode not set or not supported"
  | .emptyTimes => .backend "Empty time vector"
  | .nonPositiveStep s => .backend ("Resampling step must be positive, got " ++ s.fixed 6)
  | .tooManySamples s lo hi => .backend ("Resampling step " ++ s.general ++
      " yields too many samples over [" ++ lo.general ++ ", " ++ hi.general ++ "]")
  | .zeroShape => .backend "Unable to perform interpolation with shape=0."
  | .lowerSlice n t => .backend ("Lower slice does not hold " ++ toString n ++ " " ++ t.name ++ " elements")
  | .missingUpper => .backend "Exactly 2 slices are required for LINEAR_INTERP interpolation mode."
  | .upperSlice n t => .backend ("Upper slice does not hold " ++ toString n ++ " " ++ t.name ++ " elements")
  | .indexOutOfRange i n => .backend ("Time basis index " ++ toString i ++ " out of range of " ++
      toString n ++ " resampling times")
  | .noStep => .backend "Resampling requested without resampling step"
  | .typeMismatch s w => .backend ("Cannot resample " ++ s.name ++ " data as " ++ w.name)
  | .sample i m => .backend ("sample " ++ toString i ++ ": " ++ m)
  | .append m => .backend m

/-- The indices of the stored samples around a requested time. -/
structure Bracket where
  inf : Nat
  sup : Nat
  deriving Repr, DecidableEq, Inhabited

/-- The smallest difference between times that counts: `2 ^ -52`. -/
def timeTolerance : Float := 1 / 4503599627370496

/-- Whether two times are equal or within `tol` of each other. -/
def closeTo (a b tol : Float) : Bool := a == b || (a - b).abs ≤ tol

/-- The index of the first stored time at or after `t`. -/
def firstAtOrAfter (t : Float) (tv : List Float) : Option Nat := tv.findIdx? fun v => v ≥ t

/-- The bracket of `t` in `tv`: `sup` is the first sample at or after `t` (the last sample when
there is none), moved to the second sample when it is the first and `mode` is not Closest;
`inf` is the sample before `sup`, or `sup` itself at the start. -/
def bracketOf (t : Float) (tv : List Float) (mode : InterpMode) : Bracket :=
  let n := tv.length
  let sup := match firstAtOrAfter t tv with
    | some i => if mode ≠ .closest && i = 0 && n > 1 then 1 else i
    | none => n - 1
  ⟨sup - 1, sup⟩

/-- The stored time at index `i`; zero outside the vector. -/
def timeAt (tv : List Float) (i : Nat) : Float := tv.getD i 0

/-- The sample selected for `t`, and the bracket it comes from. An undefined mode selects as
Closest; Closest takes the nearer neighbour, ties going up; Previous takes `sup` when `t` is at
or after it; Linear takes `inf`. -/
def selectSample (t : Float) (tv : List Float) (mode : InterpMode) :
    Except SamplingError (Nat × Bracket) :=
  if !mode.valid then .error .badMode
  else if tv.isEmpty then .error .emptyTimes
  else
    let mode := if mode = .undefined then .closest else mode
    let br := bracketOf t tv mode
    let lo := timeAt tv br.inf
    let hi := timeAt tv br.sup
    if mode = .closest then
      .ok (if (t - lo).abs < (t - hi).abs then br.inf else br.sup, br)
    else if mode = .previous then
      .ok (if br.sup > 0 && (closeTo t hi timeTolerance || t > hi) then br.sup else br.inf, br)
    else .ok (br.inf, br)

end AccessLayer
