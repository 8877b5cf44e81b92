import AccessLayer.Context.Entry
import AccessLayer.Decimal.Layout
/-!
Operations: one read or write of a data object of a data entry, over the whole object, one time
slice, or a time range. Building an operation checks its modes; a slice read needs an
interpolation mode, and a time range must not end before it starts.
-/
namespace AccessLayer

/-- One read or write of a data object. -/
structure Operation where
  uid : Nat
  entry : DataEntry
  /-- The data object, with its occurrence suffix. -/
  name : String
  /-- The sub path of a partial global access. -/
  datapath : String := ""
  access : AccessMode
  range : RangeMode
  /-- The requested slice time; `undefinedTime` outside slice operations. -/
  time : Float := undefinedTime
  interp : InterpMode := .undefined
  tmin : Float := 0
  tmax : Float := 0
  /-- No value keeps the stored samples, one is a resampling step, more are target times. -/
  dtime : List Float := []
  deriving Inhabited

/-- Why an operation cannot be built. -/
inductive OperationError where
  | badAccess (code : Int)
  | badRange (code : Int)
  | badInterp (code : Int)
  | missingInterp
  | badTimeRange (tmin tmax : Float)
  deriving Inhabited

/-- The context failure reported for each reason. -/
def OperationError.failure : OperationError → Failure
  | .badAccess c => .context ("Wrong access mode " ++ toString c)
  | .badRange c => .context ("Wrong range mode " ++ toString c)
  | .badInterp c => .context ("Wrong interp mode " ++ toString c)
  | .missingInterp => .context "Missing interpmode"
  | .badTimeRange lo hi => .context ("Wrong time range [" ++ lo.fixed 6 ++ ", " ++ hi.fixed 6 ++ "]")

namespace Operation

/-- A global access to the data object `name`, limited to `datapath` when it is not empty. -/
def global (entry : DataEntry) (uid : Nat) (name datapath : String) (access : AccessMode) :
    Except OperationError Operation :=
  if !access.valid then .error (.badAccess access.code)
  else .ok { uid, entry, name, datapath, access, range := .global }

/-- An access with an explicit range mode. A slice read requires an interpolation mode. -/
def withRange (entry : DataEntry) (uid : Nat) (name : String) (access : AccessMode)
    (range : RangeMode) (time : Float) (interp : InterpMode) : Except OperationError Operation :=
  if !range.valid then .error (.badRange range.code)
  else if !access.valid then .error (.badAccess access.code)
  else if !interp.valid then .error (.badInterp interp.code)
  else if range = .slice && access = .read && interp = .undefined then .error .missingInterp
  else .ok { uid, entry, name, access, range, time, interp,
             tmin := undefinedTime, tmax := undefinedTime }

/-- An access to the window `[tmin, tmax]`, resampled as `dtime` says. The identifier is spent
once the modes are accepted, even when the window is refused. -/
def timeRange (entry : DataEntry) (uid : Nat) (name : String) (access : AccessMode)
    (tmin tmax : Float) (dtime : List Float) (interp : InterpMode) :
    Except OperationError Operation := do
  let op ← withRange entry uid name access .timeRange undefinedTime interp
  if tmin > tmax then .error (.badTimeRange tmin tmax)
  else .ok { op with tmin, tmax, dtime }

/-- The text of a list of values: `[a b c]` in the general number format. -/
def listText (xs : List Float) : String := "[" ++ " ".intercalate (xs.map Float.general) ++ "]"

/-- The description of an operation, after that of its data entry. -/
def render (o : Operation) : String :=
  let base := o.entry.render ++
    "dataobjectname \t\t = " ++ o.name ++ "\n" ++
    "accessmode \t\t = " ++ toString o.access.code ++ " (" ++ o.access.name ++ ")\n" ++
    "rangemode \t\t = " ++ toString o.range.code ++ " (" ++ o.range.name ++ ")\n" ++
    "time \t\t\t = " ++ o.time.fixed 6 ++ "\n" ++
    "interpmode \t\t = " ++ toString o.interp.code ++ " (" ++ o.interp.name ++ ")\n"
  if o.range = .timeRange then
    base ++ "tmin \t\t\t = " ++ o.tmin.fixed 6 ++ "\ntmax \t\t\t = " ++ o.tmax.fixed 6 ++
      "\ndtime \t\t\t = " ++ listText o.dtime ++ "\n"
  else base

end Operation

end AccessLayer
