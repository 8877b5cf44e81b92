import AccessLayer.Sampling.Blend
/-!
Time windows and resampling. A resampling request `dtime` is empty (keep the stored samples),
one value (a uniform step from `tmin`), or several values (explicit target times, of which those
inside the window count). A uniform step must be positive and may give at most `2 ^ 24` samples.
Resampling stops at the last stored time.
-/
namespace AccessLayer

/-- The uniform step of a resampling request with one value; `none` for any other request. -/
def uniformStep (dtime : List Float) : Except SamplingError (Option Float) :=
  match dtime with
  | [dt] => if dt ≤ 0 then .error (.nonPositiveStep dt) else .ok (some dt)
  | _ => .ok none

/-- The most samples a uniform step may give. -/
def maxResampledTimes : Nat := Nat.pow 2 24

/-- The number of uniform samples of `[tmin, tmax]`: the rounded count of steps plus one; a
count that is not a number or above the limit is refused, a negative one is zero. -/
def uniformCount (tmin tmax dt : Float) : Except SamplingError Nat :=
  let n := roundHalfAway ((tmax - tmin) / dt + 1)
  if n.isNaN || n > maxResampledTimes.toFloat then .error (.tooManySamples dt tmin tmax)
  else if n < 0 then .ok 0
  else .ok n.toUInt64.toNat

/-- The explicit target times inside `[tmin, tmax]`, in order. -/
def inRange (dtime : List Float) (tmin tmax : Float) : List Float :=
  dtime.filter fun v => v ≥ tmin && v ≤ tmax

/-- Whether a stored time is one of the "no value" markers. -/
def isUnsetTime (v : Float) : Bool := v == emptyDouble || v == undefinedTime

/-- The uniform target times `tmin + k * dt` up to `tmax` and a tolerance of `1e-9` steps,
counted by `fuel` at most. -/
def uniformTargets (tmin dt limit : Float) : Nat → Nat → List Float
  | 0, _ => []
  | fuel + 1, k =>
    let t := tmin + k.toFloat * dt
    if t > limit then [] else t :: uniformTargets tmin dt limit fuel (k + 1)

/-- The target times of a resampling request over `[tmin, tmax]`. -/
def targetTimes (tmin tmax : Float) (dtime : List Float) : Except SamplingError (List Float) := do
  match ← uniformStep dtime with
  | none => .ok (inRange dtime tmin tmax)
  | some dt =>
    let _ ← uniformCount tmin tmax dt
    .ok (uniformTargets tmin dt (tmax + 1e-9 * dt) (maxResampledTimes + 2) 0)

/-- The window of `[tmin, tmax]` in the stored times `tv`: the first and last index and the
number of samples. Without resampling these are the stored samples inside the window (index -1
and count 0 when a bound has none); with resampling the selected samples at `tmax` and `tmin`
and the number of target times. -/
def timeRangeIndices (tmin tmax : Float) (dtime tv : List Float) (mode : InterpMode) :
    Except SamplingError (Int × Int × Nat) := do
  if dtime.isEmpty then
    let lo : Int := match tv.findIdx? (· ≥ tmin) with | some i => i | none => -1
    -- the last index whose time is set and at most tmax
    let hi : Int := match (List.range tv.length).reverse.find? (fun i =>
        !isUnsetTime (timeAt tv i) && timeAt tv i ≤ tmax) with
      | some i => i
      | none => -1
    if lo < 0 || hi < 0 then .ok (lo, hi, 0)
    else .ok (lo, hi, (hi - lo + 1).toNat)
  else
    let step ← uniformStep dtime
    if tv.isEmpty then .ok (-1, -1, 0)
    else
      let (hi, _) ← selectSample tmax tv mode
      let (lo, _) ← selectSample tmin tv mode
      match step with
      | some dt => .ok (lo, hi, ← uniformCount tmin tmax dt)
      | none => .ok (lo, hi, (inRange dtime tmin tmax).length)

/-- Evenly spaced values from `l` to `u` in `n ≥ 2` places, with the conventions for ends that
are not finite: a NaN end fills the other places with NaN, infinite ends fill their halves. -/
def span (n : Nat) (l u : Float) : List Float :=
  let nan : Float := 0 / 0
  if l.isNaN then List.replicate (n - 1) nan ++ [u]
  else if u.isNaN then l :: List.replicate (n - 1) nan
  else if l.isInf && u.isInf then
    let half := n / 2
    let mid := if n % 2 = 1 then [if l == u then l else 0] else []
    List.replicate half l ++ mid ++ List.replicate half u
  else if l.isInf then List.replicate (n - 1) l ++ [u]
  else if u.isInf then l :: List.replicate (n - 1) u
  else
    let step := (u - l) / (n - 1).toFloat
    (List.range n).map fun i => l + step * i.toFloat

/-- The resampled time basis of `[tmin, tmax]`: all of it for a negative `index`, else the time
of element `index` of a resampled array. An empty request is a broken expectation. -/
def resampleTimebasis (tmin tmax : Float) (dtime : List Float) (index : Int) :
    Except Fault (Nat × Buffer) :=
  if dtime.isEmpty then .error (.halt "interp: ResampleTimebasis called without resampling step")
  else (do
    let step ← uniformStep dtime
    if index ≥ 0 then
      match step with
      | some dt => .ok (1, Buffer.ofDoubles [tmin + (Float.ofInt index) * dt])
      | none =>
        let inside := inRange dtime tmin tmax
        match inside[index.toNat]? with
        | some t => .ok (1, Buffer.ofDoubles [t])
        | none => .error (.indexOutOfRange index inside.length)
    else
      match step with
      | none => let out := inRange dtime tmin tmax; .ok (out.length, Buffer.ofDoubles out)
      | some dt =>
        let n ← uniformCount tmin tmax dt
        if n = 0 then .ok (0, Buffer.ofDoubles [])
        else if n = 1 then .ok (1, Buffer.ofDoubles [tmin])
        else .ok (n, Buffer.ofDoubles (span n tmin (tmin + (n - 1).toFloat * dt))) :
    Except SamplingError (Nat × Buffer)).mapError fun e => .failure e.failure

/-- The targets before the first one after the last stored time. -/
def reachedTargets (targets tv : List Float) : List Float :=
  match tv.getLast? with
  | some last => targets.takeWhile fun t => !(t > last)
  | none => []

/-- The first and last stored samples that resampling `[tmin, tmax]` reads; `last < first`
when no target time falls in the stored range. -/
def resamplingWindow (tmin tmax : Float) (dtime tv : List Float) (mode : InterpMode) :
    Except SamplingError (Int × Int) := do
  let targets ← targetTimes tmin tmax dtime
  let (_, br) ← selectSample tmin tv mode
  let first : Int := br.inf
  let last ← (reachedTargets targets tv).foldlM (fun (last : Int) t => do
    let (_, b) ← selectSample t tv mode
    pure (max last b.sup)) (first - 1)
  .ok (first, last)

/-- Resamples `data`, which holds consecutive slices of `shape` elements starting at the
sample selected for `tmin`, onto the target times of `[tmin, tmax]`, stopping at the last stored
time. Gives the number of slices and the result, shaped as the slices of `data` and the count. -/
def interpolateWithResampling (tmin tmax : Float) (dtime : List Float) (dt : DataType)
    (shape : Int) (data : Buffer) (tv : List Float) (mode : InterpMode) :
    Except Fault (Nat × Buffer) := do
  let lift {α : Type} (r : Except SamplingError α) : Except Fault α :=
    r.mapError fun e => .failure e.failure
  if dtime.isEmpty then lift (.error .noStep)
  else if shape = 0 then lift (.error .zeroShape)
  else if data.type ≠ dt then lift (.error (.typeMismatch data.type dt))
  else
    let targets ← lift (targetTimes tmin tmax dtime)
    let (_, start) ← lift (selectSample tmin tv mode)
    let sliceShape := if data.dim > 0 && data.sliceLen = shape then data.shape.dropLast else [shape]
    let block (index : Nat) : Except Fault Buffer :=
      match data.block ((index : Int) - start.inf) shape sliceShape with
      | .ok b => .ok b
      | .error (.failure f) => lift (.error (.sample index f.message))
      | .error e => .error e
    let step (acc : Nat × Buffer) (t : Float) : Except Fault (Nat × Buffer) := do
      let (count, out) := acc
      let (sel, br) ← lift (selectSample t tv mode)
      let times : SliceTimes := ⟨timeAt tv br.inf, timeAt tv br.sup⟩
      let (lo, hi) ← if mode = .linear then do
          let lo ← block br.inf
          let hi ← block br.sup
          pure (lo, some hi)
        else do pure (← block sel, none)
      let res ← lift (interpolate dt shape (some lo) hi times t mode)
      let out ← lift ((out.appendData res).mapError fun f => .append f.message)
      pure (count + 1, out)
    let (count, out) ← (reachedTargets targets tv).foldlM step (0, { type := dt })
    pure (count, { out with shape := sliceShape ++ [(count : Int)] })

end AccessLayer
