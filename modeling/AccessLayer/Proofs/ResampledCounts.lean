import Mathlib
import AccessLayer.Proofs.Calls
/-!
How many time slices a resampled time-range read gives. A read of the time base itself answers
the resampled times, computed apart from any data: the target times inside the window for an
explicit grid, or `n` evenly spaced times for a uniform step, where `n` is the rounded count of
`uniformCount`, cut to the number of targets reached before the last stored time. A read of a
field on that time base resamples the field at each reached target, one slice each.

For an explicit grid both reads count the reached targets (`explicit_grid_reads_agree`): the time
base answers exactly the reached target times, and the field as many slices. For a uniform step
the time base answers `min n reached` times (`rangeOf_timebase_uniform`), so the two reads differ
whenever the accumulated targets `tmin + k * dt` outnumber the rounded count:
`uniform_step_timebase_read_undercounts` gives a session where `tmin + k * dt` rounds back to
`tmin` for three values of `k` and the rounded count is one.
-/

namespace AccessLayer

/-! ## Counting along a fold -/

/-- A fold whose every step counts one more counts the elements. -/
theorem foldlM_counts {α β ε : Type} {step : Nat × β → α → Except ε (Nat × β)}
    (counts : ∀ acc t r, step acc t = .ok r → r.1 = acc.1 + 1) (l : List α) (init r : Nat × β)
    (folded : l.foldlM step init = .ok r) : r.1 = init.1 + l.length := by
  induction l generalizing init with
  | nil =>
    cases folded
    rfl
  | cons t rest ih =>
    rw [List.foldlM_cons] at folded
    cases stepped : step init t with
    | error e => rw [stepped] at folded; cases folded
    | ok mid =>
      rw [stepped] at folded
      rw [ih mid folded, counts init t mid stepped, List.length_cons]
      omega

/-! ## Target times -/

theorem uniformStep_explicit {dtime : List Float} (explicit : 2 ≤ dtime.length) :
    uniformStep dtime = .ok none := by
  match dtime, explicit with
  | _ :: _ :: _, _ => rfl

theorem targetTimes_explicit (tmin tmax : Float) {dtime : List Float}
    (explicit : 2 ≤ dtime.length) :
    targetTimes tmin tmax dtime = .ok (inRange dtime tmin tmax) := by
  simp [targetTimes, uniformStep_explicit explicit, bind, Except.bind]

/-- The reached targets are the first targets, up to the first one after the last stored time. -/
theorem reachedTargets_prefix (targets tv : List Float) : reachedTargets targets tv <+: targets := by
  unfold reachedTargets
  split
  · exact List.takeWhile_prefix _
  · exact List.nil_prefix

/-- Every sample selection succeeds once the mode is valid and some time is stored. -/
theorem selectSample_ok (t : Float) {tv : List Float} {mode : InterpMode} (valid : mode.valid = true)
    (stored : tv ≠ []) : ∃ r, selectSample t tv mode = .ok r := by
  have nonempty : tv.isEmpty = false := by simpa using stored
  unfold selectSample
  simp only [valid, Bool.not_true, Bool.false_eq_true, if_false, nonempty]
  split_ifs <;> exact ⟨_, rfl⟩

/-! ## The resampled time base -/

theorem length_span {n : Nat} (two : 2 ≤ n) (l u : Float) : (span n l u).length = n := by
  unfold span
  split_ifs <;> simp
  all_goals omega

theorem resampleTimebasis_explicit (tmin tmax : Float) {dtime : List Float}
    (explicit : 2 ≤ dtime.length) :
    resampleTimebasis tmin tmax dtime (-1) =
      .ok ((inRange dtime tmin tmax).length, Buffer.ofDoubles (inRange dtime tmin tmax)) := by
  have nonempty : dtime.isEmpty = false := by
    cases dtime with
    | nil => simp at explicit
    | cons _ _ => rfl
  simp [resampleTimebasis, nonempty, uniformStep_explicit explicit, bind, Except.bind,
    Except.mapError]

/-- A uniform step gives as many times as the rounded count. -/
theorem resampleTimebasis_uniform {tmin tmax dt : Float} {n : Nat}
    (stepped : uniformStep [dt] = .ok (some dt)) (counted : uniformCount tmin tmax dt = .ok n) :
    ∃ xs, resampleTimebasis tmin tmax [dt] (-1) = .ok (n, Buffer.ofDoubles xs) ∧ xs.length = n := by
  unfold resampleTimebasis
  simp only [List.isEmpty_cons, Bool.false_eq_true, if_false, stepped, counted, bind, Except.bind,
    Except.mapError, show ¬((-1 : Int) ≥ 0) by decide]
  split_ifs with zero one
  · exact ⟨[], by simp [zero]⟩
  · exact ⟨[tmin], by simp [one]⟩
  · exact ⟨_, rfl, length_span (by omega) _ _⟩

theorem truncate_ofDoubles {xs : List Float} {n : Nat} (within : n ≤ xs.length) :
    (Buffer.ofDoubles xs).truncate n =
      .ok ⟨.double, [xs.length], some (.doubles (xs.take n))⟩ := by
  simp [Buffer.truncate, Buffer.ofDoubles, Buffer.len, Cells.length, DataType.valid,
    DataType.double, Cells.take, Cells.extract]
  omega

/-- Read as a time base over an explicit grid, a window answers the reached target times, and
nothing when no target is reached. -/
theorem rangeOf_timebase_explicit (op : Operation) (tb : Buffer) (tv : List Float)
    (explicit : 2 ≤ op.dtime.length) :
    MemoryBackend.rangeOf op tb tv true =
      .ok (if reachedTargets (inRange op.dtime op.tmin op.tmax) tv = [] then none
        else some (Buffer.ofDoubles (reachedTargets (inRange op.dtime op.tmin op.tmax) tv))) := by
  have nonempty : op.dtime.isEmpty = false := by
    cases h : op.dtime with
    | nil => simp [h] at explicit
    | cons _ _ => rfl
  have prefix_ := reachedTargets_prefix (inRange op.dtime op.tmin op.tmax) tv
  have taken := List.prefix_iff_eq_take.1 prefix_
  have within := prefix_.length_le
  unfold MemoryBackend.rangeOf
  simp only [nonempty, Bool.false_eq_true, if_false, Except.sampled,
    targetTimes_explicit _ _ explicit, resampleTimebasis_explicit _ _ explicit]
  simp only [bind, Except.bind, Except.mapError, pure, Except.pure]
  generalize reachedTargets (inRange op.dtime op.tmin op.tmax) tv = reached at *
  by_cases nothing : reached = []
  · simp [nothing]
  · have length_ne : reached.length ≠ 0 := by simpa using nothing
    simp only [length_ne, if_false, nothing, if_true, gt_iff_lt]
    -- the grid inside the window is cut to the reached targets only when some lie beyond
    by_cases more : reached.length < (inRange op.dtime op.tmin op.tmax).length
    · rw [if_pos more, truncate_ofDoubles more.le, ← taken]
      rfl
    · have same : reached.length = (inRange op.dtime op.tmin op.tmax).length := by omega
      rw [if_neg more, taken, same, List.take_length]

/-- Read as a time base with a uniform step, a window answers the rounded count of times or the
number of reached targets, whichever is smaller. -/
theorem rangeOf_timebase_uniform {op : Operation} {tb out : Buffer} {tv targets : List Float}
    {dt : Float} {n : Nat} (uniform : op.dtime = [dt])
    (counted : uniformCount op.tmin op.tmax dt = .ok n)
    (targeted : targetTimes op.tmin op.tmax op.dtime = .ok targets)
    (answered : MemoryBackend.rangeOf op tb tv true = .ok (some out)) :
    out.shape = [((min n (reachedTargets targets tv).length : Nat) : Int)] := by
  rw [uniform] at targeted
  have stepped : uniformStep [dt] = .ok (some dt) := by
    by_cases nonpos : dt ≤ 0
    · simp [targetTimes, uniformStep, nonpos, bind, Except.bind] at targeted
    · simp [uniformStep, nonpos]
  obtain ⟨xs, resampled, length⟩ := resampleTimebasis_uniform stepped counted
  unfold MemoryBackend.rangeOf at answered
  simp only [uniform, List.isEmpty_cons, Bool.false_eq_true, if_false, if_true, Except.sampled,
    targeted, resampled, bind, Except.bind, Except.mapError, pure, Except.pure] at answered
  generalize (reachedTargets targets tv).length = produced at answered ⊢
  split_ifs at answered with nothing more
  · cases answered
  · rw [truncate_ofDoubles (by omega)] at answered
    cases answered
    simp only [List.cons.injEq, and_true]
    omega
  · cases answered
    simp only [Buffer.ofDoubles, length, List.cons.injEq, and_true]
    omega

/-! ## The resampled field -/

/-- Resampling gives one slice per reached target, the count last in the shape. -/
theorem interpolateWithResampling_count {tmin tmax : Float} {dtime : List Float} {dt : DataType}
    {shape : Int} {data : Buffer} {tv targets : List Float} {mode : InterpMode} {count : Nat}
    {out : Buffer} (targeted : targetTimes tmin tmax dtime = .ok targets)
    (answered : interpolateWithResampling tmin tmax dtime dt shape data tv mode = .ok (count, out)) :
    count = (reachedTargets targets tv).length ∧ out.shape.getLast? = some (count : Int) := by
  unfold interpolateWithResampling at answered
  simp only [targeted, bind, Except.bind, Except.mapError, pure, Except.pure] at answered
  split at answered
  · cases answered
  split at answered
  · cases answered
  split at answered
  · cases answered
  split at answered
  · cases answered
  split at answered
  · cases answered
  rename_i final folded
  cases answered
  -- every step of the fold ends in `pure (count + 1, out)` or fails
  have counted := foldlM_counts (fun acc t r stepped => by
    repeat' split at stepped
    all_goals cases stepped
    all_goals rfl) _ _ _ folded
  exact ⟨by simpa using counted, by simp⟩

theorem resamplingWindow_nothing_reached {tmin tmax : Float} {dtime tv targets : List Float}
    {mode : InterpMode} (valid : mode.valid = true) (stored : tv ≠ [])
    (targeted : targetTimes tmin tmax dtime = .ok targets)
    (nothing : reachedTargets targets tv = []) :
    ∃ first, resamplingWindow tmin tmax dtime tv mode = .ok (first, first - 1) := by
  obtain ⟨⟨sel, br⟩, selected⟩ := selectSample_ok tmin valid stored
  refine ⟨br.inf, ?_⟩
  simp [resamplingWindow, targeted, selected, nothing, bind, Except.bind, pure, Except.pure]

/-- A resampled field with no reached target reads as nothing. -/
theorem rangeOf_field_nothing_reached {op : Operation} {data : Buffer} {tv targets : List Float}
    (valid : op.interp.valid = true) (stored : tv ≠ []) (resampled : op.dtime ≠ [])
    (targeted : targetTimes op.tmin op.tmax op.dtime = .ok targets)
    (nothing : reachedTargets targets tv = []) :
    MemoryBackend.rangeOf op data tv false = .ok none := by
  obtain ⟨first, window⟩ := resamplingWindow_nothing_reached valid stored targeted nothing
  have nonempty : op.dtime.isEmpty = false := by simpa using resampled
  unfold MemoryBackend.rangeOf
  simp only [nonempty, Bool.false_eq_true, if_false, Except.sampled, window, bind, Except.bind,
    Except.mapError, pure, Except.pure]
  by_cases empty : data.sliceLen = 0
  · simp [empty]
  · simp [empty]

/-- A resampled field answers one slice per reached target. -/
theorem rangeOf_field_count {op : Operation} {data out : Buffer} {tv targets : List Float}
    (resampled : op.dtime ≠ []) (targeted : targetTimes op.tmin op.tmax op.dtime = .ok targets)
    (answered : MemoryBackend.rangeOf op data tv false = .ok (some out)) :
    out.shape.getLast? = some ((reachedTargets targets tv).length : Int) := by
  have nonempty : op.dtime.isEmpty = false := by simpa using resampled
  unfold MemoryBackend.rangeOf at answered
  simp only [nonempty, Bool.false_eq_true, if_false, Except.sampled, bind, Except.bind,
    Except.mapError, pure, Except.pure] at answered
  split at answered
  · cases answered
  split at answered
  · cases answered
  split at answered
  · cases answered
  split at answered
  · cases answered
  split at answered
  · cases answered
  rename_i result interpolated
  cases answered
  obtain ⟨counted, shaped⟩ := interpolateWithResampling_count targeted interpolated
  rw [shaped, counted]

/-! ## The two reads -/

/-- Over an explicit grid of target times, a window read of the time base and of a field on it
count the same slices: the time base answers the reached target times, none when no target is
reached, and the field then answers nothing, or else as many slices as there are reached
targets. -/
theorem explicit_grid_reads_agree {op : Operation} {tb data : Buffer} {tv : List Float}
    (valid : op.interp.valid = true) (explicit : 2 ≤ op.dtime.length) (stored : tv ≠ []) :
    MemoryBackend.rangeOf op tb tv true =
        .ok (if reachedTargets (inRange op.dtime op.tmin op.tmax) tv = [] then none
          else some (Buffer.ofDoubles (reachedTargets (inRange op.dtime op.tmin op.tmax) tv))) ∧
      (reachedTargets (inRange op.dtime op.tmin op.tmax) tv = [] →
        MemoryBackend.rangeOf op data tv false = .ok none) ∧
      ∀ out, MemoryBackend.rangeOf op data tv false = .ok (some out) →
        out.shape.getLast? =
          some ((reachedTargets (inRange op.dtime op.tmin op.tmax) tv).length : Int) := by
  have resampled : op.dtime ≠ [] := by
    intro none_
    simp [none_] at explicit
  have targeted := targetTimes_explicit op.tmin op.tmax explicit
  exact ⟨rangeOf_timebase_explicit op tb tv explicit,
    rangeOf_field_nothing_reached valid stored resampled targeted,
    fun _ answered => rangeOf_field_count resampled targeted answered⟩

theorem explicit_grid_reads_agree_two_targets :
    let op : Operation :=
      { uid := 1, entry := default, name := "p", access := .read, range := .timeRange,
        interp := .closest, tmin := 0, tmax := 5, dtime := [1, 2] }
    let stored : List Float := [1, 2, 3]
    op.interp.valid = true ∧ 2 ≤ op.dtime.length ∧ stored ≠ [] ∧
      MemoryBackend.rangeOf op (Buffer.ofDoubles stored) stored true =
        .ok (if reachedTargets (inRange op.dtime op.tmin op.tmax) stored = [] then none
          else some (Buffer.ofDoubles (reachedTargets (inRange op.dtime op.tmin op.tmax) stored))) ∧
      (reachedTargets (inRange op.dtime op.tmin op.tmax) stored = [] →
        MemoryBackend.rangeOf op (Buffer.ofDoubles [7, 8, 9]) stored false = .ok none) ∧
      ∀ out, MemoryBackend.rangeOf op (Buffer.ofDoubles [7, 8, 9]) stored false = .ok (some out) →
        out.shape.getLast? =
          some ((reachedTargets (inRange op.dtime op.tmin op.tmax) stored).length : Int) := by
  intro op stored
  have valid : op.interp.valid = true := rfl
  have explicit : 2 ≤ op.dtime.length := by decide
  have nonempty : stored ≠ [] := by simp [stored]
  exact ⟨valid, explicit, nonempty,
    @explicit_grid_reads_agree op (Buffer.ofDoubles stored) (Buffer.ofDoubles [7, 8, 9]) stored
      valid explicit nonempty⟩

/-- With a uniform step the time base can answer fewer times than the field has slices: over
`[1, 1]` with step `2 ^ -54`, the targets `1 + k * 2 ^ -54` all round to 1, so three are reached
while the rounded count is one. The time base reads `[1]` and the field three slices. -/
theorem uniform_step_timebase_read_undercounts :
    let session := [Session.Call.beginDataEntry "imas:memory?path=/p" .create,
        .beginGlobal 1 "obj" "" .write,
        .writeData 2 "time" "time" (Buffer.ofDoubles [1]),
        .writeData 2 "f" "time" (Buffer.ofDoubles [5]),
        .endAction 2,
        .beginTimeRange 1 "obj" .read 1 1 [5.551115123125783e-17] .closest].foldl
      (fun s c => (c.perform.run s).state) ({ env := {} } : Session)
    (∃ t, (Session.readData 2 "time" "time" .double 1).run session = .ok (Buffer.ofDoubles [1]) t) ∧
      ∃ t, (Session.readData 2 "f" "time" .double 1).run session =
        .ok (Buffer.ofDoubles [5, 5, 5]) t := by
  intro session
  obtain ⟨times, t, timesRead, timesHeld⟩ := exists_ok_of_check (p := fun b => b.holdsDoubles [1])
    (r := (Session.readData 2 "time" "time" .double 1).run session) (by decide +kernel)
  obtain ⟨values, u, valuesRead, valuesHeld⟩ :=
    exists_ok_of_check (p := fun b => b.holdsDoubles [5, 5, 5])
      (r := (Session.readData 2 "f" "time" .double 1).run session) (by decide +kernel)
  exact ⟨⟨t, by rw [timesRead, Buffer.eq_ofDoubles_of_holdsDoubles timesHeld]⟩,
    ⟨u, by rw [valuesRead, Buffer.eq_ofDoubles_of_holdsDoubles valuesHeld]⟩⟩

end AccessLayer
