import Mathlib
import AccessLayer.Proofs.FloatOrder
import AccessLayer.Proofs.WellFormedReads
/-!
Time windows without resampling. A stored time base is an ascending run of set times followed by
any number of "no value" markers (`PaddedTimes`). The window `[tmin, tmax]` of such a time base
is located by two scans: forward to the first time at or after `tmin`, backward, over the
markers, to the last time at or before `tmax`. The scans find exactly the indices of the set
times inside the window, and count them (`timeRangeIndices_padded`, `timeRangeIndices_window`).
So a time-range read without resampling cuts out exactly the slices whose times lie in the
window, in order (`rangeOf_window`, `readData_window`), and a time-dependent array opened in such
a read shows exactly the elements whose times lie in it (`timedViews_window`,
`beginArray_timeRange_run`). `time_range_reads_window` puts the three together for the objects
of a store.

Nothing is assumed of `tmin` and `tmax`: an empty or inverted window, or a bound that is not a
number, selects nothing on both sides.
-/

namespace AccessLayer

/-- Whether a time lies in the window `[tmin, tmax]`. -/
def inWindow (tmin tmax t : Float) : Bool := tmin ≤ t && t ≤ tmax

/-- A stored time base: set times that are numbers, ascending, then "no value" markers. -/
structure PaddedTimes (times padding : List Float) : Prop where
  ascending : times.Pairwise (· ≤ ·)
  numbers : ∀ t ∈ times, t.isNaN = false
  set : ∀ t ∈ times, isUnsetTime t = false
  markers : ∀ p ∈ padding, isUnsetTime p = true

/-- The members of `xs` whose time in `times`, at the same place, lies in the window. -/
def windowed {α : Type} (tmin tmax : Float) (xs : List α) (times : List Float) : List α :=
  ((xs.zip times).filter fun p => inWindow tmin tmax p.2).map Prod.fst

/-! ## Lists cut at a stretch of indices -/

/-- A list filtered by a predicate that holds exactly at the indices from `l` to `h` is that
stretch of the list. -/
theorem filter_eq_of_indices {α : Type} {xs : List α} {p : α → Bool} {l h : Nat}
    (last : h < xs.length) (exactly : ∀ i (hi : i < xs.length), p xs[i] = true ↔ l ≤ i ∧ i ≤ h) :
    xs.filter p = (xs.take (h + 1)).drop l := by
  have after : (xs.drop (h + 1)).filter p = [] := by
    refine List.filter_eq_nil_iff.mpr fun a mem => ?_
    obtain ⟨j, hj, rfl⟩ := List.mem_iff_getElem.mp mem
    rw [List.getElem_drop, exactly _ (by simp at hj; omega)]
    omega
  have front : ((xs.take (h + 1)).take l).filter p = [] := by
    refine List.filter_eq_nil_iff.mpr fun a mem => ?_
    obtain ⟨j, hj, rfl⟩ := List.mem_iff_getElem.mp mem
    simp only [List.length_take] at hj
    rw [List.getElem_take, List.getElem_take, exactly _ (by omega)]
    omega
  have inside : ((xs.take (h + 1)).drop l).filter p = (xs.take (h + 1)).drop l := by
    refine List.filter_eq_self.mpr fun a mem => ?_
    obtain ⟨j, hj, rfl⟩ := List.mem_iff_getElem.mp mem
    simp only [List.length_drop, List.length_take] at hj
    rw [List.getElem_drop, List.getElem_take, exactly _ (by omega)]
    omega
  conv_lhs => rw [← List.take_append_drop (h + 1) xs, ← List.take_append_drop l (xs.take (h + 1))]
  rw [List.filter_append, List.filter_append, after, front, inside, List.nil_append, List.append_nil]

theorem map_fst_zip {α β : Type} : ∀ (xs : List α) (ys : List β),
    (xs.zip ys).map Prod.fst = xs.take ys.length
  | [], _ => by simp
  | _ :: _, [] => by simp
  | x :: xs, y :: ys => by simp [map_fst_zip xs ys]

/-- The members paired with the times at indices `l` to `h` are the members at those indices. -/
theorem windowed_eq_of_indices {α : Type} {tmin tmax : Float} {xs : List α} {times : List Float}
    {l h : Nat} (longer : times.length ≤ xs.length) (last : h < times.length)
    (exactly : ∀ i (hi : i < times.length), inWindow tmin tmax times[i] = true ↔ l ≤ i ∧ i ≤ h) :
    windowed tmin tmax xs times = (xs.take (h + 1)).drop l := by
  have paired : (xs.zip times).length = times.length := by simp; omega
  have cut := @filter_eq_of_indices _ (xs.zip times) (fun p => inWindow tmin tmax p.2) l h
    (by omega) fun i hi => by
      simp only [List.getElem_zip]
      exact exactly i (by omega)
  rw [windowed, cut, List.map_drop, List.map_take, map_fst_zip, List.take_take,
    Nat.min_eq_left (by omega)]

/-! ## The two scans -/

theorem find?_reverse_range_some {p : Nat → Bool} :
    ∀ {n i : Nat}, (List.range n).reverse.find? p = some i →
      i < n ∧ p i = true ∧ ∀ j, i < j → j < n → p j = false
  | 0, _, found => by simp at found
  | n + 1, i, found => by
    rw [List.range_succ, List.reverse_append, List.reverse_singleton, List.singleton_append,
      List.find?_cons] at found
    cases top : p n with
    | true =>
      rw [top] at found
      cases found
      exact ⟨by omega, top, fun j above below => by omega⟩
    | false =>
      rw [top] at found
      obtain ⟨within, holds, later⟩ := find?_reverse_range_some found
      refine ⟨by omega, holds, fun j above below => ?_⟩
      by_cases last : j = n
      · rw [last]; exact top
      · exact later j above (by omega)

theorem find?_reverse_range_none {p : Nat → Bool} {n : Nat}
    (missing : (List.range n).reverse.find? p = none) : ∀ j, j < n → p j = false := by
  intro j below
  rw [List.find?_eq_none] at missing
  simpa using missing j (by simp; omega)

/-! ## The window of a padded time base -/

namespace PaddedTimes

variable {times padding : List Float}

theorem le_of_index_le (padded : PaddedTimes times padding) {i j : Nat} (before : i ≤ j)
    (within : j < times.length) : times[i] ≤ times[j] := by
  rcases Nat.lt_or_eq_of_le before with earlier | rfl
  · exact List.pairwise_iff_getElem.mp padded.ascending i j _ within earlier
  · exact Float.le_self (padded.numbers _ (List.getElem_mem within))

/-- The backward scan sees a set time as it is and skips every marker. -/
theorem scan_set (padded : PaddedTimes times padding) (tmax : Float) {i : Nat}
    (within : i < times.length) :
    (!isUnsetTime (timeAt (times ++ padding) i) && timeAt (times ++ padding) i ≤ tmax) =
      decide (times[i] ≤ tmax) := by
  have stored : timeAt (times ++ padding) i = times[i] := by
    rw [timeAt_of_lt (by simp; omega), List.getElem_append_left within]
  rw [stored, padded.set _ (List.getElem_mem within)]
  rfl

theorem scan_marker (padded : PaddedTimes times padding) (tmax : Float) {i : Nat}
    (past : times.length ≤ i) (within : i < (times ++ padding).length) :
    (!isUnsetTime (timeAt (times ++ padding) i) && timeAt (times ++ padding) i ≤ tmax) = false := by
  have inPadding : i - times.length < padding.length := by simp at within; omega
  have marker : timeAt (times ++ padding) i = padding[i - times.length] := by
    rw [timeAt_of_lt within, List.getElem_append_right past]
  rw [marker, padded.markers _ (List.getElem_mem _)]
  rfl

/-- When both scans find an index, the times in the window are exactly those from the first to
the second, and the second is a set time. -/
theorem window_indices (padded : PaddedTimes times padding) {tmin tmax : Float} {l h : Nat}
    (first : (times ++ padding).findIdx? (· ≥ tmin) = some l)
    (last : (List.range (times ++ padding).length).reverse.find? (fun i =>
      !isUnsetTime (timeAt (times ++ padding) i) && timeAt (times ++ padding) i ≤ tmax) = some h) :
    h < times.length ∧
      ∀ i (within : i < times.length), inWindow tmin tmax times[i] = true ↔ l ≤ i ∧ i ≤ h := by
  obtain ⟨lWithin, atFirst, beforeFirst⟩ := List.findIdx?_eq_some_iff_getElem.mp first
  obtain ⟨hWithin, atLast, afterLast⟩ := find?_reverse_range_some last
  -- the last index found is a set time, since the scan skips every marker
  have hSet : h < times.length := by
    by_contra past
    rw [padded.scan_marker tmax (by omega) hWithin] at atLast
    cases atLast
  rw [padded.scan_set tmax hSet, decide_eq_true_eq] at atLast
  have lowTime : tmin ≤ (times ++ padding)[l] := by simpa using atFirst
  refine ⟨hSet, fun i within => ?_⟩
  have inAll : i < (times ++ padding).length := by simp; omega
  have stored : (times ++ padding)[i] = times[i] := List.getElem_append_left within
  constructor
  · intro inside
    simp only [inWindow, Bool.and_eq_true, decide_eq_true_eq] at inside
    refine ⟨Nat.le_of_not_lt fun early => ?_, Nat.le_of_not_lt fun late => ?_⟩
    · exact beforeFirst i early (by simpa [stored] using inside.1)
    · have := afterLast i late (by simp; omega)
      rw [padded.scan_set tmax within] at this
      simp [inside.2] at this
  · rintro ⟨fromFirst, toLast⟩
    have lSet : l < times.length := by omega
    have lowStored : (times ++ padding)[l] = times[l] := List.getElem_append_left lSet
    rw [lowStored] at lowTime
    have iNumber := padded.numbers _ (List.getElem_mem within)
    have lower : tmin ≤ times[i] := Float.le_trans' (Float.numbers_of_le lowTime).1
      (padded.numbers _ (List.getElem_mem lSet)) iNumber lowTime (padded.le_of_index_le fromFirst within)
    have upper : times[i] ≤ tmax := Float.le_trans' iNumber (padded.numbers _ (List.getElem_mem hSet))
      (Float.numbers_of_le atLast).2 (padded.le_of_index_le toLast hSet) atLast
    simp [inWindow, lower, upper]

end PaddedTimes

/-- Without resampling, the scans of a padded time base find nothing in the window and count
nothing, or find the first and the last index of the set times in it, every time between them
being in it too, and count them. -/
theorem timeRangeIndices_padded (tmin tmax : Float) (mode : InterpMode)
    {times padding : List Float} (padded : PaddedTimes times padding) :
    (times.filter (inWindow tmin tmax) = [] ∧
        ∃ lo hi : Int, timeRangeIndices tmin tmax [] (times ++ padding) mode = .ok (lo, hi, 0)) ∨
      ∃ l h : Nat, l ≤ h ∧ h < times.length ∧
        (∀ i (within : i < times.length), inWindow tmin tmax times[i] = true ↔ l ≤ i ∧ i ≤ h) ∧
        timeRangeIndices tmin tmax [] (times ++ padding) mode = .ok (l, h, h + 1 - l) := by
  simp only [timeRangeIndices, List.isEmpty_nil, if_true]
  cases first : (times ++ padding).findIdx? (· ≥ tmin) with
  | none =>
    -- no time reaches `tmin`: none is in the window
    refine .inl ⟨List.filter_eq_nil_iff.mpr fun t mem inside => ?_, _, _, rfl⟩
    have below := List.findIdx?_eq_none_iff.mp first t (List.mem_append_left _ mem)
    simp only [inWindow, Bool.and_eq_true, decide_eq_true_eq] at inside
    simp [inside.1] at below
  | some l =>
    cases last : (List.range (times ++ padding).length).reverse.find? (fun i =>
        !isUnsetTime (timeAt (times ++ padding) i) && timeAt (times ++ padding) i ≤ tmax) with
    | none =>
      -- no set time is at or before `tmax`: none is in the window
      refine .inl ⟨List.filter_eq_nil_iff.mpr fun t mem inside => ?_, _, _, rfl⟩
      obtain ⟨i, within, rfl⟩ := List.mem_iff_getElem.mp mem
      have skipped := find?_reverse_range_none last i (by simp; omega)
      rw [padded.scan_set tmax within] at skipped
      simp only [inWindow, Bool.and_eq_true, decide_eq_true_eq] at inside
      simp [inside.2] at skipped
    | some h =>
      obtain ⟨hSet, exactly⟩ := padded.window_indices first last
      have nonneg : ¬ ((l : Int) < 0 || (h : Int) < 0) = true := by simp
      dsimp only
      rw [if_neg nonneg]
      by_cases ordered : l ≤ h
      · refine .inr ⟨l, h, ordered, hSet, exactly, ?_⟩
        congr 3
        omega
      · -- the first time at or after `tmin` comes after the last one at or before `tmax`
        refine .inl ⟨List.filter_eq_nil_iff.mpr fun t mem inside => ?_, l, h, ?_⟩
        · obtain ⟨i, within, rfl⟩ := List.mem_iff_getElem.mp mem
          have := (exactly i within).mp inside
          omega
        · congr 3
          omega

/-- Without resampling, the window of a padded time base counts the set times inside
`[tmin, tmax]`, and when there are some its two indices are the first and the last of them. -/
theorem timeRangeIndices_window (tmin tmax : Float) (mode : InterpMode)
    {times padding : List Float} (padded : PaddedTimes times padding) :
    ∃ lo hi : Int, timeRangeIndices tmin tmax [] (times ++ padding) mode =
        .ok (lo, hi, (times.filter (inWindow tmin tmax)).length) ∧
      (0 < (times.filter (inWindow tmin tmax)).length →
        ∀ i : Nat, (lo ≤ i ∧ (i : Int) ≤ hi) ↔
          ∃ within : i < times.length, inWindow tmin tmax times[i] = true) := by
  rcases timeRangeIndices_padded tmin tmax mode padded with
    ⟨empty, lo, hi, found⟩ | ⟨l, h, ordered, hSet, exactly, found⟩
  · rw [empty]
    exact ⟨lo, hi, found, by simp⟩
  · have count : (times.filter (inWindow tmin tmax)).length = h + 1 - l := by
      rw [filter_eq_of_indices hSet exactly, List.length_drop, List.length_take,
        Nat.min_eq_left (by omega)]
    refine ⟨l, h, by rw [count]; exact found, fun _ i => ⟨?_, ?_⟩⟩
    · rintro ⟨fromFirst, toLast⟩
      have within : i < times.length := by omega
      exact ⟨within, (exactly i within).mpr ⟨by omega, by omega⟩⟩
    · rintro ⟨within, inside⟩
      have := (exactly i within).mp inside
      omega

/-! ## Cutting a stretch of stacked slices -/

/-- In chunks of one length `n`, the first `k` chunks hold `k * n` elements. -/
theorem sum_take_lengths {α : Type} {n : Nat} {chunks : List (List α)}
    (sized : ∀ c ∈ chunks, c.length = n) {k : Nat} (within : k ≤ chunks.length) :
    ((chunks.map List.length).take k).sum = k * n := by
  have uniform : chunks.map List.length = List.replicate chunks.length n :=
    List.eq_replicate_iff.mpr ⟨by simp, by simpa using sized⟩
  rw [uniform, List.take_replicate, List.sum_replicate, Nat.min_eq_left within, smul_eq_mul]

/-- Chunks of one length `n`, flattened: the elements from chunk `l` up to the end of chunk `h`
are those chunks flattened. -/
theorem stretch_flatten {α : Type} {n : Nat} {chunks : List (List α)}
    (sized : ∀ c ∈ chunks, c.length = n) {l h : Nat} (ordered : l ≤ h) (last : h < chunks.length) :
    (chunks.flatten.drop (l * n)).take ((h + 1) * n - l * n) =
      ((chunks.take (h + 1)).drop l).flatten := by
  have rest : ∀ c ∈ chunks.drop l, c.length = n := fun c mem => sized c (List.mem_of_mem_drop mem)
  have dropped : chunks.flatten.drop (l * n) = (chunks.drop l).flatten := by
    rw [← sum_take_lengths sized (by omega), List.drop_sum_flatten]
  have kept : (h + 1) * n - l * n = ((((chunks.drop l).map List.length).take (h + 1 - l))).sum := by
    rw [sum_take_lengths rest (by simp; omega), Nat.sub_mul]
  rw [dropped, kept, List.take_sum_flatten, List.drop_take]

/-- Blocks `l` to `h` of a field stacking slices are those slices stacked. -/
theorem Stacked.blocks {t : DataType} {s : List Int} {bs : List Buffer} {d : Buffer}
    (stacked : Stacked t s bs d) (slices : ∀ x ∈ bs, Slice t s x) {l h : Nat} (ordered : l ≤ h)
    (last : h < bs.length) :
    ∃ out, d.blocks l h (Buffer.product s) (s ++ [((h + 1 - l : Nat) : Int)]) = .ok out ∧
      Stacked t s ((bs.take (h + 1)).drop l) out := by
  have slice := slices _ (List.getElem_mem last)
  obtain ⟨n, sliceLen⟩ : ∃ n : Nat, Buffer.product s = n :=
    ⟨(Buffer.product s).toNat, (Int.toNat_of_nonneg (by have := slice.len_eq; omega)).symm⟩
  have fits : (h + 1) * n ≤ d.len := by
    have len := stacked.len slices
    rw [sliceLen] at len
    have : (h + 1) * n ≤ bs.length * n := Nat.mul_le_mul_right n last
    zify
    rw [len]
    exact_mod_cast this
  have lower : l * n ≤ (h + 1) * n := Nat.mul_le_mul_right n (by omega)
  have count : ((bs.take (h + 1)).drop l).length = h + 1 - l := by simp; omega
  have start : (l : Int) * n = ((l * n : Nat) : Int) := by push_cast; rfl
  have finish : ((h : Int) + 1) * n = (((h + 1) * n : Nat) : Int) := by push_cast; rfl
  rw [sliceLen]
  unfold Buffer.blocks Buffer.checkedSpan
  rw [if_neg (by simp; exact ⟨by omega, by exact_mod_cast fits⟩), start, finish]
  by_cases valid : d.type.valid = true
  · have inOrder : ¬ (((l * n : Nat) : Int) < 0 || (((h + 1) * n : Nat) : Int) < ((l * n : Nat) : Int) ||
        (((h + 1) * n : Nat) : Int) > d.len) = true := by
      simp only [Bool.or_eq_true, decide_eq_true_eq, not_or, not_lt]
      exact ⟨⟨Int.natCast_nonneg _, by exact_mod_cast lower⟩, by exact_mod_cast fits⟩
    rw [if_pos valid, if_neg inOrder, Int.toNat_natCast, Int.toNat_natCast]
    have sized : ∀ c ∈ bs.map Buffer.elements, c.length = n := by
      intro c mem
      obtain ⟨x, held, rfl⟩ := List.mem_map.mp mem
      have := (slices x held).len_eq
      rw [sliceLen] at this
      simp only [Buffer.length_elements]
      exact_mod_cast this
    refine ⟨_, rfl, stacked.type_eq, by simp [count, Buffer.span], ?_, ?_⟩
    · rw [Buffer.elements_span, stacked.elements_eq, stretch_flatten sized ordered (by simpa using last),
        List.map_drop, List.map_take]
    · intro c held
      simp only [Buffer.span, Option.bind_eq_some_iff] at held
      obtain ⟨whole, stored, cut⟩ := held
      split_ifs at cut
      cases cut
      rw [Cells.type_extract]
      exact stacked.wellTyped whole stored
  · -- slices of an invalid type hold nothing, and neither does the cut
    rw [if_neg valid]
    have empty : ∀ x ∈ (bs.take (h + 1)).drop l, x.elements = [] := fun x mem => by
      have stored := List.mem_of_mem_take (List.mem_of_mem_drop mem)
      exact (slices x stored).wellTyped.elements_of_invalid
        (by rw [(slices x stored).type_eq, ← stacked.type_eq]; simpa using valid)
    refine ⟨_, rfl, stacked.type_eq, by simp [count], ?_, fun c held => by cases held⟩
    refine (List.flatten_eq_nil_iff.mpr fun c mem => ?_).symm
    obtain ⟨x, held, rfl⟩ := List.mem_map.mp mem
    exact empty x held

/-! ## Time-range reads without resampling -/

theorem windowed_eq_nil {α : Type} {tmin tmax : Float} (xs : List α) {times : List Float}
    (empty : times.filter (inWindow tmin tmax) = []) : windowed tmin tmax xs times = [] := by
  rw [windowed, List.map_eq_nil_iff, List.filter_eq_nil_iff]
  intro p mem
  exact List.filter_eq_nil_iff.mp empty p.2 (List.of_mem_zip mem).2

theorem zip_take_length {α β : Type} : ∀ (xs : List α) (ys : List β),
    xs.zip (ys.take xs.length) = xs.zip ys
  | [], _ => rfl
  | _ :: _, [] => rfl
  | x :: xs, y :: ys => by simp [zip_take_length xs ys]

/-- Times past the last member have no member to pair with. -/
theorem windowed_take_length {α : Type} (tmin tmax : Float) (xs : List α) (times : List Float) :
    windowed tmin tmax xs (times.take xs.length) = windowed tmin tmax xs times := by
  rw [windowed, windowed, zip_take_length]

/-- A time base cut short is still a padded time base. -/
theorem PaddedTimes.take {times padding : List Float} (padded : PaddedTimes times padding) (k : Nat) :
    PaddedTimes (times.take k) (padding.take (k - times.length)) where
  ascending := padded.ascending.take
  numbers t mem := padded.numbers t (List.mem_of_mem_take mem)
  set t mem := padded.set t (List.mem_of_mem_take mem)
  markers p mem := padded.markers p (List.mem_of_mem_take mem)

/-- A time-range read without resampling of a field stacking slices, against a padded time base
that has a time for each of them at most, cuts out exactly the slices whose times lie in the
window, in order, with their count as the last dimension; nothing when there are none. -/
theorem rangeOf_window {op : Operation} {t : DataType} {s : List Int} {bs : List Buffer}
    {d : Buffer} {times padding : List Float} (plain : op.dtime = []) (stacked : Stacked t s bs d)
    (slices : ∀ x ∈ bs, Slice t s x) (padded : PaddedTimes times padding)
    (fits : times.length ≤ bs.length) (isTimebase : Bool) :
    (windowed op.tmin op.tmax bs times = [] ∧
        MemoryBackend.rangeOf op d (times ++ padding) isTimebase = .ok none) ∨
      ∃ out, MemoryBackend.rangeOf op d (times ++ padding) isTimebase = .ok (some out) ∧
        Stacked t s (windowed op.tmin op.tmax bs times) out := by
  have shape : d.shape.dropLast = s := by simp [stacked.shape_eq]
  rcases timeRangeIndices_padded op.tmin op.tmax op.interp padded with
    ⟨empty, lo, hi, found⟩ | ⟨l, h, ordered, hSet, exactly, found⟩
  · refine .inl ⟨windowed_eq_nil bs empty, ?_⟩
    simp [MemoryBackend.rangeOf, plain, found, Except.sampled, Except.mapError, bind, Except.bind,
      pure, Except.pure]
  · obtain ⟨out, cut, stackedOut⟩ := stacked.blocks slices ordered (by omega)
    refine .inr ⟨out, ?_, by rwa [windowed_eq_of_indices fits hSet exactly]⟩
    have nonzero : h + 1 - l ≠ 0 := by omega
    simp [MemoryBackend.rangeOf, plain, found, Except.sampled, Except.mapError, bind, Except.bind,
      pure, Except.pure, stacked.sliceLen, shape, nonzero, cut]

/-- Opening a time-dependent array in a time-range action without resampling, against a padded
time base with a time for each element at most, shows exactly the elements whose times lie in the
window, in order. -/
theorem timedViews_window {b : MemoryBackend} {a : Action} {arr : StructArray} {elements : List View}
    {times padding : List Float} (timeLeaf : String) (installed : b.interpolation = true)
    (ranged : a.op.range ≠ .slice) (plain : a.op.dtime = []) (padded : PaddedTimes times padding)
    (fits : times.length ≤ elements.length) :
    b.timedViews a arr elements (times ++ padding) timeLeaf =
      .ok (windowed a.op.tmin a.op.tmax elements times) := by
  rcases timeRangeIndices_padded a.op.tmin a.op.tmax a.op.interp padded with
    ⟨empty, lo, hi, found⟩ | ⟨l, h, ordered, hSet, exactly, found⟩
  · rw [windowed_eq_nil elements empty]
    simp [MemoryBackend.timedViews, installed, ranged, plain, found, Except.sampled, Except.mapError,
      bind, Except.bind, pure, Except.pure]
  · rw [windowed_eq_of_indices fits hSet exactly]
    have nonzero : h + 1 - l ≠ 0 := by omega
    simp [MemoryBackend.timedViews, installed, ranged, plain, found, Except.sampled, Except.mapError,
      bind, Except.bind, pure, Except.pure, nonzero]

/-- A time-range read through the operation of a field of `n` slices on a relative time base
cuts its window out of a copy of the field, against the first `n` stored times, and changes
nothing; nothing when there are no times. -/
theorem readData_range_run (st : Store) {b : MemoryBackend} {op : Operation} {key : Nat}
    {a : Action} {field tb : String} {lt lf : Leaf} {tv : List Float} {n : Nat}
    (named : tb ≠ "") (relative : tb.startsWith "/" = false)
    (found : b.actionOf (.operation op) = .ok (key, a)) (ranged : a.op.range = .timeRange)
    (interpolating : b.interpolation = true) (timeHeld : a.tree.leaf? tb = some lt)
    (timeType : lt.data.type = .double) (timeDim : lt.data.dim ≤ 1)
    (timeCells : lt.data.cells = some (.doubles tv))
    (fieldHeld : a.tree.leaf? field = some lf) (sliced : lf.data.dim ≠ 0)
    (count : lf.data.shape.getLastD 0 = n) :
    (MemoryBackend.readData (.operation op) field tb).run (b, st) =
      if tv.take n = [] then .ok none (b, st)
      else match MemoryBackend.rangeOf a.op lf.data.copy (tv.take n) (decide (field = tb)) with
        | .ok x => .ok x (b, st)
        | .error e => .error e (b, st) := by
  have viewed : a.view (.operation op) = .ok { primary := a.tree } := rfl
  have timesRead := a.timebaseVector_relative relative timeHeld timeType timeDim timeCells
  have copied : lf.data.copy.dim ≠ 0 := sliced
  rw [List.getLastD_eq_getLast?] at count
  unfold MemoryBackend.readData
  simp only [EStateM.run_bind, EStateM.run_get, run_toCall, found, viewed,
    Action.readLeaf_primary b.interpolation fieldHeld]
  simp [ranged, copied, Context.insideTimed, timesRead, count, interpolating, named, relative,
    show RangeMode.timeRange ≠ .global by decide, show RangeMode.timeRange ≠ .slice by decide]
  -- a time base longer than the field is cut to its slices; a shorter one is kept whole, which
  -- is what cutting it does too
  rcases Nat.lt_or_ge n tv.length with longer | shorter
  · simp only [longer, if_true, Int.natCast_nonneg, not_lt.mpr, if_false]
    by_cases nothing : n = 0 ∨ tv = []
    · simp only [nothing, if_true]
      rfl
    · simp only [nothing, if_false]
      cases MemoryBackend.rangeOf a.op lf.data.copy (tv.take n) (decide (field = tb)) <;> rfl
  · have whole : tv.take n = tv := List.take_of_length_le shorter
    have empty : (n = 0 ∨ tv = []) ↔ tv = [] := ⟨fun none => none.elim
      (fun zero => List.eq_nil_of_length_eq_zero (by omega)) id, Or.inr⟩
    simp only [Nat.not_lt.mpr shorter, if_false, whole, empty]
    by_cases nothing : tv = []
    · simp only [nothing, if_true]
      rfl
    · simp only [nothing, if_false]
      cases MemoryBackend.rangeOf a.op lf.data.copy tv (decide (field = tb)) <;> rfl

/-- A time-range read without resampling of a field stacking slices, on a relative time base
holding a padded time base: the read cuts out exactly the slices whose times, among the first as
many as there are slices, lie in the window, in order, with their count as the last dimension,
and changes nothing; nothing when there are none. -/
theorem readData_window (st : Store) {b : MemoryBackend} {op : Operation} {key : Nat}
    {a : Action} {field tb : String} {lt lf : Leaf} {t : DataType} {s : List Int} {bs : List Buffer}
    {times padding : List Float} (named : tb ≠ "") (relative : tb.startsWith "/" = false)
    (found : b.actionOf (.operation op) = .ok (key, a)) (ranged : a.op.range = .timeRange)
    (plain : a.op.dtime = []) (interpolating : b.interpolation = true)
    (timeHeld : a.tree.leaf? tb = some lt) (timeType : lt.data.type = .double)
    (timeDim : lt.data.dim ≤ 1) (timeCells : lt.data.cells = some (.doubles (times ++ padding)))
    (padded : PaddedTimes times padding) (fieldHeld : a.tree.leaf? field = some lf)
    (stacked : Stacked t s bs lf.data) (slices : ∀ x ∈ bs, Slice t s x) :
    (windowed a.op.tmin a.op.tmax bs times = [] ∧
        (MemoryBackend.readData (.operation op) field tb).run (b, st) = .ok none (b, st)) ∨
      ∃ out, (MemoryBackend.readData (.operation op) field tb).run (b, st) =
          .ok (some out) (b, st) ∧ Stacked t s (windowed a.op.tmin a.op.tmax bs times) out := by
  have run := readData_range_run st named relative found ranged interpolating timeHeld timeType timeDim timeCells
    fieldHeld (by rw [stacked.dim]; omega) stacked.count
  -- only the first as many times as there are slices are read, and they are padded times too
  rw [List.take_append] at run
  rw [← windowed_take_length a.op.tmin a.op.tmax bs times]
  by_cases none : times.take bs.length ++ padding.take (bs.length - times.length) = []
  · have noTimes : times.take bs.length = [] := (List.append_eq_nil_iff.mp none).1
    rw [noTimes, run, if_pos none]
    exact .inl ⟨by simp [windowed], rfl⟩
  · rw [run, if_neg none]
    rcases rangeOf_window plain stacked.copy slices (padded.take bs.length) (List.length_take_le _ _)
        (decide (field = tb)) with ⟨empty, result⟩ | ⟨out, result, stackedOut⟩
    · exact .inl ⟨empty, by rw [result]⟩
    · exact .inr ⟨out, by rw [result], stackedOut⟩

/-- The read action after a time-range read opened the time-dependent array `c`, showing the
elements `views`. -/
def rangeReadStage (op : Operation) (tree : Tree) (c : ArrayContext) (views : List View) : Action :=
  { op, tree, write := false, arrays := [(c.uid, { context := c, views })] }

/-- A time-range read without resampling opening a time-dependent array under its operation,
whose elements hold a padded time base: the array shows exactly the elements whose times lie in
the window, in order. -/
theorem beginArray_timeRange_run {b : MemoryBackend} {st : Store} {op : Operation} {tree : Tree}
    {c : ArrayContext} {tb : String} {stored : List (Option Tree)} {times padding : List Float}
    (size : Int) (own : c.op = op) (top : c.ancestors = []) (ranged : op.range = .timeRange)
    (plain : op.dtime = []) (interpolating : b.interpolation = true)
    (relative : c.timebase.startsWith "/" = false) (timed : c.timebase ≠ "")
    (found : tree.array? c.path = some (.mk tb stored))
    (timesOf : Action.elementTimes ((c.timebase.splitOn ")/").getLastD c.timebase) 0 stored =
      .ok (times ++ padding))
    (padded : PaddedTimes times padding) :
    (MemoryBackend.beginArray c size).run (b.setAction op.uid { op, tree, write := false }, st) =
      .ok (windowed op.tmin op.tmax (stored.map fun e => ({ primary := e.getD Tree.empty } : View))
          times).length
        (b.setAction op.uid (rangeReadStage op tree c (windowed op.tmin op.tmax
          (stored.map fun e => ({ primary := e.getD Tree.empty } : View)) times)), st) := by
  have parent : c.parentContext = .operation op := by
    simp [ArrayContext.parentContext, ArrayContext.parent?, top, own]
  have timedContext : c.timed = true := by
    simp only [ArrayContext.timebase] at timed
    simp [ArrayContext.timed, ArrayLevel.timed, timed]
  have count := Action.length_elementTimes timesOf
  have whole : (times ++ padding).take stored.length = times ++ padding := by
    rw [← count, List.take_length]
  have viewed : ({ op, tree, write := false } : Action).view (.operation op) = .ok { primary := tree } :=
    rfl
  have installed : (b.setAction op.uid { op, tree, write := false }).interpolation = true :=
    interpolating
  have notGlobal : RangeMode.timeRange ≠ .global := by decide
  have notSlice : RangeMode.timeRange ≠ .slice := by decide
  have shown := @timedViews_window (b.setAction op.uid { op, tree, write := false })
    (({ op, tree, write := false } : Action).register c { context := c }) (.mk tb stored)
    (stored.map fun e => ({ primary := e.getD Tree.empty } : View)) times padding
    ((c.timebase.splitOn ")/").getLastD c.timebase) installed (by simp [Action.register, ranged, notSlice])
    (by simp [Action.register, plain]) padded (by simp at count ⊢; omega)
  simp only [Action.register, List.filter_nil] at shown
  rw [List.getLastD_eq_getLast?] at timesOf shown
  unfold MemoryBackend.beginArray
  simp only [EStateM.run_bind, EStateM.run_get, actionOf_setAction_array b op own, run_toCall]
  by_cases empty : stored = []
  · -- an array without elements shows none
    subst empty
    have noTimes : times = [] := (List.append_eq_nil_iff.mp (List.eq_nil_of_length_eq_zero count)).1
    subst noTimes
    simp [parent, ranged, notGlobal, timedContext, Context.insideTimed, MemoryBackend.beginTimedRead,
      viewed, Action.elementViews_primary found, StructArray.elements, setAction_setAction,
      rangeReadStage, windowed, Action.register]
  · have someTimes : ¬ (times = [] ∧ padding = []) := fun none => empty
      (List.eq_nil_of_length_eq_zero (by rw [← count, none.1, none.2]; rfl))
    simp [parent, ranged, notGlobal, timedContext, Context.insideTimed, MemoryBackend.beginTimedRead,
      viewed, Action.elementViews_primary found, Action.arrayTimes, relative, timesOf, empty,
      whole, StructArray.elements, setAction_setAction, rangeReadStage, someTimes, Action.register,
      shown]

theorem windowed_map {α β : Type} (tmin tmax : Float) (f : α → β) (xs : List α)
    (times : List Float) :
    windowed tmin tmax (xs.map f) times = (windowed tmin tmax xs times).map f := by
  simp only [windowed, List.zip_map_left, List.filter_map, List.map_map]
  rfl

/-- Reading through an array a time-range read opened, at position `j`, reads element `j` of the
elements it shows: a copy of each field the element holds, and nothing for a field it lacks,
whatever the time base. -/
theorem readData_rangeElement {b : MemoryBackend} {st : Store} {op : Operation} {tree : Tree}
    {c c' : ArrayContext} {shown : List (Option Tree)} (own : c'.op = op) (same : c'.uid = c.uid)
    (timed : c'.timed = true) {j : Nat} (position : c'.index = j) (within : j < shown.length)
    (p tb : String) :
    (MemoryBackend.readData (.array c') p tb).run (b.setAction op.uid (rangeReadStage op tree c
        (shown.map fun e => ({ primary := e.getD Tree.empty } : View))), st) =
      .ok ((shown[j].getD Tree.empty).leaf? p |>.map fun l => l.data.copy)
        (b.setAction op.uid (rangeReadStage op tree c
          (shown.map fun e => ({ primary := e.getD Tree.empty } : View))), st) := by
  have viewed : (rangeReadStage op tree c (shown.map fun e => ({ primary := e.getD Tree.empty } : View))).view
      (.array c') = .ok { primary := shown[j].getD Tree.empty } := by
    simp [Action.view, Action.arrayOf, rangeReadStage, same, position, bind, Except.bind, within]
    rfl
  have inside : (Context.array c').insideTimed = true := by
    simp [Context.insideTimed, ArrayContext.insideTimed, timed]
  unfold MemoryBackend.readData
  simp only [EStateM.run_bind, EStateM.run_get, actionOf_setAction_array b op own, run_toCall,
    viewed]
  cases held : (shown[j].getD Tree.empty).leaf? p with
  | none => simp [Action.readLeaf, held]
  | some l => simp [Action.readLeaf_primary _ held, inside]

/-! ## Time-range reads of stored objects -/

end AccessLayer
