import Mathlib
import AccessLayer.Proofs.FloatArithmetic
/-!
Which stored samples a requested time selects. Over stored times that are finite and ascending,
the bracket of `t` is a pair of adjacent indices (`Bracket.Within`), one apart except where
Closest meets a time at or before the first sample, and it encloses `t` whenever the stored
times do. Of the bracket each mode selects by its own law: Closest the stored time nearest to `t`
among all of them, ties going up; Previous the last stored time at or before `t`, up to the time
tolerance, once the stored times are further apart than that tolerance; Linear the lower end.
The main statement is `selectSample_law`.

Distances are float differences: the laws rest on subtraction being monotone and blind to the
order of its arguments once its magnitude is taken (`Float.sub_le_sub`, `Float.abs_sub_comm_le`).
-/

namespace AccessLayer

/-- Stored times a selection reads: some, all finite, in ascending order. -/
structure AscendingTimes (tv : List Float) : Prop where
  nonempty : tv ≠ []
  ascending : tv.Pairwise (· ≤ ·)
  finite : ∀ x ∈ tv, x.isFinite = true

/-- A bracket of adjacent samples among `n`: `inf` at most `sup`, which is at most one above it
and an index of the stored times. -/
structure Bracket.Within (br : Bracket) (n : Nat) : Prop where
  ordered : br.inf ≤ br.sup
  adjacent : br.sup ≤ br.inf + 1
  inRange : br.sup < n

/-- A stored time at or before `t`, or within the time tolerance of it: what Previous may take. -/
def AtOrBefore (t v : Float) : Prop := v ≤ t ∨ (v - t).abs ≤ timeTolerance

instance (t v : Float) : Decidable (AtOrBefore t v) :=
  inferInstanceAs (Decidable (v ≤ t ∨ (v - t).abs ≤ timeTolerance))

theorem InterpMode.cases_of_valid {mode : InterpMode} (valid : mode.valid = true) :
    mode = .undefined ∨ mode = .closest ∨ mode = .previous ∨ mode = .linear := by
  obtain ⟨c⟩ := mode
  simp only [InterpMode.valid, Bool.and_eq_true, decide_eq_true_eq] at valid
  have codes : c = 0 ∨ c = 1 ∨ c = 2 ∨ c = 3 := by omega
  rcases codes with rfl | rfl | rfl | rfl
  · exact .inl rfl
  · exact .inr (.inl rfl)
  · exact .inr (.inr (.inl rfl))
  · exact .inr (.inr (.inr rfl))

/-! ## Stored times -/

namespace AscendingTimes

variable {tv : List Float} (times : AscendingTimes tv)
include times

theorem length_pos : 0 < tv.length := List.length_pos_iff.mpr times.nonempty

theorem finite_at {i : Nat} (within : i < tv.length) : (timeAt tv i).isFinite = true := by
  rw [timeAt_of_lt within]
  exact times.finite _ (List.getElem_mem within)

theorem number_at {i : Nat} (within : i < tv.length) : (timeAt tv i).isNaN = false :=
  Float.isNaN_of_isFinite (times.finite_at within)

theorem le_of_le {i j : Nat} (ij : i ≤ j) (within : j < tv.length) : timeAt tv i ≤ timeAt tv j := by
  rcases ij.lt_or_eq with lt | rfl
  · rw [timeAt_of_lt (lt.trans within), timeAt_of_lt within]
    exact List.pairwise_iff_getElem.mp times.ascending i j _ within lt
  · exact Float.le_self (times.number_at within)

end AscendingTimes

theorem StoredTimes.lt_of_lt {tv : List Float} (times : StoredTimes tv) {i j : Nat} (ij : i < j)
    (within : j < tv.length) : timeAt tv i < timeAt tv j := by
  rw [timeAt_of_lt (ij.trans within), timeAt_of_lt within]
  exact List.pairwise_iff_getElem.mp times.ascending i j _ within ij

/-! ## The bracket of a requested time -/

section Bracket

variable {t : Float} {tv : List Float} {mode : InterpMode}

theorem firstAtOrAfter_some {i : Nat} (found : firstAtOrAfter t tv = some i) :
    i < tv.length ∧ t ≤ timeAt tv i ∧ ∀ j < i, ¬ t ≤ timeAt tv j := by
  unfold firstAtOrAfter at found
  obtain ⟨within, at_i, before⟩ := List.findIdx?_eq_some_iff_getElem.mp found
  refine ⟨within, ?_, fun j lt => ?_⟩
  · rw [timeAt_of_lt within]
    simpa using at_i
  · rw [timeAt_of_lt (lt.trans within)]
    simpa using before j lt

theorem firstAtOrAfter_none (none : firstAtOrAfter t tv = none) :
    ∀ j < tv.length, ¬ t ≤ timeAt tv j := by
  unfold firstAtOrAfter at none
  intro j within
  rw [timeAt_of_lt within]
  simpa using List.findIdx?_eq_none_iff.mp none _ (List.getElem_mem within)

theorem bracketOf_inf : (bracketOf t tv mode).inf = (bracketOf t tv mode).sup - 1 := rfl

theorem bracketOf_sup_of_none (none : firstAtOrAfter t tv = none) :
    (bracketOf t tv mode).sup = tv.length - 1 := by
  simp [bracketOf, none]

/-- A first stored time at or after `t` is the upper end, moved up to the second sample when it
is the first one and the mode is not Closest. -/
theorem bracketOf_sup_of_some {i : Nat} (found : firstAtOrAfter t tv = some i) :
    (bracketOf t tv mode).sup = if mode ≠ .closest ∧ i = 0 ∧ 1 < tv.length then 1 else i := by
  simp [bracketOf, found, and_assoc]

/-- The bracket is a pair of adjacent stored samples. -/
theorem bracketOf_within (stored : tv ≠ []) : (bracketOf t tv mode).Within tv.length := by
  have some := List.length_pos_iff.mpr stored
  have sup : (bracketOf t tv mode).sup < tv.length := by
    cases found : firstAtOrAfter t tv with
    | none =>
      rw [bracketOf_sup_of_none found]
      omega
    | some i =>
      rw [bracketOf_sup_of_some found]
      have := (firstAtOrAfter_some found).1
      split <;> omega
  exact ⟨by rw [bracketOf_inf]; omega, by rw [bracketOf_inf]; omega, sup⟩

/-- Among two or more samples the ends of the bracket are distinct, except for Closest at or
before the first sample. -/
theorem bracketOf_sup_eq_inf_add_one (more : 1 < tv.length) :
    (bracketOf t tv mode).sup = (bracketOf t tv mode).inf + 1 ↔
      ¬ (mode = .closest ∧ t ≤ timeAt tv 0) := by
  rw [bracketOf_inf]
  cases found : firstAtOrAfter t tv with
  | none =>
    rw [bracketOf_sup_of_none found]
    have later := firstAtOrAfter_none found 0 (by omega)
    simp only [later, and_false, not_false_eq_true, iff_true]
    omega
  | some i =>
    obtain ⟨-, atI, before⟩ := firstAtOrAfter_some found
    rw [bracketOf_sup_of_some found]
    rcases Nat.eq_zero_or_pos i with rfl | pos
    · by_cases closest : mode = .closest
      · simp [closest, atI]
      · simp [closest, more]
    · have later := before 0 pos
      simp only [later, and_false, not_false_eq_true, iff_true]
      split <;> omega

/-- When the stored times reach from `t` or below to `t` or above, the bracket encloses `t`. -/
theorem bracketOf_encloses (times : AscendingTimes tv) (finiteT : t.isFinite = true)
    (above : timeAt tv 0 ≤ t) (below : t ≤ timeAt tv (tv.length - 1)) :
    timeAt tv (bracketOf t tv mode).inf ≤ t ∧ t ≤ timeAt tv (bracketOf t tv mode).sup := by
  have numberT := Float.isNaN_of_isFinite finiteT
  have some := times.length_pos
  rw [bracketOf_inf]
  cases found : firstAtOrAfter t tv with
  | none => exact absurd below (firstAtOrAfter_none found _ (by omega))
  | some i =>
    obtain ⟨within, atI, before⟩ := firstAtOrAfter_some found
    rw [bracketOf_sup_of_some found]
    rcases Nat.eq_zero_or_pos i with rfl | pos
    · -- `t` is the first stored time; the second lies at or above it
      split
      · rename_i shifted
        exact ⟨above, Float.le_trans' numberT (times.number_at within) (times.number_at shifted.2.2)
          atI (times.le_of_le (Nat.zero_le 1) shifted.2.2)⟩
      · exact ⟨above, atI⟩
    · rw [if_neg (by omega)]
      have earlier : timeAt tv (i - 1) < t :=
        (Float.not_le_iff_lt numberT (times.number_at (by omega))).mp (before (i - 1) (by omega))
      exact ⟨Float.le_of_lt' (times.number_at (by omega)) numberT earlier, atI⟩

end Bracket

/-! ## What each mode selects -/

section Select

variable {t : Float} {tv : List Float} {mode : InterpMode}

/-- The end of a bracket nearer to `t`, the upper one on a tie: what Closest selects. -/
def nearerEnd (t : Float) (tv : List Float) (br : Bracket) : Nat :=
  if (t - timeAt tv br.inf).abs < (t - timeAt tv br.sup).abs then br.inf else br.sup

/-- The upper end of a bracket when `t` is at or after it up to the tolerance, else the lower end:
what Previous selects. -/
def previousEnd (t : Float) (tv : List Float) (br : Bracket) : Nat :=
  if br.sup > 0 && (closeTo t (timeAt tv br.sup) timeTolerance || t > timeAt tv br.sup) then br.sup
  else br.inf

theorem selectSample_closest (stored : tv ≠ []) (closest : mode = .closest ∨ mode = .undefined) :
    selectSample t tv mode =
      .ok (nearerEnd t tv (bracketOf t tv .closest), bracketOf t tv .closest) := by
  have nonempty : tv.isEmpty = false := by simpa using stored
  -- an undefined mode runs as Closest
  have runs : mode.valid = true ∧ (if mode = .undefined then .closest else mode) = .closest := by
    rcases closest with rfl | rfl <;> exact ⟨rfl, rfl⟩
  unfold selectSample
  simp only [runs.1, runs.2, nonempty, Bool.not_true, Bool.false_eq_true, if_false, if_true]
  rfl

theorem selectSample_previous (stored : tv ≠ []) :
    selectSample t tv .previous =
      .ok (previousEnd t tv (bracketOf t tv .previous), bracketOf t tv .previous) := by
  have nonempty : tv.isEmpty = false := by simpa using stored
  have runs : InterpMode.previous.valid = true ∧
      (if InterpMode.previous = .undefined then .closest else InterpMode.previous) = .previous ∧
      InterpMode.previous ≠ .closest := ⟨rfl, rfl, by decide⟩
  unfold selectSample
  simp only [runs.1, runs.2.1, runs.2.2, nonempty, Bool.not_true, Bool.false_eq_true, if_false,
    if_true]
  rfl

theorem selectSample_linear (stored : tv ≠ []) :
    selectSample t tv .linear = .ok ((bracketOf t tv .linear).inf, bracketOf t tv .linear) := by
  have nonempty : tv.isEmpty = false := by simpa using stored
  have runs : InterpMode.linear.valid = true ∧
      (if InterpMode.linear = .undefined then .closest else InterpMode.linear) = .linear ∧
      InterpMode.linear ≠ .closest ∧ InterpMode.linear ≠ .previous := ⟨rfl, rfl, by decide, by decide⟩
  unfold selectSample
  simp only [runs.1, runs.2.1, runs.2.2.1, runs.2.2.2, nonempty, Bool.not_true, Bool.false_eq_true,
    if_false]

end Select

/-! ## Closest: the nearest stored time -/

section Closest

variable {t : Float} {tv : List Float}

/-- Past a stored time at or after `t`, stored times only get farther from `t`. -/
theorem AscendingTimes.nearest_above (times : AscendingTimes tv) (finiteT : t.isFinite = true)
    {k i : Nat} (atK : t ≤ timeAt tv k) (ki : k ≤ i) (within : i < tv.length) :
    (t - timeAt tv k).abs ≤ (t - timeAt tv i).abs :=
  Float.abs_sub_le_of_le_of_le finiteT (times.finite_at (by omega)) (times.finite_at within) atK
    (times.le_of_le ki within)

/-- Before a stored time at or before `t`, stored times only get farther from `t`. -/
theorem AscendingTimes.nearest_below (times : AscendingTimes tv) (finiteT : t.isFinite = true)
    {k i : Nat} (atK : timeAt tv k ≤ t) (ik : i ≤ k) (within : k < tv.length) :
    (t - timeAt tv k).abs ≤ (t - timeAt tv i).abs :=
  Float.abs_sub_le_of_ge_of_ge finiteT (times.finite_at within) (times.finite_at (by omega)) atK
    (times.le_of_le ik within)

/-- A stored time not at or after `t` lies before it. -/
theorem AscendingTimes.le_of_not_le (times : AscendingTimes tv) (finiteT : t.isFinite = true)
    {k : Nat} (within : k < tv.length) (notAfter : ¬ t ≤ timeAt tv k) : timeAt tv k ≤ t := by
  have numberT := Float.isNaN_of_isFinite finiteT
  exact Float.le_of_lt' (times.number_at within) numberT
    ((Float.not_le_iff_lt numberT (times.number_at within)).mp notAfter)

/-- One end of the Closest bracket is at most as far from `t` as any given stored time: the
upper end for the stored times from it on, the lower one for those before. -/
theorem closest_bracket_end_nearest (times : AscendingTimes tv) (finiteT : t.isFinite = true)
    {i : Nat} (within : i < tv.length) :
    (t - timeAt tv (bracketOf t tv .closest).inf).abs ≤ (t - timeAt tv i).abs ∨
      (t - timeAt tv (bracketOf t tv .closest).sup).abs ≤ (t - timeAt tv i).abs := by
  have some := times.length_pos
  cases found : firstAtOrAfter t tv with
  | none =>
    -- every stored time lies before `t`: the last one is nearest
    right
    rw [bracketOf_sup_of_none found]
    have last := times.le_of_not_le finiteT (k := tv.length - 1) (by omega)
      (firstAtOrAfter_none found _ (by omega))
    exact times.nearest_below finiteT last (by omega) (by omega)
  | some k =>
    obtain ⟨withinK, atK, before⟩ := firstAtOrAfter_some found
    have sup : (bracketOf t tv .closest).sup = k := by
      rw [bracketOf_sup_of_some found]
      simp
    rw [bracketOf_inf, sup]
    rcases Nat.lt_or_ge i k with ik | ki
    · -- `i` lies before `k`, so `k - 1` is a stored time before `t`
      have earlier := times.le_of_not_le finiteT (by omega) (before (k - 1) (by omega))
      exact .inl (times.nearest_below finiteT earlier (by omega) (by omega))
    · exact .inr (times.nearest_above finiteT atK ki within)

/-- The end Closest selects is at most as far from `t` as either end. -/
theorem nearerEnd_le {br : Bracket} (numberInf : (t - timeAt tv br.inf).abs.isNaN = false)
    (numberSup : (t - timeAt tv br.sup).abs.isNaN = false) :
    (t - timeAt tv (nearerEnd t tv br)).abs ≤ (t - timeAt tv br.inf).abs ∧
      (t - timeAt tv (nearerEnd t tv br)).abs ≤ (t - timeAt tv br.sup).abs := by
  unfold nearerEnd
  split
  · rename_i nearer
    exact ⟨Float.le_self numberInf, Float.le_of_lt' numberInf numberSup nearer⟩
  · rename_i notNearer
    refine ⟨?_, Float.le_self numberSup⟩
    by_contra farther
    exact notNearer ((Float.not_le_iff_lt numberSup numberInf).mp farther)

/-- Of two ends at the same distance from `t`, Closest takes the upper one. -/
theorem nearerEnd_of_tie {br : Bracket} (numberInf : (t - timeAt tv br.inf).abs.isNaN = false)
    (numberSup : (t - timeAt tv br.sup).abs.isNaN = false)
    (tie : ((t - timeAt tv br.inf).abs == (t - timeAt tv br.sup).abs) = true) :
    nearerEnd t tv br = br.sup := by
  unfold nearerEnd
  rw [if_neg]
  intro nearer
  rw [Float.beq_iff_toEReal numberInf numberSup] at tie
  rw [Float.lt_iff_toEReal numberInf numberSup, tie] at nearer
  exact lt_irrefl _ nearer

/-- Closest selects a stored time nearest to `t` among all of them. -/
theorem closest_nearest (times : AscendingTimes tv) (finiteT : t.isFinite = true) {i : Nat}
    (within : i < tv.length) :
    (t - timeAt tv (nearerEnd t tv (bracketOf t tv .closest))).abs ≤ (t - timeAt tv i).abs := by
  obtain ⟨ordered, -, inRange⟩ := @bracketOf_within t tv .closest times.nonempty
  have distance : ∀ j < tv.length, (t - timeAt tv j).abs.isNaN = false := fun j hj =>
    Float.isNaN_abs_sub finiteT (times.finite_at hj)
  have selected : nearerEnd t tv (bracketOf t tv .closest) < tv.length := by
    unfold nearerEnd
    split <;> omega
  obtain ⟨toInf, toSup⟩ := nearerEnd_le (distance _ (by omega)) (distance _ inRange)
  rcases closest_bracket_end_nearest times finiteT within with viaInf | viaSup
  · exact Float.le_trans' (distance _ selected) (distance _ (by omega)) (distance _ within)
      toInf viaInf
  · exact Float.le_trans' (distance _ selected) (distance _ inRange) (distance _ within)
      toSup viaSup

end Closest

/-! ## Previous: the last stored time at or before the requested one -/

section Previous

variable {t : Float} {tv : List Float}

theorem timeTolerance_isNaN : timeTolerance.isNaN = false := rfl

/-- A stored time at or after `t` is within the tolerance exactly when Previous may take it:
equal to `t` or near enough, measured in either order. -/
theorem closeTo_iff_atOrBefore {v : Float} (finiteT : t.isFinite = true)
    (finiteV : v.isFinite = true) (atV : t ≤ v) :
    closeTo t v timeTolerance = true ↔ AtOrBefore t v := by
  have numberT := Float.isNaN_of_isFinite finiteT
  have numberV := Float.isNaN_of_isFinite finiteV
  have same : (t == v) = true ↔ v ≤ t := by
    have below := (Float.le_iff_toEReal numberT numberV).mp atV
    rw [Float.beq_iff_toEReal numberT numberV, Float.le_iff_toEReal numberV numberT]
    exact ⟨fun eq => eq.symm.le, fun le => le_antisymm below le⟩
  simp only [closeTo, Bool.or_eq_true, decide_eq_true_eq, same, AtOrBefore,
    Float.abs_sub_comm_le finiteT finiteV timeTolerance_isNaN]

/-- Past a stored time at or after `t`, no stored time is at or before `t`, not even up to the
tolerance: the gap to the next stored time already exceeds it. -/
theorem not_atOrBefore_of_later (times : AscendingTimes tv) (stored : StoredTimes tv)
    (finiteT : t.isFinite = true) {k j : Nat} (atK : t ≤ timeAt tv k) (kj : k < j)
    (within : j < tv.length) : ¬ AtOrBefore t (timeAt tv j) := by
  have numberT := Float.isNaN_of_isFinite finiteT
  have finiteK := times.finite_at (i := k) (by omega)
  have finiteNext := times.finite_at (i := k + 1) (by omega)
  have finiteJ := times.finite_at within
  have later : t < timeAt tv j := Float.lt_of_le_of_lt' numberT (times.number_at (by omega))
    (times.number_at within) atK (stored.lt_of_lt kj within)
  -- the gap after `k`, measured upwards, exceeds the tolerance
  have gap : timeTolerance < (timeAt tv (k + 1) - timeAt tv k).abs := by
    have apart := stored.apart k (by omega)
    rw [← timeAt_of_lt (i := k) (by omega), ← timeAt_of_lt (i := k + 1) (by omega)] at apart
    rw [← Float.not_le_iff_lt (Float.isNaN_abs_sub finiteNext finiteK) timeTolerance_isNaN,
      Float.abs_sub_comm_le finiteNext finiteK timeTolerance_isNaN,
      Float.not_le_iff_lt (Float.isNaN_abs_sub finiteK finiteNext) timeTolerance_isNaN]
    exact apart
  -- and the distance from `t` to the later time is at least that gap
  have reach : (timeAt tv (k + 1) - timeAt tv k).abs ≤ (timeAt tv j - t).abs :=
    Float.le_trans' (Float.isNaN_abs_sub finiteNext finiteK) (Float.isNaN_sub_of_isFinite finiteJ finiteT)
      (Float.isNaN_abs_sub finiteJ finiteT)
      (Float.le_trans' (Float.isNaN_abs_sub finiteNext finiteK)
        (Float.isNaN_sub_of_isFinite finiteNext finiteK) (Float.isNaN_sub_of_isFinite finiteJ finiteT)
        (Float.abs_sub_le_sub finiteNext finiteK (times.le_of_le (Nat.le_succ k) (by omega)))
        (Float.sub_le_sub finiteNext finiteK finiteJ finiteT (times.le_of_le kj within) atK))
      (Float.le_abs_self' (Float.isNaN_sub_of_isFinite finiteJ finiteT))
  have far : timeTolerance < (timeAt tv j - t).abs := Float.lt_of_lt_of_le' timeTolerance_isNaN
    (Float.isNaN_abs_sub finiteNext finiteK) (Float.isNaN_abs_sub finiteJ finiteT) gap reach
  rintro (before | close)
  · exact Float.not_le_of_lt later before
  · exact Float.not_le_of_lt far close

/-- When every stored time lies before `t`, Previous takes the last one. -/
theorem previousEnd_of_none (found : firstAtOrAfter t tv = none)
    (last : timeAt tv (tv.length - 1) < t) :
    previousEnd t tv (bracketOf t tv .previous) = tv.length - 1 := by
  unfold previousEnd
  rw [bracketOf_inf, bracketOf_sup_of_none found]
  split
  · rfl
  · rename_i kept
    -- `t` lies past the last time, so only a single stored time can refuse it
    have single : ¬ tv.length - 1 > 0 := by simpa [last] using kept
    omega

/-- When `t` is at or before the first stored time, Previous takes the first one unless the
second qualifies. -/
theorem previousEnd_of_first (times : AscendingTimes tv) (finiteT : t.isFinite = true)
    (found : firstAtOrAfter t tv = some 0)
    (notSecond : 1 < tv.length → ¬ AtOrBefore t (timeAt tv 1)) :
    previousEnd t tv (bracketOf t tv .previous) = 0 := by
  have numberT := Float.isNaN_of_isFinite finiteT
  obtain ⟨withinK, atK, -⟩ := firstAtOrAfter_some found
  unfold previousEnd
  rw [bracketOf_inf, bracketOf_sup_of_some found]
  split
  · -- moved up to the second sample, which does not qualify
    rename_i shifted
    have second := shifted.2.2
    have atSecond : t ≤ timeAt tv 1 := Float.le_trans' numberT (times.number_at withinK)
      (times.number_at second) atK (times.le_of_le (Nat.zero_le 1) second)
    have notClose : closeTo t (timeAt tv 1) timeTolerance = false := Bool.eq_false_iff.mpr
      fun close => notSecond second
        ((closeTo_iff_atOrBefore finiteT (times.finite_at second) atSecond).mp close)
    have notAfter : ¬ t > timeAt tv 1 := fun after =>
      notSecond second (.inl (Float.le_of_lt' (times.number_at second) numberT after))
    simp [notClose, notAfter]
  · split <;> rfl

/-- When `t` lies after the first stored time at or after it, Previous takes that time if it
qualifies and the one before it otherwise. -/
theorem previousEnd_of_later (times : AscendingTimes tv) (finiteT : t.isFinite = true) {k : Nat}
    (found : firstAtOrAfter t tv = some k) (pos : 0 < k) :
    previousEnd t tv (bracketOf t tv .previous) =
      if AtOrBefore t (timeAt tv k) then k else k - 1 := by
  have numberT := Float.isNaN_of_isFinite finiteT
  obtain ⟨withinK, atK, -⟩ := firstAtOrAfter_some found
  have sup : (bracketOf t tv .previous).sup = k := by
    rw [bracketOf_sup_of_some found]
    simp [pos.ne']
  have notAfter : ¬ t > timeAt tv k := fun after =>
    (Float.not_le_iff_lt numberT (times.number_at withinK)).mpr after atK
  unfold previousEnd
  rw [bracketOf_inf, sup]
  simp only [gt_iff_lt, pos, decide_true, Bool.true_and, Bool.or_eq_true,
    closeTo_iff_atOrBefore finiteT (times.finite_at withinK) atK, notAfter, decide_false,
    Bool.false_eq_true, or_false]

/-- `sel` is the last stored time at or before `t` up to the tolerance, or the first one when no
stored time is. -/
def LastAtOrBefore (t : Float) (tv : List Float) (sel : Nat) : Prop :=
  (∀ i < tv.length, AtOrBefore t (timeAt tv i) → i ≤ sel) ∧
    (AtOrBefore t (timeAt tv sel) ∨ (sel = 0 ∧ ∀ i < tv.length, ¬ AtOrBefore t (timeAt tv i)))

/-- Previous selects the last stored time at or before `t` up to the tolerance, once stored times
lie further apart than the tolerance. -/
theorem previous_last (times : AscendingTimes tv) (stored : StoredTimes tv)
    (finiteT : t.isFinite = true) :
    LastAtOrBefore t tv (previousEnd t tv (bracketOf t tv .previous)) := by
  have numberT := Float.isNaN_of_isFinite finiteT
  have some := times.length_pos
  cases found : firstAtOrAfter t tv with
  | none =>
    -- every stored time lies before `t`: the last one is taken
    have last : timeAt tv (tv.length - 1) < t :=
      (Float.not_le_iff_lt numberT (times.number_at (by omega))).mp
        (firstAtOrAfter_none found _ (by omega))
    rw [previousEnd_of_none found last]
    exact ⟨fun i hi _ => by omega, .inl (.inl (Float.le_of_lt' (times.number_at (by omega)) numberT last))⟩
  | some k =>
    obtain ⟨withinK, atK, before⟩ := firstAtOrAfter_some found
    rcases Nat.eq_zero_or_pos k with rfl | pos
    · -- `t` at or before the first stored time: no later one qualifies, so the first is taken
      have none : ∀ i < tv.length, 0 < i → ¬ AtOrBefore t (timeAt tv i) := fun i hi pos =>
        not_atOrBefore_of_later times stored finiteT atK pos hi
      rw [previousEnd_of_first times finiteT found fun second => none 1 second Nat.one_pos]
      refine ⟨fun i hi qualifies => ?_, ?_⟩
      · by_contra later
        exact none i hi (by omega) qualifies
      · by_cases first : AtOrBefore t (timeAt tv 0)
        · exact .inl first
        · refine .inr ⟨rfl, fun i hi => ?_⟩
          rcases Nat.eq_zero_or_pos i with rfl | pos
          · exact first
          · exact none i hi pos
    · -- `t` between two stored times: the upper one if it qualifies, else the lower one
      have earlier : timeAt tv (k - 1) ≤ t := times.le_of_not_le finiteT (by omega) (before _ (by omega))
      rw [previousEnd_of_later times finiteT found pos]
      split
      · rename_i qualifies
        exact ⟨fun i hi _ => Nat.le_of_not_lt fun later =>
          not_atOrBefore_of_later times stored finiteT atK later hi ‹_›, .inl qualifies⟩
      · rename_i notQualifies
        refine ⟨fun i hi qualifies => ?_, .inl (.inl earlier)⟩
        rcases Nat.lt_trichotomy i k with lt | rfl | gt
        · omega
        · exact absurd qualifies notQualifies
        · exact absurd qualifies (not_atOrBefore_of_later times stored finiteT atK gt hi)

end Previous

/-! ## The selection law -/

/-- What a selection of the sample `sel` from the bracket `br` obeys, for the requested time `t`,
the stored times `tv` and the mode `mode` (Undefined selecting as Closest). -/
structure SelectionLaw (t : Float) (tv : List Float) (mode : InterpMode) (sel : Nat) (br : Bracket) :
    Prop where
  within : br.Within tv.length
  width : 1 < tv.length →
    (br.sup = br.inf + 1 ↔ ¬ ((mode = .closest ∨ mode = .undefined) ∧ t ≤ timeAt tv 0))
  encloses : timeAt tv 0 ≤ t → t ≤ timeAt tv (tv.length - 1) →
    timeAt tv br.inf ≤ t ∧ t ≤ timeAt tv br.sup
  selectsEnd : sel = br.inf ∨ sel = br.sup
  nearest : mode = .closest ∨ mode = .undefined →
    ∀ i < tv.length, (t - timeAt tv sel).abs ≤ (t - timeAt tv i).abs
  tieGoesUp : mode = .closest ∨ mode = .undefined →
    ((t - timeAt tv br.inf).abs == (t - timeAt tv br.sup).abs) = true → sel = br.sup
  lastAtOrBefore : mode = .previous → StoredTimes tv → LastAtOrBefore t tv sel
  lowerForLinear : mode = .linear → sel = br.inf

section Law

variable {t : Float} {tv : List Float}

theorem nearerEnd_mem (br : Bracket) : nearerEnd t tv br = br.inf ∨ nearerEnd t tv br = br.sup := by
  unfold nearerEnd
  split
  · exact .inl rfl
  · exact .inr rfl

theorem previousEnd_mem (br : Bracket) :
    previousEnd t tv br = br.inf ∨ previousEnd t tv br = br.sup := by
  unfold previousEnd
  split
  · exact .inr rfl
  · exact .inl rfl

/-- Closest selection, and Undefined with it. -/
theorem closest_selection {mode : InterpMode} (closest : mode = .closest ∨ mode = .undefined)
    (times : AscendingTimes tv) (finiteT : t.isFinite = true) :
    SelectionLaw t tv mode (nearerEnd t tv (bracketOf t tv .closest)) (bracketOf t tv .closest) := by
  obtain ⟨ordered, adjacent, inRange⟩ := @bracketOf_within t tv .closest times.nonempty
  have distance : ∀ j < tv.length, (t - timeAt tv j).abs.isNaN = false := fun j hj =>
    Float.isNaN_abs_sub finiteT (times.finite_at hj)
  have notPrevious : mode ≠ .previous := by rcases closest with rfl | rfl <;> decide
  have notLinear : mode ≠ .linear := by rcases closest with rfl | rfl <;> decide
  refine ⟨⟨ordered, adjacent, inRange⟩, fun more => ?_, bracketOf_encloses times finiteT,
    nearerEnd_mem _, fun _ _ hi => closest_nearest times finiteT hi,
    fun _ => nearerEnd_of_tie (distance _ (by omega)) (distance _ inRange),
    fun previous => absurd previous notPrevious, fun linear => absurd linear notLinear⟩
  rw [bracketOf_sup_eq_inf_add_one more]
  simp [closest]

theorem previous_selection (times : AscendingTimes tv) (finiteT : t.isFinite = true) :
    SelectionLaw t tv .previous (previousEnd t tv (bracketOf t tv .previous))
      (bracketOf t tv .previous) := by
  have notClosest : ¬ (InterpMode.previous = .closest ∨ InterpMode.previous = .undefined) := by decide
  refine ⟨bracketOf_within times.nonempty, fun more => ?_, bracketOf_encloses times finiteT,
    previousEnd_mem _, fun closest => absurd closest notClosest,
    fun closest => absurd closest notClosest,
    fun _ stored => previous_last times stored finiteT, fun linear => absurd linear (by decide)⟩
  rw [bracketOf_sup_eq_inf_add_one more]
  simp only [not_or] at notClosest
  simp [notClosest.1, notClosest.2]

theorem linear_selection (times : AscendingTimes tv) (finiteT : t.isFinite = true) :
    SelectionLaw t tv .linear (bracketOf t tv .linear).inf (bracketOf t tv .linear) := by
  have notClosest : ¬ (InterpMode.linear = .closest ∨ InterpMode.linear = .undefined) := by decide
  refine ⟨bracketOf_within times.nonempty, fun more => ?_, bracketOf_encloses times finiteT,
    .inl rfl, fun closest => absurd closest notClosest, fun closest => absurd closest notClosest,
    fun previous => absurd previous (by decide), fun _ => rfl⟩
  rw [bracketOf_sup_eq_inf_add_one more]
  simp only [not_or] at notClosest
  simp [notClosest.1, notClosest.2]

end Law

/-- The selection law: for finite ascending stored times, a finite requested time and a valid
mode, selection succeeds, and its bracket and selected sample obey `SelectionLaw`. -/
theorem selectSample_law {t : Float} {tv : List Float} {mode : InterpMode}
    (valid : mode.valid = true) (times : AscendingTimes tv) (finiteT : t.isFinite = true) :
    ∃ sel br, selectSample t tv mode = .ok (sel, br) ∧ SelectionLaw t tv mode sel br := by
  rcases InterpMode.cases_of_valid valid with rfl | rfl | rfl | rfl
  · exact ⟨_, _, selectSample_closest times.nonempty (.inr rfl),
      closest_selection (.inr rfl) times finiteT⟩
  · exact ⟨_, _, selectSample_closest times.nonempty (.inl rfl),
      closest_selection (.inl rfl) times finiteT⟩
  · exact ⟨_, _, selectSample_previous times.nonempty, previous_selection times finiteT⟩
  · exact ⟨_, _, selectSample_linear times.nonempty, linear_selection times finiteT⟩

/-- Three stored times and a requested time between the second and the third. -/
theorem selection_between_samples :
    InterpMode.closest.valid = true ∧ AscendingTimes [0, 1, 2] ∧ (1.5 : Float).isFinite = true ∧
      ∃ sel br, selectSample 1.5 [0, 1, 2] .closest = .ok (sel, br) ∧
        SelectionLaw 1.5 [0, 1, 2] .closest sel br := by
  have stored : AscendingTimes [0, 1, 2] := ⟨by simp, by decide, by decide⟩
  exact ⟨rfl, stored, rfl, selectSample_law rfl stored rfl⟩

end AccessLayer
