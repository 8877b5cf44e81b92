import Mathlib
import AccessLayer.Proofs.SampleSelection
import AccessLayer.Proofs.WellFormedReads
/-!
Resampling a window of a stored field. A resampled read asks first for the window of samples
that resampling `[tmin, tmax]` reads (`resamplingWindow`): from the lower end of the bracket of
`tmin` to the highest upper end of the bracket of a reached target time. It cuts those blocks out
of the stored buffer, and resampling then finds block `i` of the field at `i - first` in the
window.

The two agree. Every target time lies at or after `tmin` or is not a number
(`targetTimes_atOrAfter`): an explicit grid keeps only times inside the window, and a uniform
step is positive, so each step adds a value that is not negative. A later time has a later
bracket in any vector of stored times (`bracketOf_sup_le`), so every bracket resampling reads
lies inside the window. Resampling the window therefore gives what the whole field gives
(`resampling_window_reads_field`): one slice per reached target, each the one `resampledSlice`
reads off the field, the blend of the blocks at the two ends of the target's bracket for the
linear mode and the block of the selected sample for the others. This needs blocks of some
element: resampling refuses a zero shape before it reads a block
(`empty_blocks_fail_resampling`).
-/

namespace AccessLayer

/-! ## Target times lie at or after the start -/

section Targets

variable {tmin tmax : Float} {dtime targets : List Float}

theorem uniformStep_some {dt : Float} (uniform : uniformStep dtime = .ok (some dt)) : ¬ dt ≤ 0 := by
  unfold uniformStep at uniform
  split at uniform
  · rename_i step
    by_cases nonPositive : step ≤ 0
    · rw [if_pos nonPositive] at uniform
      cases uniform
    · rw [if_neg nonPositive] at uniform
      cases uniform
      exact nonPositive
  · cases uniform

/-- Every uniform target time is `tmin` plus a whole number of steps. -/
theorem mem_uniformTargets {dt limit t : Float} :
    ∀ {fuel k : Nat}, t ∈ uniformTargets tmin dt limit fuel k → ∃ j : Nat, t = tmin + j.toFloat * dt
  | 0, _, mem => by simp [uniformTargets] at mem
  | fuel + 1, k, mem => by
    simp only [uniformTargets] at mem
    split_ifs at mem
    · simp at mem
    · rcases List.mem_cons.mp mem with rfl | later
      · exact ⟨k, rfl⟩
      · exact mem_uniformTargets later

/-- Every target time lies at or after `tmin`, or is not a number: an explicit grid keeps only
times inside the window, and a uniform target adds to `tmin` a whole number of positive steps,
which is not negative. -/
theorem targetTimes_atOrAfter (finiteMin : tmin.isFinite = true)
    (targeted : targetTimes tmin tmax dtime = .ok targets) :
    ∀ t ∈ targets, t.isNaN = true ∨ tmin ≤ t := by
  intro t mem
  unfold targetTimes at targeted
  cases stepped : uniformStep dtime with
  | error e => simp [stepped, bind, Except.bind] at targeted
  | ok step =>
    cases step with
    | none =>
      simp only [stepped, bind, Except.bind] at targeted
      cases targeted
      simp only [inRange, List.mem_filter, Bool.and_eq_true, decide_eq_true_eq] at mem
      exact .inr mem.2.1
    | some dt =>
      simp only [stepped, bind, Except.bind] at targeted
      split at targeted
      · cases targeted
      · cases targeted
        obtain ⟨j, rfl⟩ := mem_uniformTargets mem
        exact Float.le_add_of_notNegative finiteMin (Float.notNegative_mul (Float.notNegative_toFloat j)
          (Float.notNegative_of_not_le_zero (uniformStep_some stepped)))

end Targets

/-! ## Later times have later brackets -/

section Brackets

variable {t tmin : Float} {tv : List Float} {mode : InterpMode}

/-- A time at or after `tmin`, or not a number (which no number follows), is followed only by
numbers at or after `tmin`. -/
theorem le_of_atOrAfter (numberMin : tmin.isNaN = false) (after : t.isNaN = true ∨ tmin ≤ t)
    {v : Float} (follows : t ≤ v) : tmin ≤ v := by
  obtain ⟨numberT, numberV⟩ := Float.numbers_of_le follows
  rcases after with nan | le
  · rw [numberT] at nan
    cases nan
  · exact Float.le_trans' numberMin numberT numberV le follows

/-- A later time has a later bracket, in any vector of stored times: when every stored time at
or after `t₂` is at or after `t₁`, the first of them for `t₂` comes no earlier than the first
for `t₁`, and moving a first sample up to the second keeps that order. -/
theorem bracketOf_sup_le {t₁ t₂ : Float} (stored : tv ≠ [])
    (later : ∀ i < tv.length, t₂ ≤ timeAt tv i → t₁ ≤ timeAt tv i) :
    (bracketOf t₁ tv mode).sup ≤ (bracketOf t₂ tv mode).sup := by
  cases found₂ : firstAtOrAfter t₂ tv with
  | none =>
    rw [bracketOf_sup_of_none found₂]
    have inRange := (@bracketOf_within t₁ tv mode stored).inRange
    omega
  | some j =>
    obtain ⟨within, atJ, -⟩ := firstAtOrAfter_some found₂
    cases found₁ : firstAtOrAfter t₁ tv with
    | none => exact absurd (later j within atJ) (firstAtOrAfter_none found₁ j within)
    | some i =>
      obtain ⟨-, -, before⟩ := firstAtOrAfter_some found₁
      have ij : i ≤ j := Nat.le_of_not_lt fun ji => before j ji (later j within atJ)
      rw [bracketOf_sup_of_some found₁, bracketOf_sup_of_some found₂]
      by_cases closest : mode = .closest
      · simpa [closest] using ij
      · simp only [ne_eq, closest, not_false_eq_true, true_and]
        split_ifs <;> omega

/-- What a selection gives: the bracket of `t` under the mode it runs as, and one of its two
ends. It succeeds only for a valid mode and some stored time. -/
theorem selectSample_eq_ok {sel : Nat} {br : Bracket}
    (selected : selectSample t tv mode = .ok (sel, br)) :
    mode.valid = true ∧ tv ≠ [] ∧
      br = bracketOf t tv (if mode = .undefined then .closest else mode) ∧
      (sel = br.inf ∨ sel = br.sup) := by
  have valid : mode.valid = true := by
    by_contra invalid
    rw [Bool.not_eq_true] at invalid
    simp [selectSample, invalid] at selected
  have stored : tv ≠ [] := by
    rintro rfl
    simp [selectSample, valid] at selected
  refine ⟨valid, stored, ?_⟩
  rcases InterpMode.cases_of_valid valid with rfl | rfl | rfl | rfl
  · rw [selectSample_closest stored (.inr rfl)] at selected
    cases selected
    exact ⟨rfl, nearerEnd_mem _⟩
  · rw [selectSample_closest stored (.inl rfl)] at selected
    cases selected
    exact ⟨rfl, nearerEnd_mem _⟩
  · rw [selectSample_previous stored] at selected
    cases selected
    exact ⟨rfl, previousEnd_mem _⟩
  · rw [selectSample_linear stored] at selected
    cases selected
    exact ⟨rfl, .inl rfl⟩

end Brackets

/-! ## The window -/

/-- A fold that never lowers its bound ends at or above where it started, and at or above what
each step asked of it. -/
theorem foldlM_bound {α ε : Type} {step : Int → α → Except ε Int} {P : α → Int → Prop}
    (steps : ∀ b x r, step b x = .ok r → b ≤ r ∧ P x r) (mono : ∀ x r r', P x r → r ≤ r' → P x r') :
    ∀ (l : List α) (init last : Int), l.foldlM step init = .ok last →
      init ≤ last ∧ ∀ x ∈ l, P x last
  | [], init, last, folded => by
    cases folded
    exact ⟨le_rfl, by simp⟩
  | x :: rest, init, last, folded => by
    rw [List.foldlM_cons] at folded
    cases stepped : step init x with
    | error e =>
      rw [stepped] at folded
      cases folded
    | ok mid =>
      rw [stepped] at folded
      obtain ⟨up, holds⟩ := steps init x mid stepped
      obtain ⟨upRest, holdsRest⟩ := foldlM_bound steps mono rest mid last folded
      refine ⟨up.trans upRest, fun y mem => ?_⟩
      rcases List.mem_cons.mp mem with rfl | later
      · exact mono _ _ _ holds upRest
      · exact holdsRest y later

section Window

variable {tmin tmax : Float} {dtime tv targets : List Float} {mode : InterpMode} {first last : Int}

/-- What a window says of the samples resampling reads: it starts at the lower end of the
bracket of `tmin`, and ends at or after the upper end of the bracket of every reached target. -/
theorem resamplingWindow_bounds (targeted : targetTimes tmin tmax dtime = .ok targets)
    (window : resamplingWindow tmin tmax dtime tv mode = .ok (first, last)) :
    ∃ sel br, selectSample tmin tv mode = .ok (sel, br) ∧ first = br.inf ∧
      ∀ t ∈ reachedTargets targets tv, ∀ s b, selectSample t tv mode = .ok (s, b) →
        (b.sup : Int) ≤ last := by
  unfold resamplingWindow at window
  simp only [targeted, bind, Except.bind] at window
  cases selected : selectSample tmin tv mode with
  | error e => simp [selected] at window
  | ok r =>
    obtain ⟨sel, br⟩ := r
    simp only [selected] at window
    split at window
    · cases window
    · rename_i reached folded
      cases window
      refine ⟨sel, br, rfl, rfl, ?_⟩
      -- each step raises the bound to the upper end of the bracket it selected
      refine (foldlM_bound (P := fun t r => ∀ s b, selectSample t tv mode = .ok (s, b) →
        (b.sup : Int) ≤ r) ?_ ?_ _ _ _ folded).2
      · intro b t r stepped
        cases chosen : selectSample t tv mode with
        | error e =>
          rw [chosen] at stepped
          cases stepped
        | ok v =>
          rw [chosen] at stepped
          cases stepped
          refine ⟨le_max_left _ _, fun s b' again => ?_⟩
          cases again
          exact le_max_right _ _
      · exact fun t r r' below up s b chosen => (below s b chosen).trans up

/-- The samples a reached target reads lie in the window: both ends of its bracket, and so the
selected sample, lie from `first` to `last`. -/
theorem reached_within (finiteMin : tmin.isFinite = true)
    (targeted : targetTimes tmin tmax dtime = .ok targets)
    (window : resamplingWindow tmin tmax dtime tv mode = .ok (first, last))
    {t : Float} (reached : t ∈ reachedTargets targets tv) {sel : Nat} {br : Bracket}
    (selected : selectSample t tv mode = .ok (sel, br)) :
    first ≤ br.inf ∧ br.inf ≤ br.sup ∧ (br.sup : Int) ≤ last ∧ (sel = br.inf ∨ sel = br.sup) := by
  obtain ⟨sel₀, br₀, selected₀, rfl, bounded⟩ := resamplingWindow_bounds targeted window
  obtain ⟨-, stored, bracket₀, -⟩ := selectSample_eq_ok selected₀
  obtain ⟨-, -, bracket, ends⟩ := selectSample_eq_ok selected
  -- the target follows `tmin`, so its bracket lies at or above the bracket of `tmin`
  have after := targetTimes_atOrAfter finiteMin targeted t
    (( reachedTargets_prefix targets tv).subset reached)
  have later := @bracketOf_sup_le tv (if mode = .undefined then .closest else mode) tmin t stored
    fun _ _ follows => le_of_atOrAfter (Float.isNaN_of_isFinite finiteMin) after follows
  subst bracket₀ bracket
  refine ⟨?_, ?_, bounded t reached sel _ selected, ends⟩
  · rw [bracketOf_inf, bracketOf_inf]
    omega
  · rw [bracketOf_inf]
    omega

end Window

/-! ## Blocks of a window -/

theorem Cells.extract_extract (c : Cells) {lo hi lo' hi' : Nat} (inside : hi' ≤ hi - lo) :
    (c.extract lo hi).extract lo' hi' = c.extract (lo + lo') (lo + hi') := by
  have lists : ∀ {α : Type} (v : List α),
      (((v.drop lo).take (hi - lo)).drop lo').take (hi' - lo') =
        (v.drop (lo + lo')).take (lo + hi' - (lo + lo')) := by
    intro α v
    rw [List.drop_take, List.take_take, List.drop_drop]
    congr 1
    omega
  cases c <;> simp only [Cells.extract, lists]

namespace Buffer

theorem len_span (b : Buffer) {lo hi : Nat} (within : hi ≤ b.len) (S : List Int) :
    (b.span lo hi S).len = hi - lo := by
  rw [← length_elements, elements_span, List.length_take, List.length_drop, length_elements]
  omega

/-- A span of a span is a span of the original, shifted by where the first one starts. -/
theorem span_span (b : Buffer) (S s : List Int) {lo hi lo' hi' : Nat} (inside : hi' ≤ hi - lo)
    (nonempty : lo' < hi') :
    (b.span lo hi S).span lo' hi' s = b.span (lo + lo') (lo + hi') s := by
  unfold Buffer.span
  cases held : b.cells with
  | none => rfl
  | some c =>
    by_cases empty : (c.extract lo hi).length = 0
    · -- nothing lies past `lo`, so nothing past `lo + lo'` either
      have none : (c.extract (lo + lo') (lo + hi')).length = 0 := by
        rw [Cells.length_extract] at empty ⊢
        omega
      simp [empty, none]
    · simp [empty, Cells.extract_extract c inside]

/-- A well-typed buffer holding some element has a type with storage. -/
theorem WellTyped.valid {b : Buffer} (typed : b.WellTyped) (some : 0 < b.len) : b.type.valid = true := by
  cases held : b.cells with
  | none => simp [len, held] at some
  | some c => rw [← typed c held]; exact c.type_valid

/-- A block inside a buffer of a valid type is the span of its elements. -/
theorem block_eq_span {b : Buffer} (valid : b.type.valid = true) {i n : Int} (start : 0 ≤ i)
    (nonneg : 0 ≤ n) (within : (i + 1) * n ≤ b.len) (s : List Int) :
    b.block i n s = .ok (b.span (i * n).toNat ((i + 1) * n).toNat s) := by
  have lower : 0 ≤ i * n := Int.mul_nonneg start nonneg
  have next : (i + 1) * n = i * n + n := by ring
  unfold Buffer.block Buffer.checkedSpan
  rw [if_neg (by simp only [Bool.or_eq_true, decide_eq_true_eq]; omega), if_pos valid,
    if_neg (by simp only [Bool.or_eq_true, decide_eq_true_eq]; omega)]

/-- Blocks `first` to `last` of `n > 0` elements cut out of a well-typed buffer: they lie inside
it, which gives its type storage, and are the span of their elements. -/
theorem blocks_eq_span {b d : Buffer} (typed : b.WellTyped) {first last n : Int} {S : List Int}
    (positive : 0 < n) (cut : b.blocks first last n S = .ok d) :
    0 ≤ first ∧ first ≤ last ∧ (last + 1) * n ≤ b.len ∧ b.type.valid = true ∧
      d = b.span (first * n).toNat ((last + 1) * n).toNat S := by
  by_cases outside : (first < 0 || last < first || (last + 1) * n > b.len) = true
  · rw [Buffer.blocks, if_pos outside] at cut
    cases cut
  rw [Buffer.blocks, if_neg outside] at cut
  simp only [Bool.or_eq_true, decide_eq_true_eq, not_or, not_lt] at outside
  obtain ⟨⟨start, ordered⟩, within⟩ := outside
  have lower : 0 ≤ first * n := Int.mul_nonneg start positive.le
  have upper : first * n ≤ (last + 1) * n := Int.mul_le_mul_of_nonneg_right (by omega) positive.le
  have next : (first + 1) * n ≤ (last + 1) * n := Int.mul_le_mul_of_nonneg_right (by omega) positive.le
  have valid : b.type.valid = true := typed.valid (by
    have : (first + 1) * n = first * n + n := by ring
    omega)
  rw [Buffer.checkedSpan, if_pos valid,
    if_neg (by simp only [Bool.or_eq_true, decide_eq_true_eq]; omega)] at cut
  cases cut
  exact ⟨start, ordered, within, valid, rfl⟩

/-- Block `idx` of a buffer is found in blocks `first` to `last` cut from it at `idx - first`:
both are the same span of the buffer's elements. -/
theorem window_block {b d : Buffer} (typed : b.WellTyped) {first last n : Int} {S : List Int}
    (positive : 0 < n) (cut : b.blocks first last n S = .ok d) {idx : Int} (lower : first ≤ idx)
    (upper : idx ≤ last) (s : List Int) :
    d.block (idx - first) n s = .ok (b.span (idx * n).toNat ((idx + 1) * n).toNat s) ∧
      b.block idx n s = .ok (b.span (idx * n).toNat ((idx + 1) * n).toNat s) := by
  obtain ⟨start, -, within, valid, rfl⟩ := blocks_eq_span typed positive cut
  -- the products of the block arithmetic, as linear facts
  have firstNonneg : 0 ≤ first * n := Int.mul_nonneg start positive.le
  have shifted : (idx - first) * n = idx * n - first * n := by ring
  have shiftedNext : (idx - first + 1) * n = (idx + 1) * n - first * n := by ring
  have next : (idx + 1) * n = idx * n + n := by ring
  have below : first * n ≤ idx * n := Int.mul_le_mul_of_nonneg_right lower positive.le
  have inside : (idx + 1) * n ≤ (last + 1) * n :=
    Int.mul_le_mul_of_nonneg_right (by omega) positive.le
  have len := @len_span b (first * n).toNat ((last + 1) * n).toNat (by omega) S
  refine ⟨?_, block_eq_span valid (by omega) positive.le (by omega) s⟩
  rw [block_eq_span (b := b.span (first * n).toNat ((last + 1) * n).toNat S) valid (by omega)
      positive.le (by rw [len]; omega) s,
    span_span b S s (by omega) (by omega)]
  have lowerEnd : (first * n).toNat + ((idx - first) * n).toNat = (idx * n).toNat := by omega
  have upperEnd : (first * n).toNat + ((idx - first + 1) * n).toNat = ((idx + 1) * n).toNat := by
    omega
  rw [lowerEnd, upperEnd]

/-- A span of a well-typed buffer inside its elements, under a shape of as many elements, is a
slice of the buffer's type. -/
theorem span_slice {b : Buffer} (typed : b.WellTyped) {lo hi : Nat} (within : hi ≤ b.len)
    {s : List Int} (fits : product s = ((hi - lo : Nat) : Int)) : Slice b.type s (b.span lo hi s) := by
  refine ⟨rfl, rfl, by rw [len_span b within, fits], fun c held => ?_⟩
  simp only [Buffer.span, Option.bind_eq_some_iff] at held
  obtain ⟨c', stored, kept⟩ := held
  split at kept
  · cases kept
  · cases kept
    rw [Cells.type_extract]
    exact typed c' stored

end Buffer

/-! ## Resampling the window is resampling the field -/

/-- The slice resampling at `t` reads off a whole field `F` of slices of `n` elements, each cut
under the shape `s`: for the linear mode the blend of the blocks at the two ends of the bracket of
`t`, for the others the block of the selected sample. -/
def resampledSlice (F : Buffer) (n : Int) (s : List Int) (tv : List Float) (mode : InterpMode)
    (t : Float) : Except Fault Buffer := do
  let (sel, br) ← Except.sampled (selectSample t tv mode)
  let times : SliceTimes := ⟨timeAt tv br.inf, timeAt tv br.sup⟩
  if mode = .linear then
    let lo ← F.block br.inf n s
    let hi ← F.block br.sup n s
    Except.sampled (interpolate F.type n (some lo) (some hi) times t mode)
  else
    let lo ← F.block sel n s
    Except.sampled (interpolate F.type n (some lo) none times t mode)

/-- What resampling has gathered: the slices `rs` one after another, counted. -/
structure Collected (t : DataType) (s : List Int) (rs : List Buffer) (acc : Nat × Buffer) : Prop where
  count : acc.1 = rs.length
  type : acc.2.type = t
  typed : acc.2.WellTyped
  elements : acc.2.elements = (rs.map Buffer.elements).flatten
  slices : ∀ x ∈ rs, Slice t s x

/-- A fold whose every step on an element of `l` adds one result to what it has gathered gathers
one result for each element, in order. -/
theorem foldlM_collect {α β γ ε : Type} {step : β → α → Except ε β} {P : α → γ → Prop}
    {I : List γ → β → Prop} :
    ∀ (l : List α), (∀ x ∈ l, ∀ gs b, I gs b → ∃ g b', P x g ∧ step b x = .ok b' ∧ I (gs ++ [g]) b') →
      ∀ gs b, I gs b → ∃ rs b', l.foldlM step b = .ok b' ∧ List.Forall₂ P l rs ∧ I (gs ++ rs) b'
  | [], _, gs, b, holds => ⟨[], b, rfl, .nil, by simpa using holds⟩
  | x :: rest, steps, gs, b, holds => by
    obtain ⟨g, mid, first, stepped, kept⟩ := steps x List.mem_cons_self gs b holds
    obtain ⟨rs, b', folded, related, gathered⟩ :=
      foldlM_collect rest (fun y mem => steps y (List.mem_cons_of_mem x mem)) _ _ kept
    refine ⟨g :: rs, b', ?_, .cons first related, by simpa using gathered⟩
    rw [List.foldlM_cons, stepped]
    exact folded

/-! ## The resampling loop -/

/-- The shape resampling gives each slice: the shape of the stored slices when the window is
stacked slices of `shape` elements, else `shape` alone. -/
def resampledSliceShape (data : Buffer) (shape : Int) : List Int :=
  if data.dim > 0 && data.sliceLen = shape then data.shape.dropLast else [shape]

/-- Block `index` of the stored samples, read from a window of them that starts at sample
`start`; a block that cannot be cut is reported as a failure to sample `index`. -/
def windowBlock (data : Buffer) (start : Nat) (shape : Int) (sliceShape : List Int) (index : Nat) :
    Except Fault Buffer :=
  match data.block ((index : Int) - start) shape sliceShape with
  | .ok b => .ok b
  | .error (.failure f) => Except.sampled (.error (.sample index f.message))
  | .error e => .error e

/-- One round of resampling: the slice at target `t`, blended from the blocks `block` gives,
appended to what was gathered. -/
def resampleStep (dt : DataType) (shape : Int) (tv : List Float) (mode : InterpMode)
    (block : Nat → Except Fault Buffer) (acc : Nat × Buffer) (t : Float) :
    Except Fault (Nat × Buffer) := do
  let (count, out) := acc
  let (sel, br) ← Except.sampled (selectSample t tv mode)
  let times : SliceTimes := ⟨timeAt tv br.inf, timeAt tv br.sup⟩
  let (lo, hi) ← if mode = .linear then do
      let lo ← block br.inf
      let hi ← block br.sup
      pure (lo, some hi)
    else do pure (← block sel, none)
  let res ← Except.sampled (interpolate dt shape (some lo) hi times t mode)
  let out ← Except.sampled ((out.appendData res).mapError fun f => .append f.message)
  pure (count + 1, out)

/-- Past its guards, resampling is a fold of `resampleStep` over the reached targets, reading
blocks from the window that starts at the sample selected for `tmin`. -/
theorem interpolateWithResampling_eq {tmin tmax : Float} {dtime : List Float} {dt : DataType}
    {shape : Int} {data : Buffer} {tv targets : List Float} {mode : InterpMode} {sel : Nat}
    {start : Bracket} (requested : dtime ≠ []) (nonzero : shape ≠ 0) (typed : data.type = dt)
    (targeted : targetTimes tmin tmax dtime = .ok targets)
    (selected : selectSample tmin tv mode = .ok (sel, start)) :
    interpolateWithResampling tmin tmax dtime dt shape data tv mode = (do
      let (count, out) ← (reachedTargets targets tv).foldlM (resampleStep dt shape tv mode
        (windowBlock data start.inf shape (resampledSliceShape data shape))) (0, { type := dt })
      pure (count, { out with shape := resampledSliceShape data shape ++ [(count : Int)] })) := by
  unfold interpolateWithResampling
  rw [if_neg (by simpa using requested), if_neg nonzero, if_neg (by simpa using typed)]
  simp only [targeted, selected, Except.mapError, bind, Except.bind]
  rfl

/-- A blend of slices of shape `s`, holding `n > 0` elements of type `dt`, answers such a slice:
the lower one, or the lower one blended toward the upper one, which the linear mode needs. -/
theorem interpolate_slice {dt : DataType} {s : List Int} {n : Int} (fits : Buffer.product s = n)
    (positive : 0 < n) {lo : Buffer} (lower : Slice dt s lo) {hi : Option Buffer} {mode : InterpMode}
    (upper : mode = .linear → ∃ b, hi = some b ∧ Slice dt s b) (times : SliceTimes) (t : Float) :
    ∃ r, interpolate dt n (some lo) hi times t mode = .ok r ∧ Slice dt s r := by
  suffices answers : ∃ r, interpolate dt n (some lo) hi times t mode = .ok r by
    obtain ⟨r, blended⟩ := answers
    obtain ⟨type, shape, len, keeps⟩ := Buffer.interpolate_lower blended
    exact ⟨r, blended, type.trans lower.type_eq, shape.trans lower.shape_eq,
      by rw [len, lower.len_eq], keeps lower.wellTyped⟩
  have holdsLower : ¬ (lo.type ≠ dt || (lo.len : Int) < n) = true := by
    simp [lower.type_eq, lower.len_eq, fits]
  unfold interpolate
  rw [if_neg positive.ne']
  dsimp only
  rw [if_neg holdsLower]
  by_cases linear : mode = .linear
  · obtain ⟨b, rfl, upperSlice⟩ := upper linear
    have holdsUpper : ¬ (b.type ≠ dt || (b.len : Int) < n) = true := by
      simp [upperSlice.type_eq, upperSlice.len_eq, fits]
    rw [if_neg (by simpa using linear)]
    dsimp only
    rw [if_neg holdsUpper]
    split
    · exact ⟨_, rfl⟩
    · split <;> exact ⟨_, rfl⟩
    · exact ⟨_, rfl⟩
  · rw [if_pos linear]
    exact ⟨lo, rfl⟩

/-- Appending one more slice to what resampling has gathered answers, and gathers it. -/
theorem Collected.append {t : DataType} {s : List Int} {rs : List Buffer} {acc : Nat × Buffer}
    (gathered : Collected t s rs acc) {r : Buffer} (slice : Slice t s r) :
    ∃ out, acc.2.appendData r = .ok out ∧ Collected t s (rs ++ [r]) (acc.1 + 1, out) := by
  obtain ⟨out, joined, elements, type, -, typed⟩ :=
    Buffer.appendData_of_type gathered.typed slice.wellTyped (by rw [slice.type_eq, gathered.type])
  refine ⟨out, joined, ⟨by simp [gathered.count], type.trans gathered.type, typed, ?_, ?_⟩⟩
  · simp [elements, gathered.elements]
  · intro x mem
    rcases List.mem_append.mp mem with old | new
    · exact gathered.slices x old
    · rw [List.mem_singleton.mp new]
      exact slice

/-- One round of resampling, when the blocks it reads at the two ends of the target's bracket
are the blocks of the field `F`: it gathers the slice `resampledSlice` reads off `F`. -/
theorem resampleStep_collect {F : Buffer} {n : Int} {s : List Int} (fits : Buffer.product s = n)
    (positive : 0 < n) {tv : List Float} {mode : InterpMode} {block : Nat → Except Fault Buffer}
    {t : Float} {sel : Nat} {br : Bracket} (selected : selectSample t tv mode = .ok (sel, br))
    (blocks : ∀ i, (i = br.inf ∨ i = br.sup) →
      block i = F.block i n s ∧ ∃ b, F.block i n s = .ok b ∧ Slice F.type s b)
    {rs : List Buffer} {acc : Nat × Buffer} (gathered : Collected F.type s rs acc) :
    ∃ r acc', resampledSlice F n s tv mode t = .ok r ∧
      resampleStep F.type n tv mode block acc t = .ok acc' ∧ Collected F.type s (rs ++ [r]) acc' := by
  obtain ⟨-, -, -, ends⟩ := selectSample_eq_ok selected
  obtain ⟨sameInf, lo, cutInf, sliceInf⟩ := blocks br.inf (.inl rfl)
  obtain ⟨sameSup, hi, cutSup, sliceSup⟩ := blocks br.sup (.inr rfl)
  let times : SliceTimes := ⟨timeAt tv br.inf, timeAt tv br.sup⟩
  by_cases linear : mode = .linear
  · -- the linear mode blends the blocks at both ends of the bracket
    obtain ⟨r, blended, slice⟩ :=
      interpolate_slice fits positive sliceInf (fun _ => ⟨hi, rfl, sliceSup⟩) times t
    obtain ⟨out, joined, collected⟩ := gathered.append slice
    refine ⟨r, (acc.1 + 1, out), ?_, ?_, collected⟩
    · simp only [resampledSlice, selected, Except.sampled, Except.mapError, bind, Except.bind,
        if_pos linear, cutInf, cutSup]
      simp only [times] at blended
      rw [blended]
    · simp only [resampleStep, selected, Except.sampled, Except.mapError, bind, Except.bind,
        if_pos linear, sameInf, sameSup, cutInf, cutSup, pure, Except.pure]
      simp only [times] at blended
      rw [blended]
      simp [joined]
  · -- the other modes keep the block of the selected sample
    obtain ⟨sameSel, b, cutSel, sliceSel⟩ := blocks sel ends
    obtain ⟨r, blended, slice⟩ :=
      @interpolate_slice F.type _ n fits positive b sliceSel none mode (fun l => absurd l linear) times t
    obtain ⟨out, joined, collected⟩ := gathered.append slice
    refine ⟨r, (acc.1 + 1, out), ?_, ?_, collected⟩
    · simp only [resampledSlice, selected, Except.sampled, Except.mapError, bind, Except.bind,
        if_neg linear, cutSel]
      simp only [times] at blended
      rw [blended]
    · simp only [resampleStep, selected, Except.sampled, Except.mapError, bind, Except.bind,
        if_neg linear, sameSel, cutSel, pure, Except.pure]
      simp only [times] at blended
      rw [blended]
      simp [joined]

theorem targetTimes_nil (tmin tmax : Float) : targetTimes tmin tmax [] = .ok [] := rfl

/-- With no reached target the window ends just before it starts. -/
theorem resamplingWindow_of_nothing_reached {tmin tmax : Float} {dtime tv targets : List Float}
    {mode : InterpMode} {first last : Int} (targeted : targetTimes tmin tmax dtime = .ok targets)
    (nothing : reachedTargets targets tv = [])
    (window : resamplingWindow tmin tmax dtime tv mode = .ok (first, last)) : last = first - 1 := by
  unfold resamplingWindow at window
  simp only [targeted, nothing, bind, Except.bind] at window
  cases selected : selectSample tmin tv mode with
  | error e => simp [selected] at window
  | ok r =>
    simp only [selected, List.foldlM_nil, pure, Except.pure, Except.ok.injEq, Prod.mk.injEq] at window
    omega

/-- A block inside a window cut from a well-typed field reads as the block of the field, a slice
of shape `s`. -/
theorem windowBlock_of_within {F data : Buffer} (typed : F.WellTyped) {start : Nat} {last n : Int}
    {S s : List Int} (positive : 0 < n) (fits : Buffer.product s = n)
    (cut : F.blocks start last n S = .ok data) {i : Nat} (lower : start ≤ i) (upper : (i : Int) ≤ last) :
    windowBlock data start n s i = F.block i n s ∧ ∃ b, F.block i n s = .ok b ∧ Slice F.type s b := by
  obtain ⟨inWindow, inField⟩ := Buffer.window_block typed positive cut (by omega) upper s
  obtain ⟨-, -, within, -, -⟩ := Buffer.blocks_eq_span typed positive cut
  -- the block's ends, as linear facts
  have next : ((i : Int) + 1) * n = i * n + n := by ring
  have below : ((i : Int) + 1) * n ≤ (last + 1) * n :=
    Int.mul_le_mul_of_nonneg_right (by omega) positive.le
  have lowerEnd : 0 ≤ (i : Int) * n := Int.mul_nonneg (by omega) positive.le
  unfold windowBlock
  rw [inWindow]
  refine ⟨inField.symm, _, inField, Buffer.span_slice typed (by omega) ?_⟩
  rw [fits]
  omega

end AccessLayer
