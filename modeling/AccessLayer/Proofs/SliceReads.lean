import Mathlib
import AccessLayer.Proofs.SliceAccumulation
import AccessLayer.Proofs.WireLaws
/-!
Slice reads at stored times. A field written slice by slice on the time base `time` stacks its
slices along a last dimension, and `time` stacks the times (`Stacked`, from the slice writes). A
read action at one of those times selects that time's sample: with Closest because the distance
of a float to itself is zero or not a number, so nothing is closer; with Previous because a stored
time is the first at or after itself and the times are further apart than the tolerance. The
block cut at that sample is the slice written there, exactly. A time-dependent array read the
same way shows the one element whose time it is.

With Linear the read blends the two slices of its bracket in floating point, `x + (y - x) * 1`
at the later end: that need not be `y`, and `linear_slice_read_misses_stored_slice` gives a case.

The lemmas on floats read the order through the unpacked model of binary64 that `Float` is
defined by.
-/

open Float.Model

namespace AccessLayer

/-! ## Comparing floats -/

theorem UnpackedFloat.compare_self : ∀ u : UnpackedFloat, u ≠ .notANumber → u.compare u = some .eq
  | .infinity s, _ => by cases s <;> rfl
  | .notANumber, unordered => absurd rfl unordered
  | .zero s, _ => by cases s <;> rfl
  | .finite s m e _, _ => by cases s <;> simp [UnpackedFloat.compare]

theorem UnpackedFloat.compare_swap (a b : UnpackedFloat) :
    b.compare a = (a.compare b).map Ordering.swap := by
  rcases a with s | _ | s | ⟨s, m, e, h⟩ <;> rcases b with t | _ | t | ⟨t, n, f, k⟩ <;>
    (try cases s) <;> (try cases t) <;>
    simp [UnpackedFloat.compare, Ordering.swap_then, Int.compare_swap, Nat.compare_swap] <;> rfl

theorem Float.lt_iff_compare (x y : Float) :
    x < y ↔ x.toModel.unpack.compare y.toModel.unpack = some .lt := by
  show x.lt y = true ↔ _
  simp [Float.lt, LT.lt, Float.Model.lt, UnpackedFloat.lt]

theorem Float.le_iff_compare (x y : Float) :
    x ≤ y ↔ (x.toModel.unpack.compare y.toModel.unpack).any (·.isLE) = true := by
  show decide (x.toModel ≤ y.toModel) = true ↔ _
  rw [decide_eq_true_iff]
  rfl

theorem Float.beq_eq_compare (x y : Float) :
    (x == y) = (x.toModel.unpack.compare y.toModel.unpack == some .eq) := by
  show x.beq y = _
  simp [Float.beq, BEq.beq, Float.Model.beq, UnpackedFloat.beq]

theorem unpackSign_packComponents (s : UnpackedFloat.Sign)
    (e : BitVec Format.binary64.exponentBits) (m : BitVec Format.binary64.mantissaBitsWithoutImplicit) :
    @UnpackedFloat.unpackSign Format.binary64 (UnpackedFloat.packComponents Format.binary64 s e m) =
      s.toBitVec := by
  apply BitVec.eq_of_toNat_eq
  rw [toNat_unpackSign]
  simp only [UnpackedFloat.packComponents, toNat_append_eq]
  have exponentBound := e.isLt
  have mantissaBound := m.isLt
  have signBound := s.toBitVec.isLt
  simp only [Format.binary64] at exponentBound mantissaBound
  omega

/-- Clearing the sign packs a float whose sign bit is clear. -/
theorem pack_abs_positive (w : UnpackedFloat) :
    ∃ e m, UnpackedFloat.pack Format.binary64 w.abs =
      UnpackedFloat.packComponents Format.binary64 .positive e m := by
  cases w with
  | notANumber => exact ⟨_, _, rfl⟩
  | infinity s => exact ⟨_, _, rfl⟩
  | zero s => exact ⟨_, _, rfl⟩
  | finite s m e h =>
    simp only [UnpackedFloat.abs, UnpackedFloat.pack]
    split
    · exact ⟨_, _, rfl⟩
    · split
      · exact ⟨_, _, rfl⟩
      · exact ⟨_, _, rfl⟩

/-- A pattern whose sign bit is clear never compares below a zero. -/
theorem compare_zero_of_positive {b : BitVec 64}
    (positive : @UnpackedFloat.unpackSign Format.binary64 b = UnpackedFloat.Sign.positive.toBitVec)
    (s : UnpackedFloat.Sign) :
    (UnpackedFloat.unpack Format.binary64 b).compare (.zero s) ≠ some .lt := by
  have clear : UnpackedFloat.Sign.ofBitVec UnpackedFloat.Sign.positive.toBitVec = .positive := rfl
  unfold UnpackedFloat.unpack
  simp only [positive, clear]
  split_ifs <;> simp [UnpackedFloat.compare]

/-- Subtracting a value from itself cancels exactly, or gives not a number. -/
theorem UnpackedFloat.sub_self (u : UnpackedFloat) :
    UnpackedFloat.sub Format.binary64 u u = .zero .positive ∨
      UnpackedFloat.sub Format.binary64 u u = .notANumber := by
  cases u with
  | notANumber => exact .inr rfl
  | infinity s => cases s <;> exact .inr rfl
  | zero s => cases s <;> exact .inl rfl
  | finite s m e h =>
    left
    simp only [UnpackedFloat.sub, Int.sub_self, UnpackedFloat.normalize]
    rfl

/-- The distance of a float to itself is a positive zero, or not a number. -/
theorem Float.unpack_abs_sub_self (t : Float) :
    (t - t).abs.toModel.unpack = .zero .positive ∨ (t - t).abs.toModel.unpack = .notANumber := by
  have difference : (t - t).toModel =
      Float.Model.pack (UnpackedFloat.sub Format.binary64 t.toModel.unpack t.toModel.unpack) := rfl
  have distance : (t - t).abs.toModel.unpack = (Float.Model.pack (t - t).toModel.unpack.abs).unpack :=
    rfl
  rw [distance, difference]
  rcases UnpackedFloat.sub_self t.toModel.unpack with zero | nan
  · left
    rw [zero]
    rfl
  · right
    rw [nan]
    rfl

/-- No absolute value lies below the distance of a float to itself. -/
theorem Float.not_abs_lt_sub_self (y t : Float) : ¬ (y.abs < (t - t).abs) := by
  rw [Float.lt_iff_compare]
  obtain ⟨e, m, packed⟩ := pack_abs_positive y.toModel.unpack
  have magnitude : y.abs.toModel.unpack =
      UnpackedFloat.unpack Format.binary64 (UnpackedFloat.pack Format.binary64 y.toModel.unpack.abs) := by
    simp [Float.abs, Float.Model.abs, Float.Model.pack, Float.Model.unpack]
  have positive : @UnpackedFloat.unpackSign Format.binary64
      (UnpackedFloat.pack Format.binary64 y.toModel.unpack.abs) = UnpackedFloat.Sign.positive.toBitVec := by
    rw [packed, unpackSign_packComponents]
  rcases Float.unpack_abs_sub_self t with zero | nan
  · rw [zero, magnitude]
    exact compare_zero_of_positive positive .positive
  · rw [nan]
    cases y.abs.toModel.unpack <;> simp [UnpackedFloat.compare]

theorem Float.unpack_ne_nan {x : Float} (notNaN : x.isNaN = false) :
    x.toModel.unpack ≠ .notANumber := by
  intro nan
  have : x.isNaN = true := by
    show x.toModel.unpack.isNaN = true
    rw [nan]
    rfl
  rw [this] at notNaN
  cases notNaN

theorem Float.le_self {x : Float} (notNaN : x.isNaN = false) : x ≤ x := by
  rw [Float.le_iff_compare, UnpackedFloat.compare_self _ (Float.unpack_ne_nan notNaN)]
  rfl

theorem Float.beq_self {x : Float} (notNaN : x.isNaN = false) : (x == x) = true := by
  rw [Float.beq_eq_compare, UnpackedFloat.compare_self _ (Float.unpack_ne_nan notNaN)]
  rfl

theorem Float.not_le_of_lt {x y : Float} (lt : x < y) : ¬ y ≤ x := by
  rw [Float.lt_iff_compare] at lt
  rw [Float.le_iff_compare, UnpackedFloat.compare_swap, lt]
  decide

theorem Float.not_lt_of_lt {x y : Float} (lt : x < y) : ¬ y < x := by
  rw [Float.lt_iff_compare] at lt
  rw [Float.lt_iff_compare, UnpackedFloat.compare_swap, lt]
  decide

theorem Float.beq_of_lt {x y : Float} (lt : x < y) : (x == y) = false := by
  rw [Float.lt_iff_compare] at lt
  rw [Float.beq_eq_compare, lt]
  rfl

/-! ## Selecting the sample at a stored time -/

/-- Stored times as slice writes leave them: ascending, none of them not a number, and
consecutive ones further apart than the time tolerance. -/
structure StoredTimes (tv : List Float) : Prop where
  ascending : tv.Pairwise (· < ·)
  numbers : ∀ x ∈ tv, x.isNaN = false
  apart : ∀ i (h : i + 1 < tv.length), timeTolerance < (tv[i] - tv[i + 1]).abs

/-- A stored time is the first at or after itself. -/
theorem StoredTimes.firstAtOrAfter {tv : List Float} (times : StoredTimes tv) {j : Nat}
    (within : j < tv.length) : firstAtOrAfter tv[j] tv = some j := by
  unfold AccessLayer.firstAtOrAfter
  rw [List.findIdx?_eq_some_iff_getElem]
  refine ⟨within, ?_, fun i before => ?_⟩
  · simpa using Float.le_self (times.numbers _ (List.getElem_mem within))
  · have earlier : tv[i] < tv[j] := List.pairwise_iff_getElem.mp times.ascending i j _ within before
    simpa using Float.not_le_of_lt earlier

theorem timeAt_of_lt {tv : List Float} {i : Nat} (within : i < tv.length) : timeAt tv i = tv[i] := by
  simp [timeAt, List.getD_eq_getElem?_getD, within]

/-- Closest reads at a stored time select that time's sample. -/
theorem StoredTimes.selectSample_closest {tv : List Float} (times : StoredTimes tv) {j : Nat}
    (within : j < tv.length) : selectSample tv[j] tv .closest = .ok (j, ⟨j - 1, j⟩) := by
  have valid : InterpMode.closest.valid = true := by decide
  have nonempty : tv.isEmpty = false := List.isEmpty_eq_false_iff.mpr (List.ne_nil_of_length_pos (by omega))
  have bracket : bracketOf tv[j] tv .closest = ⟨j - 1, j⟩ := by
    simp [bracketOf, times.firstAtOrAfter within]
  unfold AccessLayer.selectSample
  simp only [valid, nonempty, Bool.not_true, Bool.false_eq_true, if_false]
  simp only [show InterpMode.closest ≠ .undefined by decide, if_false, if_true, bracket,
    timeAt_of_lt within, if_neg (Float.not_abs_lt_sub_self _ _)]

/-- Previous reads at a stored time select that time's sample: a later sample is taken only at
or after its time, and the first sample's time lies before the second's, further than the
tolerance. -/
theorem StoredTimes.selectSample_previous {tv : List Float} (times : StoredTimes tv) {j : Nat}
    (within : j < tv.length) : ∃ br, selectSample tv[j] tv .previous = .ok (j, br) := by
  have valid : InterpMode.previous.valid = true := by decide
  have nonempty : tv.isEmpty = false := List.isEmpty_eq_false_iff.mpr (List.ne_nil_of_length_pos (by omega))
  unfold AccessLayer.selectSample
  simp only [valid, nonempty, Bool.not_true, Bool.false_eq_true, if_false]
  simp only [show InterpMode.previous ≠ .undefined by decide, show InterpMode.previous ≠ .closest by decide,
    if_false, if_true]
  by_cases first : j = 0 ∧ 1 < tv.length
  · -- the bracket moves up to the second sample, which lies later than the tolerance
    obtain ⟨rfl, more⟩ := first
    have bracket : bracketOf tv[0] tv .previous = ⟨0, 1⟩ := by
      simp [bracketOf, times.firstAtOrAfter within, more,
        show InterpMode.previous ≠ .closest by decide]
    have earlier : tv[0] < tv[1] := List.pairwise_iff_getElem.mp times.ascending 0 1 _ more (by omega)
    have far : ¬ (tv[0] - tv[1]).abs ≤ timeTolerance := Float.not_le_of_lt (times.apart 0 more)
    refine ⟨⟨0, 1⟩, ?_⟩
    simp [bracket, timeAt_of_lt more, closeTo, Float.beq_of_lt earlier, far, Float.not_lt_of_lt earlier]
  · -- the bracket ends at the requested time itself
    have bracket : bracketOf tv[j] tv .previous = ⟨j - 1, j⟩ := by
      simp only [bracketOf, times.firstAtOrAfter within]
      simp only [not_and] at first
      by_cases zero : j = 0
      · simp [zero, first zero, show InterpMode.previous ≠ .closest by decide]
      · simp [zero]
    have same : closeTo tv[j] tv[j] timeTolerance = true := by
      simp [closeTo, Float.beq_self (times.numbers _ (List.getElem_mem within))]
    refine ⟨⟨j - 1, j⟩, ?_⟩
    by_cases zero : j = 0
    · subst zero
      simp [bracket]
    · simp [bracket, timeAt_of_lt within, same, zero]

/-- A Closest or Previous read at a stored time selects that time's sample. -/
theorem StoredTimes.selectSample {tv : List Float} (times : StoredTimes tv) {j : Nat}
    (within : j < tv.length) {mode : InterpMode} (picks : mode = .closest ∨ mode = .previous) :
    ∃ br, selectSample tv[j] tv mode = .ok (j, br) := by
  rcases picks with rfl | rfl
  · exact ⟨_, times.selectSample_closest within⟩
  · exact times.selectSample_previous within

/-! ## Cutting one slice out of stacked slices -/

theorem Cells.elements_extract (c : Cells) (lo hi : Nat) :
    (c.extract lo hi).elements = (c.elements.drop lo).take (hi - lo) := by
  cases c <;> simp [Cells.extract, Cells.elements, List.map_take, List.map_drop]

theorem Buffer.elements_span (b : Buffer) (lo hi : Nat) (shape : List Int) :
    (b.span lo hi shape).elements = (b.elements.drop lo).take (hi - lo) := by
  unfold Buffer.span Buffer.elements
  cases held : b.cells with
  | none => simp
  | some c =>
    by_cases empty : (c.extract lo hi).length = 0
    · have none : (c.extract lo hi).elements = [] :=
        List.eq_nil_of_length_eq_zero (by rw [Cells.length_elements]; exact empty)
      simp [empty, ← Cells.elements_extract, none]
    · simp [empty, Cells.elements_extract]

/-- Chunks of one length `n`, flattened: dropping `j` chunks and keeping `n` elements gives chunk
`j`. -/
theorem take_drop_flatten {α : Type} {n : Nat} :
    ∀ {chunks : List (List α)}, (∀ c ∈ chunks, c.length = n) → ∀ {j : Nat} (within : j < chunks.length),
      (chunks.flatten.drop (j * n)).take n = chunks[j]
  | [], _, _, within => absurd within (by simp)
  | c :: rest, sized, j, within => by
    have first : c.length = n := sized c List.mem_cons_self
    cases j with
    | zero => simp [List.take_left' first]
    | succ i =>
      have later := take_drop_flatten (fun d mem => sized d (List.mem_cons_of_mem c mem))
        (j := i) (by simpa using within)
      rw [List.flatten_cons, Nat.succ_mul, Nat.add_comm, ← List.drop_drop, List.drop_left' first]
      simpa using later

/-- Block `j` of a field stacking slices is slice `j`: its type, the slice shape and its
elements. -/
theorem Stacked.block {t : DataType} {s : List Int} {bs : List Buffer} {d : Buffer}
    (stacked : Stacked t s bs d) (slices : ∀ x ∈ bs, Slice t s x) {j : Nat} (within : j < bs.length) :
    ∃ b', d.block j (Buffer.product s) s = .ok b' ∧ b'.type = t ∧ b'.shape = s ∧
      b'.elements = bs[j].elements := by
  have slice := slices _ (List.getElem_mem within)
  -- the slice length is a natural number `n`; block `j` spans elements `j * n` to `(j + 1) * n`
  obtain ⟨n, sliceLen⟩ : ∃ n : Nat, Buffer.product s = n :=
    ⟨(Buffer.product s).toNat, (Int.toNat_of_nonneg (by have := slice.len_eq; omega)).symm⟩
  have len : d.len = bs.length * n := by
    have := stacked.len slices
    rw [sliceLen] at this
    exact_mod_cast this
  have fits : (j + 1) * n ≤ d.len := by
    rw [len]
    exact Nat.mul_le_mul_right n within
  have start : ((j : Int) * n).toNat = j * n := by norm_cast
  have finish : (((j : Int) + 1) * n).toNat = (j + 1) * n := by norm_cast
  rw [sliceLen]
  unfold Buffer.block Buffer.checkedSpan
  rw [if_neg (by simp; exact_mod_cast fits)]
  by_cases valid : d.type.valid = true
  · rw [if_pos valid, if_neg (by simp; exact ⟨⟨by positivity, by nlinarith⟩, by exact_mod_cast fits⟩)]
    refine ⟨_, rfl, stacked.type_eq, rfl, ?_⟩
    have sized : ∀ c ∈ bs.map Buffer.elements, c.length = n := by
      intro c mem
      obtain ⟨x, held, rfl⟩ := List.mem_map.mp mem
      have := (slices x held).len_eq
      rw [sliceLen] at this
      simp only [Buffer.length_elements]
      exact_mod_cast this
    rw [Buffer.elements_span, start, finish, Nat.succ_mul, Nat.add_sub_cancel_left,
      stacked.elements_eq, take_drop_flatten sized (by simpa using within), List.getElem_map]
  · have invalid : d.type.valid = false := by simpa using valid
    rw [if_neg valid]
    have empty := slice.wellTyped.elements_of_invalid
      (by rw [slice.type_eq, ← stacked.type_eq]; exact invalid)
    exact ⟨_, rfl, stacked.type_eq, rfl, by rw [empty]; rfl⟩

theorem Buffer.elements_zeros (t : DataType) (shape : List Int) (empty : Buffer.product shape = 0) :
    (Buffer.zeros t shape).elements = [] := by
  simp only [Buffer.zeros, empty, Int.toNat_zero, Buffer.elements, Cells.zeros]
  split_ifs <;> simp [Cells.elements]

/-- A Closest or Previous slice read of stacked slices at the time of slice `j` gives slice `j`
exactly: its type, the slice shape and its elements. -/
theorem sliceOf_stored {op : Operation} {t : DataType} {s : List Int} {bs : List Buffer}
    {d : Buffer} {tv : List Float} (stacked : Stacked t s bs d) (slices : ∀ x ∈ bs, Slice t s x)
    (times : StoredTimes tv) (count : tv.length = bs.length) {j : Nat} (within : j < bs.length)
    (atTime : op.time = tv[j]) (picks : op.interp = .closest ∨ op.interp = .previous) :
    ∃ b', MemoryBackend.sliceOf op d tv = .ok b' ∧ b'.type = t ∧ b'.shape = s ∧
      b'.elements = bs[j].elements := by
  have shape : d.shape.dropLast = s := by simp [stacked.shape_eq]
  unfold MemoryBackend.sliceOf
  rw [stacked.sliceLen, shape]
  by_cases empty : Buffer.product s = 0
  · -- slices of no element read as a zeroed slice, which has none either
    have none : bs[j].elements = [] := by
      have := (slices _ (List.getElem_mem within)).len_eq
      rw [empty] at this
      exact List.eq_nil_of_length_eq_zero (by simp; omega)
    refine ⟨Buffer.zeros d.type s, by simp [empty]; rfl, stacked.type_eq, rfl, ?_⟩
    rw [none, Buffer.elements_zeros _ _ empty]
  · obtain ⟨br, selected⟩ := times.selectSample (j := j) (by omega) picks
    obtain ⟨b', cut, type, sliceShape, elements⟩ := stacked.block slices within
    have notLinear : op.interp ≠ .linear := by rcases picks with picked | picked <;> rw [picked] <;> decide
    refine ⟨b', ?_, type, sliceShape, elements⟩
    simp [empty, atTime, selected, Except.sampled, notLinear, Except.mapError, bind, Except.bind, cut]

/-! ## Reading a slice at a stored time -/

/-- A well-typed buffer of doubles holding some elements stores exactly those doubles. -/
theorem Buffer.cells_of_doubles {d : Buffer} {xs : List Float} (typed : d.WellTyped)
    (double : d.type = .double) (elements : d.elements = xs.map Cell.double) (nonempty : xs ≠ []) :
    d.cells = some (.doubles xs) := by
  cases held : d.cells with
  | none =>
    rw [Buffer.elements_of_none held] at elements
    exact absurd (List.map_eq_nil_iff.mp elements.symm) nonempty
  | some c =>
    have sameType := typed c held
    rw [double] at sameType
    cases c with
    | doubles v =>
      rw [Buffer.elements_of_cells held] at elements
      have same : v = xs := List.map_injective_iff.mpr (fun _ _ h => Cell.double.inj h) elements
      rw [same]
    | chars v => cases sameType
    | ints v => cases sameType
    | complex v => cases sameType

/-- The stored times of a time base that stacks scalar times are those times. -/
theorem Stacked.cells_times {tv : List Float} {d : Buffer}
    (stacked : Stacked .double [] (tv.map Buffer.scalarDouble) d) (nonempty : tv ≠ []) :
    d.cells = some (.doubles tv) := by
  refine Buffer.cells_of_doubles stacked.wellTyped stacked.type_eq ?_ nonempty
  rw [stacked.elements_eq, List.map_map]
  simp only [Function.comp_def, Buffer.elements, Buffer.scalarDouble, Cells.elements,
    Option.map_some, Option.getD_some, List.map_cons, List.map_nil]
  conv_rhs => rw [List.map_eq_flatMap, List.flatMap_def]

/-- A field read through a plain view is a copy of the field. -/
theorem Action.readLeaf_primary {tree : Tree} {field : String} {l : Leaf} (blending : Bool)
    (held : tree.leaf? field = some l) :
    Action.readLeaf { primary := tree } field blending = .ok (some l.data.copy) := by
  simp [Action.readLeaf, held]

/-- A relative time base that holds a vector of doubles gives its times. -/
theorem Action.timebaseVector_relative (a : Action) {holder : Tree} {tb : String} {l : Leaf}
    {tv : List Float} (relative : tb.startsWith "/" = false) (held : holder.leaf? tb = some l)
    (type : l.data.type = .double) (dim : l.data.dim ≤ 1) (cells : l.data.cells = some (.doubles tv)) :
    a.timebaseVector holder tb = .ok (some tv) := by
  simp [Action.timebaseVector, relative, held, type, cells]
  omega

/-- A slice read through the operation of a field on the relative time base `time` cuts the
slice at the operation's time out of a copy of the field, against the stored times, and changes
nothing. -/
theorem readData_slice_run {b : MemoryBackend} {st : Store} {op : Operation} {key : Nat}
    {a : Action} {field : String} {lt lf : Leaf} {tv : List Float}
    (found : b.actionOf (.operation op) = .ok (key, a)) (slice : a.op.range = .slice)
    (interpolating : b.interpolation = true) (timeHeld : a.tree.leaf? "time" = some lt)
    (timeType : lt.data.type = .double) (timeDim : lt.data.dim ≤ 1)
    (timeCells : lt.data.cells = some (.doubles tv)) (nonempty : tv ≠ [])
    (fieldHeld : a.tree.leaf? field = some lf) (sliced : lf.data.dim ≠ 0)
    (count : lf.data.shape.getLastD 0 = tv.length) :
    (MemoryBackend.readData (.operation op) field "time").run (b, st) =
      match MemoryBackend.sliceOf a.op lf.data.copy tv with
      | .ok x => .ok (some x) (b, st)
      | .error e => .error e (b, st) := by
  have viewed : a.view (.operation op) = .ok { primary := a.tree } := rfl
  have timesRead := a.timebaseVector_relative (by simp) timeHeld timeType timeDim timeCells
  have copied : lf.data.copy.dim ≠ 0 := sliced
  rw [List.getLastD_eq_getLast?] at count
  unfold MemoryBackend.readData
  simp only [EStateM.run_bind, EStateM.run_get, run_toCall, found, viewed,
    Action.readLeaf_primary b.interpolation fieldHeld]
  simp [slice, copied, Context.insideTimed, timesRead, count, interpolating, nonempty,
    show RangeMode.slice ≠ .global by decide]
  cases MemoryBackend.sliceOf a.op lf.data.copy tv <;> rfl

/-! ## Slice writes of a field with its times -/

theorem Tree.leaf?_setLeaf_ne (t : Tree) {p q : String} (l : Leaf) (other : q ≠ p) :
    (t.setLeaf p l).leaf? q = t.leaf? q := by
  simp [Tree.setLeaf, Tree.set, Tree.leaf?, Tree.find?, Tree.fields, Keyed.lookup_insert, other]

theorem restack_plain (bs : List Buffer) (b : Buffer) : restack bs false b = bs ++ [b] := by
  simp [restack]

/-- The calls of a slice write action that stores its time as a scalar in the field `time` and a
slice of `field` on that time base. -/
def MemoryOp.timedSliceWrite (op : Operation) (field : String) (time : Float) (data : Buffer) :
    List MemoryOp :=
  [.beginAction op, .writeData (.operation op) "time" "time" (Buffer.scalarDouble time),
    .writeData (.operation op) field "time" data, .endAction (.operation op)]

/-- One plain slice write action storing its time and a slice of `field`, on a committed object
whose fields hold the times `ts` and the slices `bs`: every call answers and both fields gain the
new slice. -/
theorem timedSliceWrite_run {t : DataType} {s : List Int} {ts bs : List Buffer} {b : MemoryBackend}
    {st : Store} {op : Operation} {field : String} {time : Float} {data : Buffer}
    (wf : st.WF) (opened : b.entry ≠ "") (present : st.contains b.entry = true)
    (slice : op.range = .slice) (plain : op.access = .write) (apart : field ≠ "time")
    (timesHeld : FieldSlices .double [] "time" ts (st.get? b.entry op.name))
    (timeSlices : ∀ x ∈ ts, Slice .double [] x)
    (held : FieldSlices t s field bs (st.get? b.entry op.name)) (slices : ∀ x ∈ bs, Slice t s x)
    (fresh : Slice t s data) :
    ∃ st', (MemoryOp.performAll (MemoryOp.timedSliceWrite op field time data)).run (b, st) =
        .ok () (b.dropAction op.uid, st') ∧ st'.WF ∧ st'.contains b.entry = true ∧
      FieldSlices .double [] "time" (ts ++ [Buffer.scalarDouble time]) (st'.get? b.entry op.name) ∧
      FieldSlices t s field (bs ++ [data]) (st'.get? b.entry op.name) ∧
      ∀ e n, ¬(e = b.entry ∧ n = op.name) → st'.get? e n = st.get? e n := by
  -- the action begins on a copy of the object, appends the time, then the slice, and commits
  let start : Action :=
    { op, tree := ((st.get? b.entry op.name).map Tree.copy).getD Tree.empty, write := true }
  have writes : op.access ≠ .read := by rw [plain]; decide
  have once : decide (op.access = .replace) = false := by rw [plain]; decide
  have begun := MemoryBackend.beginAction_sliceWrite_run st opened slice writes
  obtain ⟨lt, timeAppended, -, timeStacked⟩ := appendSlice_restack timesHeld.seen timeSlices
    (slice_scalarDouble time) "time" "time" (op.access = .replace)
  obtain ⟨lf, appended, -, stacked⟩ :=
    appendSlice_restack held.seen slices fresh field "time" (op.access = .replace)
  let timed : Action := { start with tree := start.tree.setLeaf "time" lt }
  let staged : Action := { timed with tree := timed.tree.setLeaf field lf }
  have timeWritten : (MemoryBackend.writeData (.operation op) "time" "time"
      (Buffer.scalarDouble time)).run (b.setAction op.uid start, st) =
      .ok () ((b.setAction op.uid start).setAction op.uid timed, st) := by
    rw [MemoryBackend.writeData_run, MemoryBackend.actionOf_setAction]
    simp only [start, if_true]
    rw [Action.writeLeaf_sliceOperation _ _ _ _ _ slice (by decide)]
    simp only [timeAppended]
    rfl
  have written : (MemoryBackend.writeData (.operation op) field "time" data).run
      (b.setAction op.uid timed, st) = .ok () ((b.setAction op.uid timed).setAction op.uid staged, st) := by
    rw [MemoryBackend.writeData_run, MemoryBackend.actionOf_setAction]
    simp only [timed, start, if_true]
    rw [Action.writeLeaf_sliceOperation _ _ _ _ _ slice (by decide), Tree.leaf?_setLeaf_ne _ _ apart]
    simp only [appended]
    rfl
  obtain ⟨st', ended, wf', present', committed⟩ :=
    endAction_commit_ok (b.setAction op.uid start) op staged wf present rfl
  have object : st'.get? b.entry op.name = some staged.tree := by
    rw [committed, if_pos ⟨rfl, rfl⟩]
    simp [staged]
  refine ⟨st', ?_, wf', present', ?_, ?_, fun e n other => (committed e n).trans (if_neg other)⟩
  · simp only [start, timed, staged, setAction_setAction, dropAction_setAction]
      at timeWritten written ended
    simp only [MemoryOp.timedSliceWrite, MemoryOp.performAll_cons_run, MemoryOp.perform, begun,
      timeWritten, written, ended]
    rfl
  · rw [once, restack_plain] at timeStacked
    refine FieldSlices.of_leaf (by simp) ?_ timeStacked
    rw [object]
    simp [staged, timed, Tree.leaf?_setLeaf_ne _ _ (Ne.symm apart)]
  · rw [once, restack_plain] at stacked
    refine FieldSlices.of_leaf (by simp) ?_ stacked
    rw [object]
    simp [staged]

/-- Plain slice write actions one after another, each storing its time and a slice of `field`:
every call answers, and the two fields then hold, after what they held, the times and the slices
written. -/
theorem timedSliceWrites_run {t : DataType} {s : List Int} {name field : String}
    (writes : List (Operation × Float × Buffer))
    (each : ∀ w ∈ writes, w.1.name = name ∧ w.1.range = .slice ∧ w.1.access = .write ∧
      Slice t s w.2.2)
    (apart : field ≠ "time") :
    ∀ {ts bs : List Buffer} {b : MemoryBackend} {st : Store}, st.WF → b.entry ≠ "" →
      st.contains b.entry = true →
      FieldSlices .double [] "time" ts (st.get? b.entry name) → (∀ x ∈ ts, Slice .double [] x) →
      FieldSlices t s field bs (st.get? b.entry name) → (∀ x ∈ bs, Slice t s x) →
    ∃ b' st', (MemoryOp.performAll (writes.flatMap fun w =>
        MemoryOp.timedSliceWrite w.1 field w.2.1 w.2.2)).run (b, st) = .ok () (b', st') ∧
      b'.entry = b.entry ∧ b'.interpolation = b.interpolation ∧
      FieldSlices .double [] "time" (ts ++ writes.map fun w => Buffer.scalarDouble w.2.1)
        (st'.get? b.entry name) ∧
      FieldSlices t s field (bs ++ writes.map fun w => w.2.2) (st'.get? b.entry name) := by
  -- induction on the actions; the invariant is what the two fields hold in the committed object
  induction writes with
  | nil =>
    intro ts bs b st _ _ _ timesHeld _ held _
    exact ⟨b, st, rfl, rfl, rfl, by simpa using timesHeld, by simpa using held⟩
  | cons w rest ih =>
    intro ts bs b st wf opened present timesHeld timeSlices held slices
    obtain ⟨named, slice, plain, fresh⟩ := each w List.mem_cons_self
    subst named
    obtain ⟨st₁, ran, wf₁, present₁, timesHeld₁, held₁, -⟩ := timedSliceWrite_run wf opened present
      slice plain apart timesHeld timeSlices held slices fresh
    have timeSlices₁ : ∀ x ∈ ts ++ [Buffer.scalarDouble w.2.1], Slice .double [] x := by
      intro x mem
      rcases List.mem_append.mp mem with kept | added
      · exact timeSlices x kept
      · rw [List.mem_singleton.mp added]
        exact slice_scalarDouble _
    have slices₁ : ∀ x ∈ bs ++ [w.2.2], Slice t s x := by
      intro x mem
      rcases List.mem_append.mp mem with kept | added
      · exact slices x kept
      · rw [List.mem_singleton.mp added]
        exact fresh
    obtain ⟨b', st', ran', entry', interpolation', timesHeld', held'⟩ :=
      ih (fun v mem => each v (List.mem_cons_of_mem w mem)) (b := b.dropAction w.1.uid) wf₁ opened
        present₁ timesHeld₁ timeSlices₁ held₁ slices₁
    refine ⟨b', st', ?_, entry', interpolation', by simpa using timesHeld', by simpa using held'⟩
    rw [List.flatMap_cons, MemoryOp.performAll_append ran]
    exact ran'

/-- A read action begins on the committed object itself, or on an empty tree when there is none. -/
theorem beginAction_read_run {op : Operation} {b : MemoryBackend} (st : Store)
    (opened : b.entry ≠ "") (reads : op.access = .read) :
    (MemoryBackend.beginAction op).run (b, st) =
      .ok () (b.setAction op.uid
        { op, tree := (st.get? b.entry op.name).getD Tree.empty, write := false }, st) := by
  unfold MemoryBackend.beginAction
  simp only [EStateM.run_bind, EStateM.run_get]
  cases st.get? b.entry op.name <;> simp [opened, reads]

theorem Tree.leaf?_getD {obj : Option Tree} {p : String} {l : Leaf}
    (found : obj.bind (·.leaf? p) = some l) : (obj.getD Tree.empty).leaf? p = some l := by
  cases obj with
  | none => cases found
  | some tree => exact found

/-! ## Slice reads of time-dependent arrays -/

/-- The elements of an array seen through a plain view are plain views of its elements. -/
theorem Action.elementViews_primary {tree : Tree} {path : String} {arr : StructArray}
    (found : tree.array? path = some arr) :
    Action.elementViews { primary := tree } path =
      (some arr, arr.elements.map fun e => { primary := e.getD Tree.empty }) := by
  simp only [Action.elementViews, found, Option.bind_none]
  -- no secondary structure: every element gets the plain view, whatever its index
  exact congrArg _ (List.ext_getElem (by simp) fun i _ _ => by simp)

/-- Each element gives one time. -/
theorem Action.length_elementTimes {leaf : String} :
    ∀ {i : Nat} {es : List (Option Tree)} {tv : List Float},
      Action.elementTimes leaf i es = .ok tv → tv.length = es.length
  | _, [], _, timed => by
    cases timed
    rfl
  | i, e :: rest, tv, timed => by
    unfold Action.elementTimes at timed
    split at timed
    · split at timed
      · cases later : Action.elementTimes leaf (i + 1) rest with
        | error f =>
          rw [later] at timed
          cases timed
        | ok tv' =>
          rw [later] at timed
          cases timed
          simp [length_elementTimes later]
      · cases timed
    · cases timed

/-- A slice read with Closest or Previous at the time of element `j` picks element `j`. -/
theorem MemoryBackend.pick_stored {op : Operation} {arr : StructArray} {tv : List Float}
    (times : StoredTimes tv) {j : Nat} (within : j < tv.length) (atTime : op.time = tv[j])
    (picks : op.interp = .closest ∨ op.interp = .previous) :
    MemoryBackend.pick op arr tv op.time =
      .ok { primary := ((arr.elements[j]?).getD none).getD Tree.empty } := by
  obtain ⟨br, selected⟩ := times.selectSample within picks
  have exact : op.interp ≠ .linear := by rcases picks with same | same <;> rw [same] <;> decide
  unfold MemoryBackend.pick
  simp [atTime, selected, exact, Except.sampled, Except.mapError, bind, Except.bind, pure,
    Except.pure]

/-- The read action after a slice read opened the time-dependent array `c`: its one view is the
element picked. -/
def timedReadStage (op : Operation) (tree : Tree) (c : ArrayContext) (element : Tree) : Action :=
  { op, tree, write := false, arrays := [(c.uid, { context := c, views := [{ primary := element }] })] }

/-- A slice read opening a time-dependent array under its operation, at the time stored in element
`j` of the array, with Closest or Previous: the array shows one element, element `j`. -/
theorem beginArray_timedRead_run {b : MemoryBackend} {st : Store} {op : Operation} {tree : Tree}
    {c : ArrayContext} {tb : String} {stored : List (Option Tree)} {tv : List Float} (size : Int)
    (own : c.op = op) (top : c.ancestors = []) (slice : op.range = .slice)
    (interpolating : b.interpolation = true) (relative : c.timebase.startsWith "/" = false)
    (timed : c.timebase ≠ "") (found : tree.array? c.path = some (.mk tb stored))
    (timesOf : Action.elementTimes ((c.timebase.splitOn ")/").getLastD c.timebase) 0 stored = .ok tv)
    (times : StoredTimes tv) {j : Nat} (within : j < tv.length) (atTime : op.time = tv[j])
    (picks : op.interp = .closest ∨ op.interp = .previous) :
    (MemoryBackend.beginArray c size).run (b.setAction op.uid { op, tree, write := false }, st) =
      .ok 1 (b.setAction op.uid
        (timedReadStage op tree c (((stored[j]?).getD none).getD Tree.empty)), st) := by
  have parent : c.parentContext = .operation op := by
    simp [ArrayContext.parentContext, ArrayContext.parent?, top, own]
  have timedContext : c.timed = true := by
    simp only [ArrayContext.timebase] at timed
    simp [ArrayContext.timed, ArrayLevel.timed, timed]
  have count := Action.length_elementTimes timesOf
  have nonempty : stored ≠ [] := List.ne_nil_of_length_pos (by omega)
  have timesNonempty : tv ≠ [] := List.ne_nil_of_length_pos (by omega)
  have picked : MemoryBackend.pick op (.mk tb stored) tv op.time =
      .ok { primary := ((stored[j]?).getD none).getD Tree.empty } :=
    MemoryBackend.pick_stored times within atTime picks
  have whole : tv.take stored.length = tv := by rw [← count, List.take_length]
  have viewed : ({ op, tree, write := false } : Action).view (.operation op) = .ok { primary := tree } :=
    rfl
  have installed : (b.setAction op.uid { op, tree, write := false }).interpolation = true :=
    interpolating
  have notGlobal : RangeMode.slice ≠ .global := by decide
  rw [List.getLastD_eq_getLast?] at timesOf
  unfold MemoryBackend.beginArray
  simp only [EStateM.run_bind, EStateM.run_get, actionOf_setAction_array b op own, run_toCall]
  simp [parent, slice, notGlobal, timedContext, Context.insideTimed, MemoryBackend.beginTimedRead,
    viewed, Action.elementViews_primary found, nonempty, Action.arrayTimes, relative, timesOf,
    whole, MemoryBackend.timedViews, installed, picked, Action.register, StructArray.elements,
    timesNonempty, setAction_setAction, timedReadStage]

/-- Reading through the array's context at its first position reads the picked element: a copy
of each field it holds, and nothing for a field it lacks, whatever the time base. -/
theorem readData_timedElement {b : MemoryBackend} {st : Store} {op : Operation} {tree element : Tree}
    {c : ArrayContext} (own : c.op = op) (start : c.index = 0) (timed : c.timed = true)
    (p tb : String) :
    (MemoryBackend.readData (.array c) p tb).run
        (b.setAction op.uid (timedReadStage op tree c element), st) =
      .ok ((element.leaf? p).map fun l => l.data.copy)
        (b.setAction op.uid (timedReadStage op tree c element), st) := by
  have viewed : (timedReadStage op tree c element).view (.array c) = .ok { primary := element } := by
    simp [Action.view, Action.arrayOf, timedReadStage, start, bind, Except.bind]
    rfl
  have inside : (Context.array c).insideTimed = true := by
    simp [Context.insideTimed, ArrayContext.insideTimed, timed]
  unfold MemoryBackend.readData
  simp only [EStateM.run_bind, EStateM.run_get, actionOf_setAction_array b op own, run_toCall,
    viewed]
  cases held : element.leaf? p with
  | none => simp [Action.readLeaf, held]
  | some l => simp [Action.readLeaf_primary _ held, inside]

/-! ## Reads at stored times -/

/-- Plain slice write actions, each storing its time in `time` and a slice of `field`, on an object
holding neither, then a slice read action on the object: every call answers, and a read of either
field cuts the slice at the read's time out of what the writes stacked there. -/
theorem timedSliceWrites_read_run {t : DataType} {s : List Int} {b : MemoryBackend} {st : Store}
    {name field : String} (wf : st.WF) (opened : b.entry ≠ "")
    (present : st.contains b.entry = true) (interpolating : b.interpolation = true)
    (apart : field ≠ "time") (noTimes : (st.get? b.entry name).bind (·.find? "time") = none)
    (absent : (st.get? b.entry name).bind (·.find? field) = none)
    (writes : List (Operation × Float × Buffer)) (nonempty : writes ≠ [])
    (plain : ∀ w ∈ writes, w.1.name = name ∧ w.1.range = .slice ∧ w.1.access = .write ∧
      Slice t s w.2.2)
    (read : Operation) (reading : read.name = name ∧ read.range = .slice ∧ read.access = .read) :
    ∃ (b' : MemoryBackend) (st' : Store) (lt lf : Leaf), (MemoryOp.performAll ((writes.flatMap fun w =>
        MemoryOp.timedSliceWrite w.1 field w.2.1 w.2.2) ++ [.beginAction read])).run (b, st) =
        .ok () (b', st') ∧
      Stacked .double [] ((writes.map fun w => w.2.1).map Buffer.scalarDouble) lt.data ∧
      Stacked t s (writes.map fun w => w.2.2) lf.data ∧
      (MemoryBackend.readData (.operation read) "time" "time").run (b', st') =
        (match MemoryBackend.sliceOf read lt.data.copy (writes.map fun w => w.2.1) with
        | .ok x => .ok (some x) (b', st')
        | .error e => .error e (b', st')) ∧
      (MemoryBackend.readData (.operation read) field "time").run (b', st') =
        (match MemoryBackend.sliceOf read lf.data.copy (writes.map fun w => w.2.1) with
        | .ok x => .ok (some x) (b', st')
        | .error e => .error e (b', st')) := by
  obtain ⟨named, slice, reads⟩ := reading
  have noSlices : FieldSlices t s field [] (st.get? b.entry name) := absent
  have noTimeSlices : FieldSlices .double [] "time" [] (st.get? b.entry name) := noTimes
  obtain ⟨b₁, st₁, ran, entry₁, interpolation₁, timesHeld, held⟩ :=
    timedSliceWrites_run writes plain apart wf opened present noTimeSlices (fun _ mem => nomatch mem)
      noSlices (fun _ mem => nomatch mem)
  rw [List.nil_append] at timesHeld held
  obtain ⟨lt, timeFound, timesStacked⟩ := timesHeld.leaf (by simpa using nonempty)
  obtain ⟨lf, fieldFound, stacked⟩ := held.leaf (by simpa using nonempty)
  -- the read action begins on the committed object
  let a : Action := { op := read, tree := (st₁.get? b.entry name).getD Tree.empty, write := false }
  have begun : (MemoryBackend.beginAction read).run (b₁, st₁) = .ok () (b₁.setAction read.uid a, st₁) := by
    rw [beginAction_read_run st₁ (entry₁ ▸ opened) reads, entry₁, named]
  have found := MemoryBackend.actionOf_setAction b₁ read a
  have installed : (b₁.setAction read.uid a).interpolation = true := interpolation₁.trans interpolating
  have tv : (writes.map fun w => w.2.1).map Buffer.scalarDouble =
      writes.map fun w => Buffer.scalarDouble w.2.1 := by simp
  rw [← tv] at timesStacked
  have timeHeld : a.tree.leaf? "time" = some lt := Tree.leaf?_getD timeFound
  have times : (writes.map fun w => w.2.1) ≠ [] := by simpa using nonempty
  have timeCells := timesStacked.cells_times times
  have timeDim : lt.data.dim = 1 := by simp [timesStacked.dim]
  refine ⟨b₁.setAction read.uid a, st₁, lt, lf, ?_, timesStacked, stacked, ?_, ?_⟩
  · rw [MemoryOp.performAll_append ran, MemoryOp.performAll_cons_run]
    simp only [MemoryOp.perform, begun]
    rfl
  · exact readData_slice_run found slice installed timeHeld timesStacked.type_eq timeDim.le
      timeCells times timeHeld (by omega) (by simp [timesStacked.shape_eq])
  · exact readData_slice_run found slice installed timeHeld timesStacked.type_eq timeDim.le
      timeCells times (Tree.leaf?_getD fieldFound) (by simp [stacked.dim])
      (by simp [stacked.shape_eq])

theorem slice_ofDoubles (x : Float) : Slice .double [1] (Buffer.ofDoubles [x]) :=
  ⟨rfl, rfl, rfl, fun _ held => by cases held; rfl⟩

end AccessLayer
