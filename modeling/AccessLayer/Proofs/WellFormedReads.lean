import Mathlib
import AccessLayer.Proofs.SliceReads
import AccessLayer.Proofs.ResampledCounts
import AccessLayer.Proofs.FailedBackendCalls
import AccessLayer.Proofs.FailedCalls
/-!
Well-formed buffers along every read path. A buffer is well formed when its type is one of the
four element types, storage of another type holds nothing, and it holds as many elements as the
product of its dimensions, one for a scalar (`Buffer.WellFormed`). A read cuts blocks out of a
stored buffer, gathers windows of blocks, blends two slices, resamples a window slice by slice
and converts what it found to the requested type; each of these keeps a buffer well formed, and
none of them indexes outside its buffer, as long as no dimension of the stored buffer is
negative (`Buffer.Readable`).

Main statement: `Session.read_answers_wellFormed`. When every leaf the backends of a session
keep, at any depth of a staged tree, of an array collected apart or of a view of an open array,
is readable, a read of `dim ≥ 0` dimensions of type `dt` either reports a failure or answers a
well-formed buffer of type `dt` in exactly `dim` dimensions; it never halts.

Well-formed leaves are not enough: two dimensions of `-1` make a well-formed buffer of one
element whose slices have `-1` elements, and a slice read of it halts
(`Session.negative_dimensions_halt_slice_read`).
-/

namespace AccessLayer

/-! ## Outcomes that never halt -/

/-- A fault that is a reported failure, not a halt. -/
def Fault.Reported : Fault → Prop
  | .failure _ => True
  | .halt _ => False

/-- A computation that gives a result of which `P` holds, or fails with a reported failure: it
never halts. -/
def Settles {α : Type} (P : α → Prop) : Except Fault α → Prop
  | .ok a => P a
  | .error e => e.Reported

/-- A call that answers a result of which `P` holds, or fails with a reported failure. -/
def RunSettles {σ α : Type} (P : α → Prop) : EStateM.Result Fault σ α → Prop
  | .ok a _ => P a
  | .error e _ => e.Reported

namespace Settles

variable {α β : Type} {P : α → Prop} {Q : β → Prop}

theorem bind {r : Except Fault α} {f : α → Except Fault β} (first : Settles P r)
    (rest : ∀ a, r = .ok a → P a → Settles Q (f a)) : Settles Q (r >>= f) := by
  cases r with
  | ok a => exact rest a rfl first
  | error e => exact first

theorem mono {r : Except Fault α} {P' : α → Prop} (settles : Settles P r)
    (weaker : ∀ a, P a → P' a) : Settles P' r := by
  cases r with
  | ok a => exact weaker a settles
  | error e => exact settles

/-- A computation that fails only with reported failures never halts. -/
theorem faulting {r : Except Failure α} (holds : ∀ a, r = .ok a → P a) :
    Settles P (Except.faulting r) := by
  cases r with
  | error f => trivial
  | ok a => exact holds a rfl

/-- A sampling computation only fails with reported failures. -/
theorem sampled (r : Except SamplingError α) : Settles (fun a => r = .ok a) (Except.sampled r) := by
  cases r <;> trivial

/-- A reported block failure stays reported, and a halt is passed on as it is. -/
theorem asBackend {r : Except Fault α} (settles : Settles P r) :
    Settles P (r.mapError Fault.asBackend) := by
  cases r with
  | ok a => exact settles
  | error e =>
    cases e with
    | failure f => trivial
    | halt reason => exact settles

/-- An invariant of a fold: kept by every step that succeeds, it holds of the result, and the
fold halts only where a step does. -/
theorem foldlM {γ : Type} {step : β → γ → Except Fault β} {I : β → Prop}
    (keeps : ∀ acc x, I acc → Settles I (step acc x)) :
    ∀ (xs : List γ) (init : β), I init → Settles I (xs.foldlM step init) := by
  intro xs
  induction xs with
  | nil => intro init holds; exact holds
  | cons x rest ih =>
    intro init holds
    rw [List.foldlM_cons]
    exact (keeps init x holds).bind fun mid _ kept => ih mid kept

end Settles

namespace RunSettles

variable {σ α β : Type} {P : α → Prop} {Q : β → Prop} {s : σ}

theorem bind {m : EStateM Fault σ α} {f : α → EStateM Fault σ β} (first : RunSettles P (m.run s))
    (rest : ∀ a t, m.run s = .ok a t → P a → RunSettles Q ((f a).run t)) :
    RunSettles Q ((m >>= f).run s) := by
  rw [EStateM.run_bind]
  cases ran : m.run s with
  | ok a t =>
    rw [ran] at first
    exact rest a t ran first
  | error e t =>
    rw [ran] at first
    exact first

theorem get_bind {f : σ → EStateM Fault σ β} (rest : RunSettles Q ((f s).run s)) :
    RunSettles Q ((get >>= f).run s) := rest

theorem pure {a : α} (holds : P a) : RunSettles P ((Pure.pure a : EStateM Fault σ α).run s) :=
  holds

theorem raise (f : Failure) : RunSettles P ((Failure.raise f : EStateM Fault σ α).run s) := trivial

theorem modify (f : σ → σ) : RunSettles (fun _ => True) ((modify f : EStateM Fault σ PUnit).run s) :=
  trivial

theorem raise_bind (f : Failure) (g : α → EStateM Fault σ β) :
    RunSettles Q ((Failure.raise f >>= g).run s) := trivial

/-- A computation that never halts, run as a step. -/
theorem toStep {r : Except Fault α} (settles : Settles P r) :
    RunSettles P ((Except.toStep r : EStateM Fault σ α).run s) := by
  cases r <;> exact settles

/-- A computation that fails only with reported failures, run as a step, gives on to the rest
what it found. -/
theorem toCall_bind {r : Except Failure α} {g : α → EStateM Fault σ β}
    (rest : ∀ a, r = .ok a → RunSettles Q ((g a).run s)) :
    RunSettles Q ((Except.toCall r >>= g).run s) := by
  cases r with
  | error f => trivial
  | ok a => exact rest a rfl

theorem toStep_bind {r : Except Fault α} {g : α → EStateM Fault σ β} (first : Settles P r)
    (rest : ∀ a, r = .ok a → P a → RunSettles Q ((g a).run s)) :
    RunSettles Q ((Except.toStep r >>= g).run s) := by
  cases r with
  | error e => exact first
  | ok a => exact rest a rfl first

end RunSettles

/-! ## Well-formed buffers -/

/-- A valid type is one of the four element types. -/
theorem DataType.eq_of_valid {t : DataType} (valid : t.valid = true) :
    t = .char ∨ t = .integer ∨ t = .double ∨ t = .complex := by
  obtain ⟨code⟩ := t
  have bounds : 0 ≤ code ∧ code ≤ 3 := by simpa [DataType.valid] using valid
  rcases (by omega : code = 0 ∨ code = 1 ∨ code = 2 ∨ code = 3) with rfl | rfl | rfl | rfl <;>
    simp [DataType.char, DataType.integer, DataType.double, DataType.complex]

theorem length_mixPrefix {α : Type} (f : α → α → α) (n : Nat) (xs ys : List α) :
    (mixPrefix f n xs ys).length = xs.length := by
  fun_induction mixPrefix f n xs ys <;> simp [*]

theorem length_blendChars (n : Nat) (a b : List UInt8) : (blendChars n a b).length = a.length := by
  unfold blendChars
  split_ifs
  · rfl
  · simp only [List.length_append, List.length_replicate, List.length_drop]
    omega

namespace Cells

@[simp] theorem type_extract (c : Cells) (lo hi : Nat) : (c.extract lo hi).type = c.type := by
  cases c <;> rfl

theorem length_extract (c : Cells) (lo hi : Nat) :
    (c.extract lo hi).length = min (hi - lo) (c.length - lo) := by
  cases c <;> simp [extract, length]

theorem length_blendCells (n : Nat) (f : Float) (a b : Cells) :
    (blendCells n f a b).length = a.length := by
  cases a <;> cases b <;> simp [blendCells, length, length_mixPrefix]

theorem type_blendCells (n : Nat) (f : Float) (a b : Cells) : (blendCells n f a b).type = a.type := by
  cases a <;> cases b <;> rfl

end Cells

namespace Buffer

/-- A buffer whose storage fills its shape: one of the four element types, storage of another
type only when it holds nothing, and as many elements as the product of the dimensions (one for a
scalar). -/
structure WellFormed (b : Buffer) : Prop where
  valid : b.type.valid = true
  ofType : ∀ c, b.cells = some c → c.length ≠ 0 → c.type = b.type
  count : (b.len : Int) = product b.shape

/-- A well-formed buffer with no negative dimension: the buffers every read can cut. -/
structure Readable (b : Buffer) : Prop extends b.WellFormed where
  sized : ∀ d ∈ b.shape, 0 ≤ d

theorem product_eq_prod (s : List Int) : product s = s.prod := by
  simp [product, List.prod_eq_foldl]

theorem product_nonneg {s : List Int} (sized : ∀ d ∈ s, 0 ≤ d) : 0 ≤ product s := by
  rw [product_eq_prod]
  exact List.prod_nonneg sized

/-- Slices of a buffer without negative dimensions have a length of at least zero. -/
theorem Readable.sliceLen_nonneg {b : Buffer} (rd : b.Readable) : 0 ≤ b.sliceLen :=
  product_nonneg fun d mem => rd.sized d (List.mem_of_mem_dropLast mem)

theorem WellTyped.wellFormed {b : Buffer} (typed : b.WellTyped) (valid : b.type.valid = true)
    (count : (b.len : Int) = product b.shape) : b.WellFormed :=
  ⟨valid, fun c held _ => typed c held, count⟩

@[simp] theorem len_copy (b : Buffer) : b.copy.len = b.len := by
  rw [← length_elements, elements_copy, length_elements]

/-- A copy of a well-formed buffer is well formed and keeps storage only of its own type. -/
theorem WellFormed.copy {b : Buffer} (wf : b.WellFormed) : b.copy.WellFormed ∧ b.copy.WellTyped := by
  have typed : b.copy.WellTyped := by
    intro c held
    simp only [Buffer.copy, Option.bind_eq_some_iff] at held
    obtain ⟨c', stored, kept⟩ := held
    split at kept
    · cases kept
    · rename_i nonempty
      cases kept
      exact wf.ofType _ stored nonempty
  exact ⟨typed.wellFormed wf.valid (by rw [len_copy]; exact wf.count), typed⟩

theorem Readable.copy {b : Buffer} (rd : b.Readable) : b.copy.Readable :=
  ⟨rd.toWellFormed.copy.1, rd.sized⟩

theorem wellFormed_ofDoubles (xs : List Float) : (ofDoubles xs).WellFormed :=
  ⟨(by decide : DataType.double.valid = true), fun c held _ => by cases held; rfl, by simp [ofDoubles, len, Cells.length, product]⟩

theorem wellFormed_ofBytes (v : List UInt8) : (ofBytes v).WellFormed :=
  ⟨(by decide : DataType.char.valid = true), fun c held _ => by cases held; rfl, by simp [ofBytes, len, Cells.length, product]⟩

theorem wellFormed_scalarDouble (x : Float) : (scalarDouble x).WellFormed :=
  ⟨(by decide : DataType.double.valid = true), fun c held _ => by cases held; rfl, by simp [scalarDouble, len, Cells.length, product]⟩

/-- Zeros of a valid type fill any shape whose product is not negative. -/
theorem wellFormed_zeros {t : DataType} (valid : t.valid = true) {shape : List Int}
    (nonneg : 0 ≤ product shape) : (zeros t shape).WellFormed ∧ (zeros t shape).WellTyped := by
  have filled : ((zeros t shape).len : Int) = product shape ∧ (zeros t shape).WellTyped := by
    rcases DataType.eq_of_valid valid with rfl | rfl | rfl | rfl <;>
      simp [zeros, Cells.zeros, len, Cells.length, WellTyped, Cells.type, DataType.char,
        DataType.integer, DataType.double, DataType.complex, nonneg]
  exact ⟨filled.2.wellFormed valid filled.1, filled.2⟩

/-! ## Cutting blocks -/

/-- The elements `lo` to `hi` of a well-formed buffer, inside its storage and under a shape of
`hi - lo` elements, make a well-formed buffer of its type with storage of that type. -/
theorem WellFormed.span {b : Buffer} (wf : b.WellFormed) {lo hi : Nat} (ordered : lo ≤ hi)
    (within : hi ≤ b.len) {shape : List Int} (fits : product shape = ((hi - lo : Nat) : Int)) :
    (b.span lo hi shape).WellFormed ∧ (b.span lo hi shape).WellTyped ∧
      (b.span lo hi shape).type = b.type ∧ (b.span lo hi shape).len = hi - lo := by
  have len : (b.span lo hi shape).len = hi - lo := by
    rw [← length_elements, elements_span, List.length_take, List.length_drop, length_elements]
    omega
  have typed : (b.span lo hi shape).WellTyped := by
    intro c held
    simp only [Buffer.span, Option.bind_eq_some_iff] at held
    obtain ⟨c', stored, kept⟩ := held
    split at kept
    · cases kept
    · rename_i nonempty
      cases kept
      rw [Cells.type_extract]
      refine wf.ofType c' stored ?_
      rw [Cells.length_extract] at nonempty
      omega
  exact ⟨typed.wellFormed wf.valid (by rw [len]; exact fits.symm), typed, rfl, len⟩

/-- A checked sub-range inside a well-formed buffer is cut, and is well formed. -/
theorem WellFormed.checkedSpan {b : Buffer} (wf : b.WellFormed) {lo hi : Int} (nonneg : 0 ≤ lo)
    (ordered : lo ≤ hi) (within : hi ≤ b.len) {shape : List Int} (fits : product shape = hi - lo) :
    ∃ out, b.checkedSpan lo hi shape = .ok out ∧ out.WellFormed ∧ out.WellTyped ∧
      out.type = b.type ∧ (out.len : Int) = hi - lo := by
  obtain ⟨l, rfl⟩ : ∃ l : Nat, lo = l := ⟨lo.toNat, by omega⟩
  obtain ⟨h, rfl⟩ : ∃ h : Nat, hi = h := ⟨hi.toNat, by omega⟩
  obtain ⟨wfOut, typed, type, len⟩ := wf.span (show l ≤ h by omega) (show h ≤ b.len by omega)
    (show product shape = ((h - l : Nat) : Int) by omega)
  refine ⟨_, ?_, wfOut, typed, type, by rw [len]; omega⟩
  unfold Buffer.checkedSpan
  rw [if_pos wf.valid, if_neg (by simp only [Bool.or_eq_true, decide_eq_true_eq]; omega)]
  rfl

/-- Block `first` of `n ≥ 0` elements of a well-formed buffer, under a shape of `n` elements: a
reported failure when the block leaves the buffer, else a well-formed block of `n` elements of
the buffer's type. -/
theorem WellFormed.block {b : Buffer} (wf : b.WellFormed) {n : Int} (nonneg : 0 ≤ n) (first : Int)
    {shape : List Int} (fits : product shape = n) :
    Settles (fun out => out.WellFormed ∧ out.WellTyped ∧ out.type = b.type ∧ (out.len : Int) = n)
      (b.block first n shape) := by
  unfold Buffer.block
  split_ifs with outside
  · trivial
  · simp only [Bool.or_eq_true, decide_eq_true_eq, not_or, not_lt] at outside
    obtain ⟨start, inside⟩ := outside
    have lower : 0 ≤ first * n := Int.mul_nonneg start nonneg
    have next : (first + 1) * n = first * n + n := by ring
    obtain ⟨out, cut, wfOut, typed, type, len⟩ :=
      wf.checkedSpan lower (by omega) inside (show product shape = (first + 1) * n - first * n by omega)
    rw [cut]
    exact ⟨wfOut, typed, type, by rw [len]; omega⟩

/-- Blocks `first` to `last` of `n ≥ 0` elements of a well-formed buffer, under a shape of as many
elements: a reported failure when they leave the buffer, else a well-formed buffer of them. -/
theorem WellFormed.blocks {b : Buffer} (wf : b.WellFormed) {n : Int} (nonneg : 0 ≤ n)
    (first last : Int) {shape : List Int} (fits : product shape = (last - first + 1) * n) :
    Settles (fun out => out.WellFormed ∧ out.WellTyped ∧ out.type = b.type ∧
      (out.len : Int) = (last - first + 1) * n) (b.blocks first last n shape) := by
  unfold Buffer.blocks
  split_ifs with outside
  · trivial
  · simp only [Bool.or_eq_true, decide_eq_true_eq, not_or, not_lt] at outside
    obtain ⟨⟨start, ordered⟩, inside⟩ := outside
    have lower : 0 ≤ first * n := Int.mul_nonneg start nonneg
    have upper : first * n ≤ (last + 1) * n := Int.mul_le_mul_of_nonneg_right (by omega) nonneg
    have spanned : (last + 1) * n - first * n = (last - first + 1) * n := by ring
    obtain ⟨out, cut, wfOut, typed, type, len⟩ :=
      wf.checkedSpan lower upper inside (show product shape = (last + 1) * n - first * n by omega)
    rw [cut]
    exact ⟨wfOut, typed, type, by rw [len]; omega⟩

/-! ## Blending two slices -/

/-- A blend answers the lower slice, or the lower slice with its storage blended elementwise:
the same type, shape and number of elements, and storage of the same type. -/
theorem interpolate_lower {dt : DataType} {n : Int} {lo : Buffer} {hi : Option Buffer}
    {times : SliceTimes} {t : Float} {mode : InterpMode} {r : Buffer}
    (blended : interpolate dt n (some lo) hi times t mode = .ok r) :
    r.type = lo.type ∧ r.shape = lo.shape ∧ r.len = lo.len ∧ (lo.WellTyped → r.WellTyped) := by
  -- the two blends keep the length and the type of the lower slice's storage
  have charsBlended : ∀ {a : List UInt8} (b : List UInt8), lo.cells = some (.chars a) →
      let r : Buffer := { lo with cells := some (.chars (blendChars n.toNat a b)) }
      r.type = lo.type ∧ r.shape = lo.shape ∧ r.len = lo.len ∧ (lo.WellTyped → r.WellTyped) := by
    intro a b held
    refine ⟨rfl, rfl, by simp [len, held, Cells.length, length_blendChars], ?_⟩
    intro typed c stored
    cases stored
    have lower := typed _ held
    exact lower
  have cellsBlended : ∀ {a : Cells} (b : Cells) (f : Float), lo.cells = some a →
      let r : Buffer := { lo with cells := some (blendCells n.toNat f a b) }
      r.type = lo.type ∧ r.shape = lo.shape ∧ r.len = lo.len ∧ (lo.WellTyped → r.WellTyped) := by
    intro a b f held
    refine ⟨rfl, rfl, by simp [len, held, Cells.length_blendCells], ?_⟩
    intro typed c stored
    cases stored
    rw [Cells.type_blendCells]
    exact typed _ held
  unfold interpolate at blended
  dsimp only at blended
  split_ifs at blended
  · cases blended
    exact ⟨rfl, rfl, rfl, id⟩
  · -- linear, with a blend factor of zero: only characters change
    split at blended
    · cases blended
    · split_ifs at blended
      split at blended
      · cases blended
        exact charsBlended _ (by assumption)
      · cases blended
        exact ⟨rfl, rfl, rfl, id⟩
      · cases blended
        exact ⟨rfl, rfl, rfl, id⟩
  · split at blended
    · cases blended
    · split_ifs at blended
      split at blended
      · cases blended
        exact charsBlended _ (by assumption)
      · cases blended
        exact cellsBlended _ _ (by assumption)
      · cases blended
        exact ⟨rfl, rfl, rfl, id⟩

/-- A blend of a well-formed, well-typed lower slice is well formed and well typed. -/
theorem WellFormed.interpolate {dt : DataType} {n : Int} {lo : Buffer} (wf : lo.WellFormed)
    (typed : lo.WellTyped) {hi : Option Buffer} {times : SliceTimes} {t : Float} {mode : InterpMode}
    {r : Buffer} (blended : AccessLayer.interpolate dt n (some lo) hi times t mode = .ok r) :
    r.WellFormed ∧ r.WellTyped ∧ r.type = lo.type ∧ r.len = lo.len := by
  obtain ⟨type, shape, len, keeps⟩ := interpolate_lower blended
  exact ⟨(keeps typed).wellFormed (by rw [type]; exact wf.valid) (by rw [len, shape]; exact wf.count),
    keeps typed, type, len⟩

/-! ## Resampling a window -/

/-- What resampling has gathered: `acc.1` slices of `n` elements of type `dt`, one after another,
with storage of that type. -/
structure Gathered (dt : DataType) (n : Int) (acc : Nat × Buffer) : Prop where
  type : acc.2.type = dt
  typed : acc.2.WellTyped
  len : (acc.2.len : Int) = acc.1 * n

/-- One resampling step: the blend of a well-formed slice of `n` elements, appended to what was
gathered, gathers one slice more. -/
theorem Gathered.append {dt : DataType} {n : Int} {count : Nat} {out lo : Buffer}
    (gathered : Gathered dt n (count, out)) (wf : lo.WellFormed) (typed : lo.WellTyped)
    (type : lo.type = dt) (len : (lo.len : Int) = n) (hi : Option Buffer) (times : SliceTimes)
    (t : Float) (mode : InterpMode) :
    Settles (Gathered dt n)
      (Except.sampled (interpolate dt n (some lo) hi times t mode) >>= fun res =>
        Except.sampled (Except.mapError (fun f => SamplingError.append f.message)
          (out.appendData res)) >>= fun out' => pure (count + 1, out')) := by
  refine (Settles.sampled _).bind fun res _ blended => ?_
  obtain ⟨-, typedRes, typeRes, lenRes⟩ := wf.interpolate typed blended
  obtain ⟨out', joined, elements, typeOut, -, typedOut⟩ :=
    appendData_of_type gathered.typed typedRes (by rw [typeRes, type, gathered.type])
  refine (Settles.sampled _).bind fun joinedOut _ ran => ?_
  simp only [joined, Except.mapError] at ran
  cases ran
  refine ⟨typeOut.trans gathered.type, typedOut, ?_⟩
  have counted := congrArg List.length elements
  simp only [List.length_append, length_elements] at counted
  have before := gathered.len
  simp only at before ⊢
  push_cast [counted, before, lenRes, len]
  ring

/-- Resampling a well-formed window of slices of `n > 0` elements reports a failure or answers a
well-formed buffer: the gathered slices under the slice shape and their count. -/
theorem WellFormed.interpolateWithResampling {data : Buffer} (wf : data.WellFormed) {n : Int}
    (positive : 0 < n) (tmin tmax : Float) (dtime : List Float) (dt : DataType) (tv : List Float)
    (mode : InterpMode) :
    Settles (fun r => r.2.WellFormed)
      (AccessLayer.interpolateWithResampling tmin tmax dtime dt n data tv mode) := by
  unfold AccessLayer.interpolateWithResampling
  by_cases noStep : dtime.isEmpty = true
  · rw [if_pos noStep]; trivial
  rw [if_neg noStep, if_neg (by omega : ¬n = 0)]
  by_cases mismatch : data.type ≠ dt
  · rw [if_pos mismatch]; trivial
  rw [if_neg mismatch]
  have sameType : data.type = dt := not_not.mp mismatch
  dsimp only
  -- slices are cut under a shape whose product is the slice length
  generalize sliced : (if (decide (data.dim > 0) && decide (data.sliceLen = n)) = true
    then data.shape.dropLast else [n]) = sliceShape
  have fits : product sliceShape = n := by
    rw [← sliced]
    split_ifs with whole
    · simp only [Bool.and_eq_true, decide_eq_true_eq] at whole
      exact whole.2
    · simp [product]
  -- a block that fails is reported as a failure to sample its target
  have cut : ∀ i (r : Except Fault Buffer), data.block i n sliceShape = r →
      Settles (fun lo => lo.WellFormed ∧ lo.WellTyped ∧ lo.type = data.type ∧ (lo.len : Int) = n) r :=
    fun i r cutAt => cutAt ▸ wf.block positive.le i fits
  refine (Settles.sampled _).bind fun targets _ _ => ?_
  refine (Settles.sampled _).bind fun selected _ _ => ?_
  -- the fold gathers one well-formed slice of `n` elements per reached target
  refine (Settles.foldlM (I := Gathered dt n) ?_ _ _ ?_).bind ?_
  · rintro ⟨count, out⟩ t gathered
    refine (Settles.sampled _).bind ?_
    rintro ⟨sel, br⟩ - -
    split
    · refine Settles.bind (P := fun lo => lo.WellFormed ∧ lo.WellTyped ∧ lo.type = data.type ∧
        (lo.len : Int) = n) ?_ ?_
      · split
        · exact cut _ _ (by assumption)
        · trivial
        · exact cut _ _ (by assumption)
      rintro lo - ⟨wfLo, typedLo, typeLo, lenLo⟩
      refine Settles.bind (P := fun _ => True) ?_ fun hi _ _ => ?_
      · split
        · trivial
        · trivial
        · exact (cut _ _ (by assumption)).mono fun _ _ => trivial
      rw [pure_bind]
      exact gathered.append wfLo typedLo (typeLo.trans sameType) lenLo _ _ _ _
    · refine Settles.bind (P := fun lo => lo.WellFormed ∧ lo.WellTyped ∧ lo.type = data.type ∧
        (lo.len : Int) = n) ?_ ?_
      · split
        · exact cut _ _ (by assumption)
        · trivial
        · exact cut _ _ (by assumption)
      rintro lo - ⟨wfLo, typedLo, typeLo, lenLo⟩
      rw [pure_bind]
      exact gathered.append wfLo typedLo (typeLo.trans sameType) lenLo _ _ _ _
  · exact ⟨rfl, fun c held => (by cases held), by simp [len]⟩
  · rintro ⟨count, out⟩ - gathered
    refine ⟨by rw [gathered.type, ← sameType]; exact wf.valid, fun c held _ => gathered.typed c held, ?_⟩
    show (out.len : Int) = product (sliceShape ++ [(count : Int)])
    rw [product_append_single, fits, gathered.len]
    ring

/-! ## Converting to the requested type -/

/-- What a read of missing data gives: a well-formed buffer of the requested type, in the
requested number of dimensions. -/
theorem unset_wellFormed {dt : DataType} {dim : Int} (nonneg : 0 ≤ dim) {out : Buffer}
    (answered : unset dt dim = .ok out) : out.WellFormed ∧ out.type = dt ∧ (out.dim : Int) = dim := by
  unfold unset at answered
  by_cases valid : dt.valid = true
  · rw [if_neg (by simp [valid])] at answered
    by_cases positive : dim > 0
    · rw [if_pos positive] at answered
      cases answered
      have empty : product (List.replicate dim.toNat 0) = 0 := by
        rw [product_eq_prod, List.prod_replicate, zero_pow (by omega)]
      exact ⟨(wellFormed_zeros valid (by rw [empty])).1, rfl, by simp [zeros, Buffer.dim]; omega⟩
    · rw [if_neg positive] at answered
      cases answered
      -- a scalar holding the "no value" marker of the type
      refine ⟨⟨valid, fun c held _ => ?_, ?_⟩, rfl, by simp [Buffer.dim]; omega⟩
      · cases held
        rcases DataType.eq_of_valid valid with rfl | rfl | rfl | rfl <;>
          simp [Cells.type, DataType.char, DataType.integer, DataType.double, DataType.complex]
      · rcases DataType.eq_of_valid valid with rfl | rfl | rfl | rfl <;>
          simp [len, product, Cells.length, DataType.char, DataType.integer, DataType.double,
            DataType.complex]
  · rw [if_pos (by simpa using valid)] at answered
    cases answered

/-- The real values of a well-formed buffer not of complex numbers are as many as its elements. -/
theorem WellFormed.length_reals {b : Buffer} (wf : b.WellFormed) (real : b.type ≠ .complex) :
    b.reals.length = b.len := by
  unfold reals len
  cases held : b.cells with
  | none => rfl
  | some c =>
    cases c with
    | chars v => simp [Cells.length]
    | ints v => simp [Cells.length]
    | doubles v => simp [Cells.length]
    | complex v =>
      -- complex storage in a buffer of another type holds nothing
      by_cases empty : v.length = 0
      · simp [Cells.length, empty]
      · exact absurd (wf.ofType _ held (by simpa [Cells.length] using empty)).symm real

/-- Converting a well-formed buffer gives a well-formed buffer of the requested type, in the
dimensions it had. -/
theorem WellFormed.convert {src : Buffer} (wf : src.WellFormed) {dt : DataType} {dim : Int}
    (dims : (src.dim : Int) = dim) {out : Buffer} (answered : src.convert dt dim = .ok out) :
    out.WellFormed ∧ out.type = dt ∧ (out.dim : Int) = dim := by
  unfold Buffer.convert at answered
  by_cases missing : (src.type = .complex || !dt.valid) = true
  · rw [if_pos missing] at answered
    exact unset_wellFormed (by omega) answered
  · rw [if_neg missing] at answered
    cases answered
    simp only [Bool.or_eq_true, decide_eq_true_eq, Bool.not_eq_true', not_or,
      Bool.not_eq_false] at missing
    obtain ⟨real, valid⟩ := missing
    refine ⟨⟨valid, fun c held _ => ?_, ?_⟩, rfl, dims⟩
    · cases held
      rcases DataType.eq_of_valid valid with rfl | rfl | rfl | rfl <;>
        simp [Cells.type, DataType.char, DataType.integer, DataType.double, DataType.complex]
    · -- every branch maps the real values, which are as many as the elements
      have counted := wf.count
      rw [← wf.length_reals real] at counted
      rcases DataType.eq_of_valid valid with rfl | rfl | rfl | rfl <;>
        simpa [len, Cells.length, DataType.char, DataType.integer, DataType.double,
          DataType.complex] using counted

end Buffer

/-! ## Windows and resampled time bases -/

/-- The count of a window of stored samples, when some sample falls in it, is the number of
indices from its first to its last sample. -/
theorem timeRangeIndices_count {tmin tmax : Float} {tv : List Float} {mode : InterpMode}
    {lo hi : Int} {count : Nat} (found : timeRangeIndices tmin tmax [] tv mode = .ok (lo, hi, count))
    (some : count ≠ 0) : (count : Int) = hi - lo + 1 := by
  unfold timeRangeIndices at found
  rw [if_pos List.isEmpty_nil] at found
  dsimp only at found
  split_ifs at found
  · simp only [Except.ok.injEq, Prod.mk.injEq] at found
    omega
  · simp only [Except.ok.injEq, Prod.mk.injEq] at found
    obtain ⟨rfl, rfl, rfl⟩ := found
    omega

/-- The whole resampled time basis of a request with a step or target times is a vector of as
many doubles as it counts, or a reported failure. -/
theorem resampleTimebasis_settles {tmin tmax : Float} {dtime : List Float} (requested : dtime ≠ []) :
    Settles (fun r => ∃ xs, r.2 = Buffer.ofDoubles xs ∧ xs.length = r.1)
      (resampleTimebasis tmin tmax dtime (-1)) := by
  rcases dtime with _ | ⟨dt, _ | ⟨second, rest⟩⟩
  · exact absurd rfl requested
  · by_cases refused : dt ≤ 0
    · simp [resampleTimebasis, uniformStep, refused, bind, Except.bind, Except.mapError, Settles,
        Fault.Reported]
    · have stepped : uniformStep [dt] = .ok (some dt) := by simp [uniformStep, refused]
      cases counted : uniformCount tmin tmax dt with
      | error e =>
        simp [resampleTimebasis, stepped, counted, bind, Except.bind, Except.mapError, Settles,
          Fault.Reported]
      | ok n =>
        obtain ⟨xs, ran, len⟩ := resampleTimebasis_uniform stepped counted
        rw [ran]
        exact ⟨xs, rfl, len⟩
  · rw [resampleTimebasis_explicit _ _ (by simp)]
    exact ⟨_, rfl, rfl⟩

/-! ## Slice and window reads -/

namespace MemoryBackend

/-- A slice read of a readable buffer reports a failure or answers a well-formed slice: a block
cut under the slice shape, a zeroed slice when slices are empty, or a blend of two blocks. -/
theorem sliceOf_settles (op : Operation) {data : Buffer} (rd : data.Readable) (tv : List Float) :
    Settles Buffer.WellFormed (sliceOf op data tv) := by
  have sliced : Buffer.product data.shape.dropLast = data.sliceLen := rfl
  have cut := fun i => rd.toWellFormed.block rd.sliceLen_nonneg i sliced
  unfold sliceOf
  dsimp only
  by_cases empty : data.sliceLen = 0
  · rw [if_pos empty]
    exact (Buffer.wellFormed_zeros rd.valid (by rw [sliced, empty])).1
  rw [if_neg empty]
  refine (Settles.sampled _).bind ?_
  rintro ⟨sel, br⟩ - -
  split
  · exact (cut sel).asBackend.mono fun out facts => facts.1
  · refine (cut br.inf).asBackend.bind ?_
    rintro inf - ⟨wfInf, typedInf, -⟩
    refine (cut br.sup).asBackend.bind fun sup _ _ => ?_
    exact (Settles.sampled _).mono fun r blended => (wfInf.interpolate typedInf blended).1

/-- A time-range read of a readable buffer reports a failure or answers nothing or a well-formed
buffer: the blocks of the stored samples in the window, the resampled time base, or the field
resampled onto it. -/
theorem rangeOf_settles (op : Operation) {data : Buffer} (rd : data.Readable) (tv : List Float)
    (isTimebase : Bool) :
    Settles (fun r => ∀ out, r = some out → out.WellFormed) (rangeOf op data tv isTimebase) := by
  have nonneg := rd.sliceLen_nonneg
  have sliced : Buffer.product data.shape.dropLast = data.sliceLen := rfl
  unfold rangeOf
  dsimp only
  split
  · -- the stored samples of the window, as many blocks as samples
    refine (Settles.sampled _).bind ?_
    rintro ⟨lo, hi, count⟩ - found
    dsimp only
    split
    · intro out none
      cases none
    · rename_i some
      refine (rd.toWellFormed.blocks nonneg lo hi ?_).asBackend.bind fun out _ facts => ?_
      · rw [product_append_single, sliced, timeRangeIndices_count found some]
        ring
      · intro out' same
        cases same
        exact facts.1
  · split
    · -- the resampled time base itself, cut to the reached targets
      rename_i requested _
      refine (Settles.sampled _).bind fun targets _ _ => ?_
      refine (resampleTimebasis_settles (by simpa using requested)).bind ?_
      rintro ⟨count, out⟩ - ⟨xs, same, counted⟩
      dsimp only at same counted ⊢
      subst same
      split
      · intro _ none
        cases none
      · split
        · rename_i more
          rw [← counted] at more
          rw [truncate_ofDoubles more.le]
          intro o same
          cases same
          refine ⟨(by decide : DataType.double.valid = true), fun c held _ => by cases held; rfl, ?_⟩
          simp [Buffer.len, Cells.length, Buffer.product]
          omega
        · intro o same
          cases same
          exact Buffer.wellFormed_ofDoubles xs
    · -- a field resampled onto the target times, from the window of blocks it needs
      split
      · intro _ none
        cases none
      · rename_i nonzero
        refine (Settles.sampled _).bind ?_
        rintro ⟨first, last⟩ - -
        dsimp only
        split
        · intro _ none
          cases none
        · refine (rd.toWellFormed.blocks nonneg first last ?_).asBackend.bind ?_
          · rw [product_append_single, sliced]
            ring
          · rintro window - ⟨wfWindow, -⟩
            refine (wfWindow.interpolateWithResampling (by omega) _ _ _ _ _ _).bind ?_
            rintro ⟨count, out⟩ - wfOut
            intro o same
            cases same
            exact wfOut

end MemoryBackend

/-! ## Leaves a read can see -/

/-- `t.Holds l`: the leaf `l` is a field of `t`, or of a structure of one of its arrays, at any
depth. -/
inductive Tree.Holds : Tree → Leaf → Prop
  | field {fs : List (String × Node)} {k : String} {l : Leaf} {arr : Option StructArray}
      (mem : (k, Node.mk (some l) arr) ∈ fs) : Tree.Holds (.mk fs) l
  | element {fs : List (String × Node)} {k : String} {leaf : Option Leaf} {tb : String}
      {es : List (Option Tree)} {e : Tree} {l : Leaf}
      (mem : (k, Node.mk leaf (some (.mk tb es))) ∈ fs) (within : some e ∈ es) (below : e.Holds l) :
      Tree.Holds (.mk fs) l

/-- A tree all of whose leaves, at any depth, hold readable buffers. -/
def Tree.Readable (t : Tree) : Prop := ∀ l, t.Holds l → l.data.Readable
/-- An array all of whose elements are readable trees. -/
def StructArray.Readable (arr : StructArray) : Prop := ∀ e, some e ∈ arr.elements → e.Readable

namespace Tree

theorem readable_empty : Tree.empty.Readable := by
  intro l held
  cases held with
  | field mem => cases mem
  | element mem => cases mem

theorem Readable.of_leaf? {t : Tree} (rd : t.Readable) {p : String} {l : Leaf}
    (found : t.leaf? p = some l) : l.data.Readable := by
  obtain ⟨fs⟩ := t
  simp only [Tree.leaf?, Tree.find?, Tree.fields, Option.bind_eq_some_iff] at found
  obtain ⟨⟨leaf, arr⟩, held, isLeaf⟩ := found
  simp only [Node.leaf] at isLeaf
  subst isLeaf
  exact rd l (.field (mem_of_lookup held))

theorem Readable.of_array? {t : Tree} (rd : t.Readable) {p : String} {arr : StructArray}
    (found : t.array? p = some arr) : arr.Readable := by
  obtain ⟨fs⟩ := t
  obtain ⟨tb, es⟩ := arr
  simp only [Tree.array?, Tree.find?, Tree.fields, Option.bind_eq_some_iff] at found
  obtain ⟨⟨leaf, arr⟩, held, isArray⟩ := found
  simp only [Node.array] at isArray
  subst isArray
  intro e within l below
  exact rd l (.element (mem_of_lookup held) within below)

end Tree

/-- An element of a readable array, an absent one read as the empty structure, is readable. -/
theorem StructArray.Readable.getD {arr : StructArray} (rd : arr.Readable) {e : Option Tree}
    (within : e ∈ arr.elements) : (e.getD Tree.empty).Readable := by
  cases e with
  | none => exact Tree.readable_empty
  | some e => exact rd e within

/-- An action all of whose trees are readable: the staged tree, the arrays collected apart and
the elements its open arrays show to reads. -/
structure Action.KeepsReadable (a : Action) : Prop where
  tree : a.tree.Readable
  apart : ∀ p ∈ a.arrays, p.2.apart.Readable
  views : ∀ p ∈ a.arrays, ∀ v ∈ p.2.views, v.primary.Readable

namespace Action

/-- Every structure of an action that keeps readable trees is readable, wherever it lies. -/
theorem KeepsReadable.structAt {a : Action} (kept : a.KeepsReadable) :
    ∀ {s : StructSite} {t : Tree}, a.structAt s = some t → t.Readable
  | .root, t, found => by
    cases found
    exact kept.tree
  | .element (.field h p) i, t, found => by
    simp only [Action.structAt, Action.arrayAt, Option.bind_eq_some_iff, Option.map_eq_some_iff] at found
    obtain ⟨arr, ⟨holder, atHolder, arrayFound⟩, e, elementFound, rfl⟩ := found
    exact ((kept.structAt atHolder).of_array? arrayFound).getD (List.mem_of_getElem? elementFound)
  | .element (.apart u) i, t, found => by
    simp only [Action.structAt, Action.arrayAt, Option.bind_eq_some_iff, Option.map_eq_some_iff] at found
    obtain ⟨arr, ⟨opened, held, rfl⟩, e, elementFound, rfl⟩ := found
    exact (kept.apart _ (mem_of_lookup held)).getD (List.mem_of_getElem? elementFound)

/-- What a read through any context of an action that keeps readable trees sees is readable. -/
theorem KeepsReadable.view {a : Action} (kept : a.KeepsReadable) {ctx : Context} {v : View}
    (viewed : a.view ctx = .ok v) : v.primary.Readable := by
  cases ctx with
  | array c =>
    unfold Action.view at viewed
    dsimp only at viewed
    rcases opened : a.arrayOf c with f | arr
    · rw [opened] at viewed
      cases viewed
    have held : a.arrays.lookup c.uid = some arr := by
      unfold arrayOf at opened
      split at opened
      · cases opened
        assumption
      · cases opened
    rw [opened] at viewed
    simp only [bind, Except.bind] at viewed
    split_ifs at viewed with homed
    · -- an array opened in a write: its current element, or nothing yet
      split at viewed
      · cases viewed
      · rename_i s _
        cases viewed
        cases found : a.structAt s with
        | none => exact Tree.readable_empty
        | some t => exact kept.structAt found
    · -- an array opened in a read: the element it shows
      split at viewed
      · rename_i w listed
        cases viewed
        exact kept.views _ (mem_of_lookup held) _ (List.mem_of_getElem? listed)
      · cases viewed
  | operation op =>
    cases viewed
    exact kept.tree
  | entry e =>
    cases viewed
    exact kept.tree

/-- A leaf read through a view of readable trees is readable: a copy of the stored leaf, the
view's time, or the blend of the stored leaf with the matching leaf of the secondary view. -/
theorem readLeaf_readable {v : View} (rd : v.primary.Readable) {field : String} {blending : Bool}
    {data : Buffer} (read : readLeaf v field blending = .ok (some data)) : data.Readable := by
  unfold readLeaf at read
  cases found : v.primary.leaf? field with
  | none =>
    rw [found] at read
    cases read
  | some l =>
    rw [found] at read
    dsimp only at read
    have stored := (rd.of_leaf? found).copy
    by_cases timed : (decide (v.timeLeaf ≠ "") && decide (field = v.timeLeaf)) = true
    · -- the time of a view over a time-dependent array
      rw [if_pos timed] at read
      cases read
      split
      · exact ⟨Buffer.wellFormed_scalarDouble _, by simp [Buffer.scalarDouble]⟩
      · exact ⟨Buffer.wellFormed_ofDoubles _, by simp [Buffer.ofDoubles]⟩
    rw [if_neg timed] at read
    split_ifs at read with plain
    · cases read
      exact stored
    split at read
    · split_ifs at read
      · cases read
        exact stored
      split at read
      · rename_i r blended
        cases read
        -- a blend keeps the shape and the number of elements of the stored leaf
        obtain ⟨wfR, -, -, -⟩ := stored.toWellFormed.interpolate (rd.of_leaf? found).toWellFormed.copy.2 blended
        obtain ⟨-, shape, -, -⟩ := Buffer.interpolate_lower blended
        exact ⟨wfR, by rw [shape]; exact stored.sized⟩
      · cases read
    · cases read
      exact stored

end Action

/-! ## Reads of the backends -/

namespace MemoryBackend

/-- A read through an action that keeps readable trees reports a failure, answers nothing, or
answers a well-formed buffer: the field as stored, its slice or its window. -/
theorem readData_settles {b : MemoryBackend} (kept : ∀ p ∈ b.actions, p.2.KeepsReadable)
    (st : Store) (ctx : Context) (field timebase : String) :
    RunSettles (fun r => ∀ out, r = some out → out.WellFormed)
      ((readData ctx field timebase).run (b, st)) := by
  unfold readData
  refine RunSettles.get_bind ?_
  dsimp only
  refine RunSettles.toCall_bind fun found opened => ?_
  obtain ⟨key, a⟩ := found
  have keeps : a.KeepsReadable := kept _ (mem_of_lookup (actionOf_ok opened).2)
  dsimp only
  refine RunSettles.toCall_bind fun v viewed => ?_
  refine RunSettles.toCall_bind fun leaf read => ?_
  cases leaf with
  | none => exact RunSettles.pure fun _ none => by cases none
  | some data =>
    have rd : data.Readable := Action.readLeaf_readable (keeps.view viewed) read
    dsimp only
    split
    · exact RunSettles.pure fun out same => by cases same; exact rd.toWellFormed
    refine RunSettles.toCall_bind fun times _ => ?_
    cases times with
    | none => exact RunSettles.pure fun out same => by cases same; exact rd.toWellFormed
    | some tv =>
      -- the field's count of slices is not negative, so cutting the times never halts
      have counted : 0 ≤ data.shape.getLastD 0 := by
        rw [List.getLastD_eq_getLast?]
        cases last : data.shape.getLast? with
        | none => exact le_refl 0
        | some d => exact rd.sized d (List.mem_of_getLast? last)
      dsimp only
      rw [if_neg (show ¬ data.shape.getLastD 0 < 0 by omega)]
      -- whether the times are cut to the field's slices or kept, the read goes on the same way
      split <;> rw [pure_bind]
      all_goals
        split
        · exact RunSettles.pure fun _ none => by cases none
        split
        · exact RunSettles.raise_bind _ _
        split
        · refine RunSettles.toStep_bind (sliceOf_settles a.op rd _) fun slice _ wf => ?_
          exact RunSettles.pure fun out same => by cases same; exact wf
        · exact RunSettles.toStep (rangeOf_settles a.op rd _ _)

end MemoryBackend

namespace SerializeBackend

/-- A read through an action that keeps readable trees reports a failure, answers nothing, or
answers a well-formed buffer: the field as stored, or the frame of the staged object. -/
theorem readData_settles {b : SerializeBackend} (kept : ∀ p ∈ b.actions, p.2.KeepsReadable)
    (d : Disk) (ctx : Context) (field : String) :
    RunSettles (fun r => ∀ out, r = some out → out.WellFormed) ((readData ctx field).run (b, d)) := by
  unfold readData
  refine RunSettles.get_bind ?_
  dsimp only
  refine RunSettles.toCall_bind fun found opened => ?_
  obtain ⟨key, a⟩ := found
  have keeps : a.KeepsReadable := kept _ (mem_of_lookup (actionOf_ok opened).2)
  dsimp only
  split
  · -- the frame of the staged object is a vector of bytes
    split
    · exact RunSettles.raise_bind _ _
    · exact RunSettles.pure fun out same => by cases same; exact Buffer.wellFormed_ofBytes _
  split
  · exact RunSettles.raise_bind _ _
  refine RunSettles.toCall_bind fun v viewed => ?_
  refine RunSettles.toStep (Settles.faulting fun leaf read out same => ?_)
  cases same
  exact (Action.readLeaf_readable (keeps.view viewed) read).toWellFormed

end SerializeBackend

namespace Backend

/-- A backend all of whose actions keep readable trees; the empty backend keeps nothing. -/
def KeepsReadable : Backend → Prop
  | .empty => True
  | .memory b => ∀ p ∈ b.actions, p.2.KeepsReadable
  | .serialize b => ∀ p ∈ b.actions, p.2.KeepsReadable

/-- A read of a backend that keeps readable trees reports a failure, answers nothing, or answers
a well-formed buffer. -/
theorem readData_settles {be : Backend} (kept : be.KeepsReadable) (m : Medium) (ctx : Context)
    (field timebase : String) :
    RunSettles (fun r => ∀ out, r = some out → out.WellFormed)
      ((readData ctx field timebase).run (be, m)) := by
  unfold readData dispatch
  refine RunSettles.get_bind ?_
  cases be with
  | empty => exact RunSettles.pure fun _ none => by cases none
  | memory b =>
    have read := MemoryBackend.readData_settles kept m.store ctx field timebase
    show RunSettles _ ((onMemory b _).run _)
    rw [run_onMemory]
    cases ran : (MemoryBackend.readData ctx field timebase).run (b, m.store) <;>
      (rw [ran] at read; exact read)
  | serialize b =>
    have read := SerializeBackend.readData_settles kept m.disk ctx field
    show RunSettles _ ((onSerialize b _).run _)
    rw [run_onSerialize]
    cases ran : (SerializeBackend.readData ctx field).run (b, m.disk) <;>
      (rw [ran] at read; exact read)

end Backend

namespace Session

/-- A session all of whose backends keep readable trees. -/
def KeepsReadable (s : Session) : Prop := ∀ be ∈ s.backends, be.KeepsReadable

theorem KeepsReadable.getD {s : Session} (kept : s.KeepsReadable) (i : Nat) :
    (s.backends.getD i .empty).KeepsReadable := by
  rw [List.getD_eq_getElem?_getD]
  cases held : s.backends[i]? with
  | none => trivial
  | some be => exact kept be (List.mem_of_getElem? held)

/-- Reading `dim ≥ 0` dimensions of type `dt` from a session whose backends keep readable trees
reports a failure or answers a well-formed buffer of type `dt` in exactly `dim` dimensions: the
stored data, converted when it has another type, or the unset value when there is none. It never
halts. -/
theorem read_answers_wellFormed {s : Session} (kept : s.KeepsReadable) (id : Int)
    (field timebase : String) (dt : DataType) {dim : Int} (nonneg : 0 ≤ dim) :
    RunSettles (fun out => out.WellFormed ∧ out.type = dt ∧ (out.dim : Int) = dim)
      ((readData id field timebase dt dim).run s) := by
  unfold readData
  rw [EStateM.run_bind, run_lookup]
  cases s.slot? id with
  | none => trivial
  | some sl =>
    refine RunSettles.get_bind ?_
    refine RunSettles.bind (P := fun r => ∀ out, r = some out → out.WellFormed) ?_
      fun found _ _ wf => ?_
    · have read := Backend.readData_settles (kept.getD sl.backend) s.medium (s.live sl.context)
        field timebase
      rw [run_onBackend]
      cases ran : (Backend.readData (s.live sl.context) field timebase).run
          (s.backends.getD sl.backend .empty, s.medium) <;>
        (rw [ran] at read; exact read)
    cases found with
    | none =>
      -- no data: the unset value of the requested type and dimension
      refine RunSettles.toStep (Settles.faulting fun out unset => ?_)
      exact Buffer.unset_wellFormed nonneg unset
    | some data =>
      have wfData := wf data rfl
      dsimp only
      split
      · exact RunSettles.raise _
      rename_i dims
      split
      · -- data of another type is converted
        refine RunSettles.bind (RunSettles.modify _) fun _ _ _ _ => ?_
        refine RunSettles.toStep (Settles.faulting fun out converted => ?_)
        exact wfData.convert (not_not.mp dims) converted
      · rename_i typed
        exact RunSettles.pure ⟨wfData, not_not.mp typed, not_not.mp dims⟩

/-- A session without backends keeps readable trees: a read there settles too. -/
theorem read_in_fresh_session_settles :
    RunSettles (fun out => out.WellFormed ∧ out.type = .double ∧ (out.dim : Int) = 1)
      ((readData 1 "f" "" .double 1).run ({ env := {} } : Session)) :=
  read_answers_wellFormed (fun _ held => by cases held) 1 "f" "" .double (by decide)

/-- A buffer of one element under the shape `[-1, -1]` is well formed, since the product of its
dimensions is one; written as a slice of a field and read back as the slice at a stored time, its
slices have `-1` elements, and cutting one out halts. -/
theorem negative_dimensions_halt_slice_read :
    let written : Buffer := ⟨.double, [-1, -1], some (.doubles [7])⟩
    let stored := [Call.beginDataEntry "imas:memory?path=/p" .create, .beginGlobal 1 "obj" "" .write,
      .writeData 2 "time" "time" (Buffer.ofDoubles [1]), .writeData 2 "f" "time" written,
      .endAction 2, .beginSlice 1 "obj" .read 1 .closest].foldl
        (fun s c => (c.perform.run s).state) ({ env := {} } : Session)
    written.WellFormed ∧ ((readData 2 "f" "time" .double 1).run stored matches .error (.halt _) _) :=
  ⟨⟨rfl, fun c held _ => by cases held; rfl, by decide⟩, by decide +kernel⟩

end Session

end AccessLayer
