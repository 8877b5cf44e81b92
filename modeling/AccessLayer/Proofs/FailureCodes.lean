import Mathlib
import AccessLayer.Proofs.FailedCalls
/-!
Every failure a session reports carries the code of a layer. Failures without a code arise in
the lower parts of the library (a block of a buffer out of range, an append of another type);
each path that passes one on either wraps it as a backend failure or cannot reach it, so the
status of a failed call is always one of the three layer statuses, never the unknown one.

`Except.FailsOnly P r` and `EStateM.FailsOnly P m` say that every error of a result, or of a
call from any state, satisfies `P`; the lemmas of each follow the monad's constructors, and each
function of the access layer gets one lemma that its failures are coded, cited by its callers.

Main statement: `Session.call_failures_carry_code`.
-/

namespace AccessLayer

/-! ## Coded failures -/

/-- A failure with the code of one of the three layers. -/
def Failure.Coded (f : Failure) : Prop :=
  f.code = .context ∨ f.code = .backend ∨ f.code = .lowlevel

/-- A fault that is not a failure without a layer: a halt, or a coded failure. -/
def Fault.Coded : Fault → Prop
  | .failure f => f.Coded
  | .halt _ => True

namespace Failure

@[simp] theorem coded_context (m : String) : (Failure.context m).Coded := .inl rfl

@[simp] theorem coded_backend (m : String) : (Failure.backend m).Coded := .inr (.inl rfl)

@[simp] theorem coded_lowlevel (m : String) : (Failure.lowlevel m).Coded := .inr (.inr rfl)

/-- The status of a coded failure is that of its layer, never the unknown status `-1`. -/
theorem Coded.status {f : Failure} (coded : f.Coded) :
    statusOf (some f) = -2 ∨ statusOf (some f) = -3 ∨ statusOf (some f) = -4 := by
  rcases coded with code | code | code <;> simp [statusOf, code, ErrorCode.status]

end Failure

@[simp] theorem Fault.coded_failure (f : Failure) : (Fault.failure f).Coded ↔ f.Coded := Iff.rfl

@[simp] theorem Fault.coded_halt (reason : String) : (Fault.halt reason).Coded := trivial

/-- A fault that is no failure is a halt. -/
theorem Fault.coded_of_not_failure {e : Fault} (notFailure : ∀ f, e = .failure f → False) :
    e.Coded := by
  cases e with
  | failure f => exact absurd rfl (notFailure f)
  | halt reason => trivial

/-- A block failure reported as a backend failure. -/
@[simp] theorem Fault.coded_asBackend (e : Fault) : e.asBackend.Coded := by
  cases e <;> simp [Fault.asBackend]

@[simp] theorem EntryError.coded_failure (e : EntryError) : e.failure.Coded := by
  cases e <;> simp [EntryError.failure]

@[simp] theorem OperationError.coded_failure (e : OperationError) : e.failure.Coded := by
  cases e <;> simp [OperationError.failure]

@[simp] theorem SamplingError.coded_failure (e : SamplingError) : e.failure.Coded := by
  cases e <;> simp [SamplingError.failure]

/-! ## Results whose errors all satisfy a property -/

/-- Every error of `r` satisfies `P`. -/
def Except.FailsOnly {ε α : Type} (P : ε → Prop) (r : Except ε α) : Prop :=
  ∀ e, r = .error e → P e

namespace Except.FailsOnly

variable {ε ε' α β : Type} {P : ε → Prop}

theorem ok (a : α) : Except.FailsOnly P (Except.ok a : Except ε α) := by
  intro e failed
  cases failed

theorem error {e : ε} (holds : P e) : Except.FailsOnly P (Except.error e : Except ε α) := by
  intro e' failed
  cases failed
  exact holds

theorem pure (a : α) : Except.FailsOnly P (Pure.pure a : Except ε α) := ok a

theorem bind {r : Except ε α} {f : α → Except ε β} (first : Except.FailsOnly P r)
    (rest : ∀ a, r = .ok a → Except.FailsOnly P (f a)) : Except.FailsOnly P (r >>= f) := by
  cases r with
  | error e => exact error (first e rfl)
  | ok a => exact rest a rfl

theorem map {r : Except ε α} (first : Except.FailsOnly P r) (g : α → β) :
    Except.FailsOnly P (r.map g) := by
  cases r with
  | error e => exact error (first e rfl)
  | ok a => exact ok (g a)

/-- Errors mapped into `Q` satisfy `Q`, whatever they were. -/
theorem mapError {Q : ε' → Prop} (r : Except ε α) {g : ε → ε'} (into : ∀ e, Q (g e)) :
    Except.FailsOnly Q (r.mapError g) := by
  cases r with
  | error e => exact error (into e)
  | ok a => exact ok a

/-- A fold fails only as one of its steps does. -/
theorem foldlM {γ : Type} {step : β → γ → Except ε β} (each : ∀ acc x, Except.FailsOnly P (step acc x)) :
    ∀ (xs : List γ) (init : β), Except.FailsOnly P (xs.foldlM step init) := by
  intro xs
  induction xs with
  | nil => intro init; exact ok init
  | cons x rest ih =>
    intro init
    rw [List.foldlM_cons]
    exact bind (each init x) fun mid _ => ih mid

/-- A map fails only as one of its elements does. -/
theorem mapM {f : α → Except ε β} (each : ∀ a, Except.FailsOnly P (f a)) :
    ∀ xs : List α, Except.FailsOnly P (xs.mapM f) := by
  intro xs
  induction xs with
  | nil => exact ok []
  | cons x rest ih =>
    rw [List.mapM_cons]
    exact bind (each x) fun b _ => bind ih fun bs _ => ok (b :: bs)

end Except.FailsOnly

/-- A sampling computation fails with coded failures only. -/
theorem Except.coded_sampled {α : Type} (r : Except SamplingError α) :
    Except.FailsOnly Fault.Coded (Except.sampled r) :=
  .mapError r fun e => (SamplingError.coded_failure e)

/-- A block selection fails, once reported, with coded failures only. -/
theorem Except.coded_asBackend {α : Type} (r : Except Fault α) :
    Except.FailsOnly Fault.Coded (r.mapError Fault.asBackend) :=
  .mapError r Fault.coded_asBackend

/-- Coded failures stay coded as faults. -/
theorem Except.coded_faulting {α : Type} {r : Except Failure α} (coded : Except.FailsOnly Failure.Coded r) :
    Except.FailsOnly Fault.Coded (Except.faulting r) := by
  cases r with
  | error f => exact .error (coded f rfl)
  | ok a => exact .ok a

/-! ## Calls whose errors all satisfy a property -/

/-- From every state, every error of `m` satisfies `P`. -/
def EStateM.FailsOnly {ε σ α : Type} (P : ε → Prop) (m : EStateM ε σ α) : Prop :=
  ∀ s e t, m.run s = .error e t → P e

namespace EStateM.FailsOnly

variable {ε σ α β : Type} {P : ε → Prop}

theorem pure (a : α) : EStateM.FailsOnly P (Pure.pure a : EStateM ε σ α) := by
  intro s e t failed
  cases failed

theorem throw {e : ε} (holds : P e) : EStateM.FailsOnly P (throw e : EStateM ε σ α) := by
  intro s e' t failed
  cases failed
  exact holds

theorem set (v : σ) : EStateM.FailsOnly P (set v : EStateM ε σ PUnit) := by
  intro s e t failed
  cases failed

theorem modify (g : σ → σ) : EStateM.FailsOnly P (modify g : EStateM ε σ PUnit) := by
  intro s e t failed
  cases failed

theorem modifyGet (g : σ → α × σ) : EStateM.FailsOnly P (modifyGet g : EStateM ε σ α) := by
  intro s e t failed
  cases failed

theorem bind {m : EStateM ε σ α} {f : α → EStateM ε σ β} (first : EStateM.FailsOnly P m)
    (rest : ∀ a, EStateM.FailsOnly P (f a)) : EStateM.FailsOnly P (m >>= f) := by
  intro s e t failed
  rw [EStateM.run_bind] at failed
  cases ran : m.run s with
  | ok a u =>
    rw [ran] at failed
    exact rest a u e t failed
  | error e' u =>
    rw [ran] at failed
    cases failed
    exact first s _ _ ran

/-- An error ends the call: what would follow it never runs. -/
theorem throw_bind {e : ε} (holds : P e) (g : α → EStateM ε σ β) :
    EStateM.FailsOnly P ((MonadExcept.throw e : EStateM ε σ α) >>= g) := by
  intro s e' t failed
  cases failed
  exact holds

theorem get_bind {f : σ → EStateM ε σ β} (rest : ∀ s, EStateM.FailsOnly P (f s)) :
    EStateM.FailsOnly P (get >>= f) := by
  intro s e t failed
  exact rest s s e t failed

theorem map {m : EStateM ε σ α} (first : EStateM.FailsOnly P m) (g : α → β) : EStateM.FailsOnly P (g <$> m) := by
  intro s e t failed
  rw [EStateM.run_map] at failed
  cases ran : m.run s with
  | ok a u =>
    rw [ran] at failed
    cases failed
  | error e' u =>
    rw [ran] at failed
    cases failed
    exact first s _ _ ran

theorem ite {c : Prop} [Decidable c] {a b : EStateM ε σ α} (yes : EStateM.FailsOnly P a)
    (no : EStateM.FailsOnly P b) : EStateM.FailsOnly P (if c then a else b) := by
  by_cases holds : c
  · simpa only [if_pos holds] using yes
  · simpa only [if_neg holds] using no

/-- A handler that fails only as `P` allows, given an error that `P` holds of, keeps `P`. -/
theorem tryCatch {m : EStateM ε σ α} {h : ε → EStateM ε σ α} (first : EStateM.FailsOnly P m)
    (handler : ∀ e, P e → EStateM.FailsOnly P (h e)) : EStateM.FailsOnly P (tryCatch m h) := by
  intro s e t failed
  rw [EStateM.run_tryCatch] at failed
  cases ran : m.run s with
  | ok a u =>
    rw [ran] at failed
    cases failed
  | error e' u =>
    rw [ran] at failed
    exact handler e' (first s e' u ran) _ e t failed

theorem focus {τ : Type} {view : σ → τ} {update : σ → τ → σ} {m : EStateM ε τ α}
    (first : EStateM.FailsOnly P m) : EStateM.FailsOnly P (EStateM.focus view update m) := by
  intro s e t failed
  simp only [EStateM.run, EStateM.focus] at failed
  cases ran : m (view s) with
  | ok a u =>
    rw [ran] at failed
    cases failed
  | error e' u =>
    rw [ran] at failed
    cases failed
    exact first (view s) e u ran

end EStateM.FailsOnly

namespace EStateM.FailsOnly

variable {σ α : Type}

theorem toStep {P : Fault → Prop} {r : Except Fault α} (first : Except.FailsOnly P r) :
    EStateM.FailsOnly P (Except.toStep r : EStateM Fault σ α) := by
  intro s e t failed
  cases r with
  | ok a => cases failed
  | error e' =>
    cases failed
    exact first e rfl

theorem toCall {r : Except Failure α} (coded : Except.FailsOnly Failure.Coded r) :
    EStateM.FailsOnly Fault.Coded (Except.toCall r : EStateM Fault σ α) :=
  toStep (Except.coded_faulting coded)

theorem raise {f : Failure} (coded : f.Coded) :
    EStateM.FailsOnly Fault.Coded (Failure.raise f : EStateM Fault σ α) := by
  intro s e t failed
  cases failed
  exact coded

theorem raise_bind {β : Type} {f : Failure} (coded : f.Coded) (g : α → EStateM Fault σ β) :
    EStateM.FailsOnly Fault.Coded (Failure.raise f >>= g) := by
  intro s e t failed
  cases failed
  exact coded

end EStateM.FailsOnly

/-! ## Buffers, actions and sampling -/

namespace Buffer

theorem type_of_truncate {b d : Buffer} {n : Int} (cut : b.truncate n = .ok d) : d.type = b.type := by
  unfold truncate at cut
  split_ifs at cut <;> cases cut <;> rfl

/-- Appending a buffer of the same type never fails. -/
theorem appendData_same_type {P : Failure → Prop} {b o : Buffer} (same : o.type = b.type) :
    Except.FailsOnly P (b.appendData o) := by
  unfold appendData
  rw [if_neg (not_not.mpr same)]
  split <;> exact .ok _

/-- Cutting a buffer only halts. -/
theorem truncate_coded (b : Buffer) (n : Int) : Except.FailsOnly Fault.Coded (b.truncate n) := by
  unfold truncate
  split_ifs
  · exact .ok b
  · exact .error trivial
  · exact .ok _

@[simp] theorem unset_coded (dt : DataType) (dim : Int) :
    Except.FailsOnly Failure.Coded (unset dt dim) := by
  unfold unset
  split
  · exact .error (Failure.coded_lowlevel _)
  · split
    · exact .ok _
    · exact .ok _

theorem convert_coded (src : Buffer) (dt : DataType) (dim : Int) :
    Except.FailsOnly Failure.Coded (src.convert dt dim) := by
  unfold convert
  split
  · exact unset_coded dt dim
  · exact .ok _

end Buffer

@[simp] theorem coded_elementOutOfRange (index : Int) (path : String) (size : Nat) :
    (elementOutOfRange index path size).Coded :=
  Failure.coded_backend _

namespace Action

theorem arrayOf_coded (a : Action) (c : ArrayContext) :
    Except.FailsOnly Failure.Coded (a.arrayOf c) := by
  unfold arrayOf
  split
  · exact .ok _
  · exact .error (Failure.coded_backend _)

theorem container_coded (a : Action) (ctx : Context) :
    Except.FailsOnly Failure.Coded (a.container ctx) := by
  unfold container
  split
  · refine .bind (arrayOf_coded a _) fun arr _ => ?_
    dsimp only
    split
    · exact .error (coded_elementOutOfRange _ _ _)
    · exact .ok _
  · exact .ok _

theorem beginWrite_coded (a : Action) (c : ArrayContext) (size : Int) :
    Except.FailsOnly Failure.Coded (a.beginWrite c size) := by
  unfold beginWrite
  refine .bind (container_coded a _) fun holder _ => ?_
  split_ifs <;> exact .pure _

theorem endArray_coded (a : Action) (c : ArrayContext) :
    Except.FailsOnly Failure.Coded (a.endArray c) := by
  unfold endArray
  refine .bind (arrayOf_coded a c) fun arr _ => ?_
  dsimp only
  split
  · exact .pure _
  · split_ifs
    · exact .pure _
    · split <;> exact .pure _

theorem view_coded (a : Action) (ctx : Context) : Except.FailsOnly Failure.Coded (a.view ctx) := by
  unfold view
  split
  · refine .bind (arrayOf_coded a _) fun arr _ => ?_
    split_ifs
    · exact .bind (container_coded a _) fun s _ => .pure _
    · exact .error (coded_elementOutOfRange _ _ _)
    · split
      · exact .pure _
      · exact .error (coded_elementOutOfRange _ _ _)
  · exact .pure _

theorem beginRead_coded (a : Action) (c : ArrayContext) :
    Except.FailsOnly Failure.Coded (a.beginRead c) := by
  unfold beginRead
  exact .bind (view_coded a _) fun pv _ => .pure _

theorem readLeaf_coded (v : View) (field : String) (blending : Bool) :
    Except.FailsOnly Failure.Coded (readLeaf v field blending) := by
  unfold readLeaf
  split
  · exact .ok _
  · dsimp only
    split
    · exact .ok _
    · split
      · exact .ok _
      · split
        · split
          · exact .ok _
          · split
            · exact .ok _
            · exact .error (SamplingError.coded_failure _)
        · exact .ok _

theorem timebaseVector_coded (a : Action) (holder : Tree) (timebase : String) :
    Except.FailsOnly Failure.Coded (a.timebaseVector holder timebase) := by
  unfold timebaseVector
  -- where the time base is looked up does not matter
  generalize (if timebase.startsWith "/" then (a.tree, (timebase.drop 1).toString)
    else (holder, timebase)) = place
  obtain ⟨s, tb⟩ := place
  dsimp only
  split
  · exact .ok _
  · split_ifs
    · exact .error (Failure.coded_backend _)
    · exact .ok _

theorem elementTimes_coded (leaf : String) (i : Nat) (elements : List (Option Tree)) :
    Except.FailsOnly Failure.Coded (elementTimes leaf i elements) := by
  induction elements generalizing i with
  | nil => exact .ok []
  | cons e rest ih =>
    unfold elementTimes
    split
    · split_ifs
      · exact .map (ih (i + 1)) _
      · exact .error (Failure.coded_backend _)
    · exact .error (Failure.coded_backend _)

theorem arrayTimes_coded (a : Action) (arr : StructArray) (timebase : String) :
    Except.FailsOnly Failure.Coded (a.arrayTimes arr timebase) := by
  unfold arrayTimes
  split_ifs
  · exact .bind (timebaseVector_coded a _ _) fun tv _ => .pure _
  · exact .bind (elementTimes_coded _ 0 _) fun tv _ => .pure _

/-- A slice write fails with backend failures only: the append that ends it is of a slice of
the field's own type, which was checked first. -/
theorem appendSlice_coded (prev : Option Leaf) (field timebase : String) (slice : Buffer)
    (replace : Bool) : Except.FailsOnly Fault.Coded (appendSlice prev field timebase slice replace) := by
  unfold appendSlice
  cases prev with
  | none => exact .ok _
  | some l =>
    dsimp only
    split
    · exact .error (Failure.coded_backend _)
    · split
      · exact .error (Failure.coded_backend _)
      · rename_i mismatch _
        have sameType : slice.type = l.data.type := (not_not.mp mismatch).symm
        split
        · -- a replacing write first drops the last slice, which keeps the field's type
          refine .bind (Buffer.truncate_coded _ _) fun d' cut => .bind (.pure _) fun p kept => ?_
          cases kept
          have trimmedType : slice.type = d'.type := by rw [Buffer.type_of_truncate cut, sameType]
          exact .bind (Except.coded_faulting (Buffer.appendData_same_type trimmedType))
            fun _ _ => .pure _
        · refine .bind (.pure _) fun p kept => ?_
          cases kept
          exact .bind (Except.coded_faulting (Buffer.appendData_same_type sameType))
            fun _ _ => .pure _

theorem writeLeaf_coded (a : Action) (ctx : Context) (field timebase : String) (data : Buffer) :
    Except.FailsOnly Fault.Coded (a.writeLeaf ctx field timebase data) := by
  unfold writeLeaf
  refine .bind (Except.coded_faulting (container_coded a ctx)) fun holder _ => ?_
  split_ifs
  · exact .bind (appendSlice_coded _ _ _ _ _) fun l _ => .pure _
  · exact .pure _

end Action

/-! ## Resampling -/

theorem resampleTimebasis_coded (tmin tmax : Float) (dtime : List Float) (index : Int) :
    Except.FailsOnly Fault.Coded (resampleTimebasis tmin tmax dtime index) := by
  unfold resampleTimebasis
  split
  · exact .error trivial
  · exact .mapError _ fun e => SamplingError.coded_failure e

theorem interpolateWithResampling_coded (tmin tmax : Float) (dtime : List Float) (dt : DataType)
    (shape : Int) (data : Buffer) (tv : List Float) (mode : InterpMode) :
    Except.FailsOnly Fault.Coded
      (interpolateWithResampling tmin tmax dtime dt shape data tv mode) := by
  unfold interpolateWithResampling
  dsimp only
  split
  · exact .mapError _ fun e => SamplingError.coded_failure e
  split
  · exact .mapError _ fun e => SamplingError.coded_failure e
  split
  · exact .mapError _ fun e => SamplingError.coded_failure e
  refine .bind (.mapError _ fun e => SamplingError.coded_failure e) fun targets _ => ?_
  refine .bind (.mapError _ fun e => SamplingError.coded_failure e) fun start _ => ?_
  refine .bind (Except.FailsOnly.foldlM (fun acc t => ?_) _ _) fun res _ => .pure _
  -- one step: the bracket of `t`, its blocks cut from the window, their blend appended
  refine .bind (.mapError _ fun e => SamplingError.coded_failure e) fun sel _ => ?_
  split
  · refine .bind ?lower fun lo _ => .bind ?upper fun hi _ => ?blend
    case lower =>
      split
      · exact .ok _
      · exact .mapError _ fun e => SamplingError.coded_failure e
      · exact .error (Fault.coded_of_not_failure ‹_›)
    case upper =>
      split
      · exact .ok _
      · exact .mapError _ fun e => SamplingError.coded_failure e
      · exact .error (Fault.coded_of_not_failure ‹_›)
    case blend =>
      exact .bind (.pure _) fun _ _ => .bind (.mapError _ fun e => SamplingError.coded_failure e)
        fun _ _ => .bind (.mapError _ fun e => SamplingError.coded_failure e) fun _ _ => .pure _
  · refine .bind ?selected fun lo _ => ?blend
    case selected =>
      split
      · exact .ok _
      · exact .mapError _ fun e => SamplingError.coded_failure e
      · exact .error (Fault.coded_of_not_failure ‹_›)
    case blend =>
      exact .bind (.pure _) fun _ _ => .bind (.mapError _ fun e => SamplingError.coded_failure e)
        fun _ _ => .bind (.mapError _ fun e => SamplingError.coded_failure e) fun _ _ => .pure _

/-! ## The memory backend -/

theorem Context.operationUid_coded (ctx : Context) :
    Except.FailsOnly Failure.Coded ctx.operationUid := by
  unfold Context.operationUid
  split
  · exact .ok _
  · exact .ok _
  · exact .error (Failure.coded_backend _)

namespace MemoryBackend

theorem actionOf_coded (b : MemoryBackend) (ctx : Context) :
    Except.FailsOnly Failure.Coded (b.actionOf ctx) := by
  unfold actionOf
  refine .bind (Context.operationUid_coded ctx) fun key _ => ?_
  split
  · exact .ok _
  · exact .error (Failure.coded_backend _)

theorem sliceOf_coded (op : Operation) (data : Buffer) (tv : List Float) :
    Except.FailsOnly Fault.Coded (sliceOf op data tv) := by
  unfold sliceOf
  dsimp only
  split
  · exact .pure _
  refine .bind (Except.coded_sampled _) fun found _ => ?_
  split
  · exact Except.coded_asBackend _
  · exact .bind (Except.coded_asBackend _) fun _ _ => .bind (Except.coded_asBackend _) fun _ _ =>
      Except.coded_sampled _

theorem rangeOf_coded (op : Operation) (data : Buffer) (tv : List Float) (isTimebase : Bool) :
    Except.FailsOnly Fault.Coded (rangeOf op data tv isTimebase) := by
  unfold rangeOf
  dsimp only
  split
  · -- the samples in the window, as stored
    refine .bind (Except.coded_sampled _) fun found _ => ?_
    split
    · exact .pure _
    · exact .bind (Except.coded_asBackend _) fun _ _ => .pure _
  split
  · -- the time base itself, resampled
    refine .bind (Except.coded_sampled _) fun targets _ => ?_
    refine .bind (resampleTimebasis_coded _ _ _ _) fun produced _ => ?_
    split
    · exact .pure _
    split
    · exact .bind (Buffer.truncate_coded _ _) fun _ _ => .pure _
    · exact .pure _
  -- a field, resampled from the window of samples it needs
  split
  · exact .pure _
  refine .bind (Except.coded_sampled _) fun window _ => ?_
  split
  · exact .pure _
  exact .bind (Except.coded_asBackend _) fun _ _ =>
    .bind (interpolateWithResampling_coded _ _ _ _ _ _ _ _) fun _ _ => .pure _

theorem pick_coded (op : Operation) (arr : StructArray) (tv : List Float) (t : Float) :
    Except.FailsOnly Fault.Coded (pick op arr tv t) := by
  unfold pick
  refine .bind (Except.coded_sampled _) fun found _ => ?_
  dsimp only
  split
  · exact .pure _
  · exact .pure _

theorem timedViews_coded (b : MemoryBackend) (a : Action) (arr : StructArray) (elements : List View)
    (tv : List Float) (timeLeaf : String) :
    Except.FailsOnly Fault.Coded (b.timedViews a arr elements tv timeLeaf) := by
  unfold timedViews
  dsimp only
  split
  · exact .error (Failure.coded_backend _)
  split
  · exact .bind (pick_coded _ _ _ _) fun _ _ => .pure _
  split
  · refine .bind (Except.coded_sampled _) fun found _ => ?_
    split
    · exact .pure _
    · exact .pure _
  refine .bind (Except.coded_sampled _) fun targets _ => ?_
  refine Except.FailsOnly.mapM (fun target => ?_) _
  refine .bind (pick_coded _ _ _ _) fun v _ => ?_
  split
  · exact .pure _
  · exact .bind (resampleTimebasis_coded _ _ _ _) fun _ _ => .pure _

theorem openPulse_coded (e : DataEntry) (mode : OpenMode) :
    EStateM.FailsOnly Fault.Coded (openPulse e mode) := by
  unfold openPulse
  refine .get_bind ?_
  rintro ⟨b, store⟩
  dsimp only
  -- every mode either keeps or makes the entry, or refuses it with a backend failure
  split_ifs
  · exact .bind (.pure _) fun _ => .set _
  · exact .raise_bind (Failure.coded_backend _) _
  · exact .bind (.pure _) fun _ => .set _
  · exact .raise_bind (Failure.coded_backend _) _
  · exact .bind (.pure _) fun _ => .set _
  · exact .bind (.pure _) fun _ => .set _
  · exact .raise_bind (Failure.coded_backend _) _

theorem closePulse_coded (e : DataEntry) (mode : CloseMode) :
    EStateM.FailsOnly Fault.Coded (closePulse e mode) := by
  unfold closePulse
  refine .get_bind ?_
  rintro ⟨b, store⟩
  exact .set _

theorem beginAction_coded (op : Operation) : EStateM.FailsOnly Fault.Coded (beginAction op) := by
  unfold beginAction
  refine .get_bind ?_
  rintro ⟨b, store⟩
  dsimp only
  -- an entry that is not open, and a time-range write, are refused before the action is set
  exact .ite (.raise_bind (Failure.coded_backend _) _)
    (.ite (.raise_bind (Failure.coded_backend _) _) (.set _))

theorem endAction_coded (ctx : Context) : EStateM.FailsOnly Fault.Coded (endAction ctx) := by
  unfold endAction
  refine .get_bind ?_
  rintro ⟨b, store⟩
  dsimp only
  split
  · exact .pure _
  · exact .bind (.toCall (actionOf_coded b _)) fun found =>
      .bind (.toCall (Action.endArray_coded _ _)) fun _ => .set _
  · -- a commit the store refuses is a backend failure
    refine .bind (.toCall (actionOf_coded b _)) fun found => .bind (.set _) fun _ => ?_
    refine .ite ?_ (.pure _)
    split
    · exact .set _
    · exact .raise (Failure.coded_backend _)

theorem writeData_coded (ctx : Context) (field timebase : String) (data : Buffer) :
    EStateM.FailsOnly Fault.Coded (writeData ctx field timebase data) := by
  unfold writeData
  refine .get_bind ?_
  rintro ⟨b, store⟩
  dsimp only
  refine .bind (.toCall (actionOf_coded b ctx)) fun found => ?_
  -- a read action refuses the write
  exact .ite (.raise_bind (Failure.coded_backend _) _)
    (.bind (.toStep (Action.writeLeaf_coded _ _ _ _ _)) fun _ => .set _)

theorem deleteData_coded (op : Operation) (path : String) :
    EStateM.FailsOnly Fault.Coded (deleteData op path) := by
  unfold deleteData
  refine .get_bind ?_
  rintro ⟨b, store⟩
  dsimp only
  refine .bind (.toCall (actionOf_coded b _)) fun found => ?_
  exact .ite (.raise_bind (Failure.coded_backend _) _) (.set _)

theorem readData_coded (ctx : Context) (field timebase : String) :
    EStateM.FailsOnly Fault.Coded (readData ctx field timebase) := by
  unfold readData
  refine .get_bind ?_
  rintro ⟨b, store⟩
  dsimp only
  refine .bind (.toCall (actionOf_coded b ctx)) fun found => ?_
  refine .bind (.toCall (Action.view_coded _ _)) fun v => ?_
  refine .bind (.toCall (Action.readLeaf_coded _ _ _)) fun leaf => ?_
  split
  · split
    · exact .pure _
    refine .bind (.toCall (Action.timebaseVector_coded _ _ _)) fun stored => ?_
    split
    · -- the stored times are cut to the samples of the field, a negative count halting; the
      -- rest of the read is the same whether they were cut or not
      refine .ite (.ite (.throw_bind trivial _) (.bind (.pure _) fun tv => ?_))
        (.bind (.pure _) fun tv => ?_)
      all_goals
        exact .ite (.pure _) (.ite (.raise_bind (Failure.coded_backend _) _)
          (.ite (.bind (.toStep (sliceOf_coded _ _ _)) fun _ => .pure _)
            (.toStep (rangeOf_coded _ _ _ _))))
    · exact .pure _
  · exact .pure _

theorem beginTimedRead_coded (key : Nat) (a : Action) (c : ArrayContext) :
    EStateM.FailsOnly Fault.Coded (beginTimedRead key a c) := by
  unfold beginTimedRead
  refine .get_bind ?_
  rintro ⟨b, store⟩
  dsimp only
  refine .bind (.toCall (Action.view_coded _ _)) fun pv => .bind (.set _) fun _ => ?_
  split
  · exact .pure _
  · refine .ite (.pure _) (.bind (.toCall (Action.arrayTimes_coded _ _ _)) fun found => ?_)
    exact .ite (.pure _) (.bind (.toStep (timedViews_coded _ _ _ _ _ _)) fun _ =>
      .bind (.set _) fun _ => .pure _)

theorem beginArray_coded (c : ArrayContext) (size : Int) :
    EStateM.FailsOnly Fault.Coded (beginArray c size) := by
  unfold beginArray
  refine .get_bind ?_
  rintro ⟨b, store⟩
  dsimp only
  refine .bind (.toCall (actionOf_coded b _)) fun found => ?_
  refine .ite (.bind (.toCall (Action.beginWrite_coded _ _ _)) fun _ =>
    .bind (.set _) fun _ => .pure _) ?_
  exact .ite (.bind (.toCall (Action.beginRead_coded _ _)) fun _ => .bind (.set _) fun _ => .pure _)
    (.bind (beginTimedRead_coded _ _ _) fun _ => .pure _)

end MemoryBackend

/-! ## The serialized backend -/

namespace SerializeBackend

theorem onDisk_coded {α : Type} (m : DiskM α) : EStateM.FailsOnly Fault.Coded (onDisk m) := by
  rintro ⟨b, d⟩ e t failed
  rw [run_onDisk] at failed
  split at failed
  · cases failed
  · cases failed
    exact Failure.coded_backend _

theorem push_coded (uid : Nat) : EStateM.FailsOnly Fault.Coded (push uid) := .modify _

theorem actionOf_coded (b : SerializeBackend) (ctx : Context) :
    Except.FailsOnly Failure.Coded (b.actionOf ctx) := by
  unfold actionOf
  refine .bind (Context.operationUid_coded ctx) fun key _ => ?_
  split
  · exact .ok _
  · exact .error (Failure.coded_backend _)

theorem openPulse_coded (e : DataEntry) (mode : OpenMode) :
    EStateM.FailsOnly Fault.Coded (openPulse e mode) := by
  unfold openPulse
  refine .bind (push_coded _) fun _ => .bind (.modify _) fun _ => ?_
  refine .ite (.pure _) (.ite (.get_bind fun _ => ?_) ?_)
  · -- an entry opened as it is must exist
    split
    · exact .pure _
    · exact .raise (Failure.coded_backend _)
  · exact .ite (onDisk_coded _)
      (.ite (.bind (onDisk_coded _) fun _ => onDisk_coded _) (.raise (Failure.coded_backend _)))

theorem closePulse_coded (mode : CloseMode) : EStateM.FailsOnly Fault.Coded (closePulse mode) := by
  unfold closePulse
  exact .bind (.modify _) fun _ => .get_bind fun _ => .ite (onDisk_coded _) (.pure _)

theorem beginAction_coded (op : Operation) : EStateM.FailsOnly Fault.Coded (beginAction op) := by
  unfold beginAction
  dsimp only
  -- only global operations are served
  refine .ite (.raise_bind (Failure.coded_backend _) _) ?_
  refine .bind (push_coded _) fun _ => .get_bind ?_
  rintro ⟨b, d⟩
  -- a write starts empty; a read takes the loaded frame, the object's file or nothing, and a
  -- file that does not read is a backend failure
  refine .ite (.bind (.pure _) fun _ => .modify _) ?_
  split
  · exact .bind (.set _) fun _ => .bind (.pure _) fun _ => .modify _
  · refine .ite (.bind (.pure _) fun _ => .modify _) ?_
    split
    · exact .bind (.pure _) fun _ => .modify _
    · exact .raise_bind (Failure.coded_backend _) _

theorem endAction_coded (ctx : Context) : EStateM.FailsOnly Fault.Coded (endAction ctx) := by
  unfold endAction
  refine .get_bind ?_
  rintro ⟨b, d⟩
  dsimp only
  split
  · exact .raise (Failure.coded_backend _)
  · -- contexts ended out of order are refused
    refine .ite (.raise_bind (Failure.coded_backend _) _) (.bind (.set _) fun _ => ?_)
    split
    · exact .pure _
    · exact .bind (.toCall (actionOf_coded _ _)) fun _ =>
        .bind (.toCall (Action.endArray_coded _ _)) fun _ => .set _
    · refine .bind (.toCall (actionOf_coded _ _)) fun _ => .bind (.set _) fun _ => ?_
      exact .ite (.pure _) (.ite (onDisk_coded _) (onDisk_coded _))

theorem writeData_coded (ctx : Context) (field timebase : String) (data : Buffer) :
    EStateM.FailsOnly Fault.Coded (writeData ctx field timebase data) := by
  unfold writeData
  refine .get_bind ?_
  rintro ⟨b, d⟩
  dsimp only
  refine .ite ?_ ?_
  · -- a frame that does not read, or whose tree does not decode, is a backend failure
    split
    · exact .raise (Failure.coded_backend _)
    · split
      · exact .raise (Failure.coded_backend _)
      · exact .set _
  · refine .bind (.toCall (actionOf_coded b ctx)) fun found => ?_
    exact .ite (.raise_bind (Failure.coded_backend _) _)
      (.bind (.toStep (Action.writeLeaf_coded _ _ _ _ _)) fun _ => .set _)

theorem readData_coded (ctx : Context) (field : String) :
    EStateM.FailsOnly Fault.Coded (readData ctx field) := by
  unfold readData
  refine .get_bind ?_
  rintro ⟨b, d⟩
  dsimp only
  refine .bind (.toCall (actionOf_coded b ctx)) fun found => ?_
  -- the frame of a staged object is only read in a write, and fields only in a read
  exact .ite (.ite (.raise_bind (Failure.coded_backend _) _) (.pure _))
    (.ite (.raise_bind (Failure.coded_backend _) _)
      (.bind (.toCall (Action.view_coded _ _)) fun _ => .toCall (Action.readLeaf_coded _ _ _)))

theorem beginArray_coded (c : ArrayContext) (size : Int) :
    EStateM.FailsOnly Fault.Coded (beginArray c size) := by
  unfold beginArray
  refine .get_bind ?_
  rintro ⟨b, d⟩
  dsimp only
  refine .bind (.toCall (actionOf_coded b _)) fun found =>
    .bind (push_coded _) fun _ => .get_bind fun _ => ?_
  refine .ite (.ite (.bind (.set _) fun _ => .pure _)
    (.bind (.toCall (Action.beginWrite_coded _ _ _)) fun _ => .bind (.set _) fun _ => .pure _)) ?_
  exact .bind (.toCall (Action.beginRead_coded _ _)) fun _ => .bind (.set _) fun _ => .pure _

end SerializeBackend

/-! ## Backends -/

namespace EStateM.FailsOnly

variable {α : Type} {P : Fault → Prop}

theorem onMemory (b : MemoryBackend) {call : MemoryCall α} (first : EStateM.FailsOnly P call) :
    EStateM.FailsOnly P (Backend.onMemory b call) := by
  intro x e t failed
  rw [Backend.run_onMemory] at failed
  split at failed
  · cases failed
  · next b' st ran =>
    cases failed
    exact first _ _ _ ran

theorem onSerialize (b : SerializeBackend) {call : SerializeCall α}
    (first : EStateM.FailsOnly P call) : EStateM.FailsOnly P (Backend.onSerialize b call) := by
  intro x e t failed
  rw [Backend.run_onSerialize] at failed
  split at failed
  · cases failed
  · next b' d ran =>
    cases failed
    exact first _ _ _ ran

theorem dispatch (none : α) {memory : MemoryCall α} {serialize : SerializeCall α}
    (inMemory : EStateM.FailsOnly P memory) (serialized : EStateM.FailsOnly P serialize) :
    EStateM.FailsOnly P (Backend.dispatch none memory serialize) := by
  unfold Backend.dispatch
  refine .get_bind fun x => ?_
  split
  · exact .pure _
  · exact onMemory _ inMemory
  · exact onSerialize _ serialized

theorem onBackend (i : Nat) {call : BackendCall α} (first : EStateM.FailsOnly P call) :
    EStateM.FailsOnly P (Session.onBackend i call) := by
  intro s e t failed
  rw [Session.run_onBackend] at failed
  split at failed
  · cases failed
  · next b m ran =>
    cases failed
    exact first _ _ _ ran

end EStateM.FailsOnly

theorem Factory.make_coded (f : Factory) (env : Environment) (e : DataEntry) :
    Except.FailsOnly Failure.Coded (f.make env e) := by
  unfold Factory.make
  split_ifs
  · exact .ok _
  · exact .ok _
  · exact .ok _
  · split
    · exact .ok _
    · exact .error (Failure.coded_backend _)
  · exact .error (Failure.coded_backend _)

namespace Backend

theorem openPulse_coded (e : DataEntry) (mode : OpenMode) :
    EStateM.FailsOnly Fault.Coded (openPulse e mode) :=
  .dispatch () (MemoryBackend.openPulse_coded e mode) (SerializeBackend.openPulse_coded e mode)

theorem closePulse_coded (e : DataEntry) (mode : CloseMode) :
    EStateM.FailsOnly Fault.Coded (closePulse e mode) :=
  .dispatch () (MemoryBackend.closePulse_coded e mode) (SerializeBackend.closePulse_coded mode)

theorem beginAction_coded (op : Operation) : EStateM.FailsOnly Fault.Coded (beginAction op) :=
  .dispatch () (MemoryBackend.beginAction_coded op) (SerializeBackend.beginAction_coded op)

theorem endAction_coded (ctx : Context) : EStateM.FailsOnly Fault.Coded (endAction ctx) :=
  .dispatch () (MemoryBackend.endAction_coded ctx) (SerializeBackend.endAction_coded ctx)

theorem writeData_coded (ctx : Context) (field timebase : String) (data : Buffer) :
    EStateM.FailsOnly Fault.Coded (writeData ctx field timebase data) :=
  .dispatch () (MemoryBackend.writeData_coded ctx field timebase data)
    (SerializeBackend.writeData_coded ctx field timebase data)

theorem readData_coded (ctx : Context) (field timebase : String) :
    EStateM.FailsOnly Fault.Coded (readData ctx field timebase) :=
  .dispatch none (MemoryBackend.readData_coded ctx field timebase)
    (SerializeBackend.readData_coded ctx field)

theorem deleteData_coded (op : Operation) (path : String) :
    EStateM.FailsOnly Fault.Coded (deleteData op path) :=
  .dispatch () (MemoryBackend.deleteData_coded op path) (.pure ())

theorem beginArray_coded (c : ArrayContext) (size : Int) :
    EStateM.FailsOnly Fault.Coded (beginArray c size) :=
  .dispatch 0 (MemoryBackend.beginArray_coded c size) (SerializeBackend.beginArray_coded c size)

theorem occurrences_coded (e : DataEntry) (name : String) :
    EStateM.FailsOnly Fault.Coded (occurrences e name) := by
  unfold occurrences
  exact .get_bind fun x => .dispatch [] (.pure _) (.raise (Failure.coded_backend _))

end Backend

/-! ## Sessions -/

namespace Session

theorem add_coded (backend : Nat) (ctx : Context) :
    EStateM.FailsOnly Fault.Coded (add backend ctx) := .modifyGet _

theorem note_coded (level : LogLevel) (message : String) :
    EStateM.FailsOnly Fault.Coded (note level message) := .modify _

theorem lookup_coded (id : Int) : EStateM.FailsOnly Fault.Coded (lookup id) := by
  unfold lookup
  refine .get_bind fun s => ?_
  split
  · exact .pure _
  · exact .raise (Failure.coded_lowlevel _)

theorem del_coded (id : Int) : EStateM.FailsOnly Fault.Coded (del id) := by
  unfold del
  exact .bind (lookup_coded id) fun _ => .bind (.modify _) fun _ => .pure _

theorem entryOf_coded (id : Int) : EStateM.FailsOnly Fault.Coded (entryOf id) := by
  unfold entryOf
  refine .bind (lookup_coded id) fun sl => ?_
  split
  · exact .pure _
  · exact .raise (Failure.coded_lowlevel _)

theorem operation_coded (build : Nat → Except OperationError Operation) :
    EStateM.FailsOnly Fault.Coded (operation build) := by
  unfold operation
  refine .get_bind fun s => ?_
  dsimp only
  split
  · exact .bind (.set _) fun _ => .pure _
  · exact .bind (.set _) fun _ => .raise (OperationError.coded_failure _)
  · exact .raise (OperationError.coded_failure _)

theorem beginDataEntry_coded (uri : String) (mode : OpenMode) :
    EStateM.FailsOnly Fault.Coded (beginDataEntry uri mode) := by
  unfold beginDataEntry
  refine .get_bind fun s => ?_
  dsimp only
  -- an unresolved URI is refused with the failure of its reason; the rest is the same after it
  split
  · refine .bind (.pure _) fun de => ?_
    refine .bind (.set _) fun _ => .bind (.toCall (Factory.make_coded _ _ _)) fun be =>
      .bind (note_coded _ _) fun _ => .get_bind fun _ => .bind (.modify _) fun _ =>
      .bind (add_coded _ _) fun id => ?_
    -- a refused opening frees the slot again and passes its failure on
    exact .bind (.tryCatch (.onBackend _ (Backend.openPulse_coded _ _)) fun e coded =>
      .bind (del_coded _) fun _ => .throw coded) fun _ => .bind (note_coded _ _) fun _ => .pure _
  · exact .raise_bind (EntryError.coded_failure _) _

theorem closePulse_coded (id : Int) (mode : CloseMode) :
    EStateM.FailsOnly Fault.Coded (closePulse id mode) := by
  unfold closePulse
  exact .bind (entryOf_coded id) fun _ => .bind (note_coded _ _) fun _ =>
    .onBackend _ (Backend.closePulse_coded _ _)

theorem beginOperation_coded (sl : Slot) (op : Operation) :
    EStateM.FailsOnly Fault.Coded (beginOperation sl op) := by
  unfold beginOperation
  exact .bind (.onBackend _ (Backend.beginAction_coded op)) fun _ => .bind (add_coded _ _) fun _ =>
    .bind (note_coded _ _) fun _ => .pure _

theorem beginGlobal_coded (id : Int) (name datapath : String) (access : AccessMode) :
    EStateM.FailsOnly Fault.Coded (beginGlobal id name datapath access) := by
  unfold beginGlobal
  exact .bind (entryOf_coded id) fun _ => .bind (operation_coded _) fun _ =>
    beginOperation_coded _ _

theorem beginSlice_coded (id : Int) (name : String) (access : AccessMode) (time : Float)
    (interp : InterpMode) : EStateM.FailsOnly Fault.Coded (beginSlice id name access time interp) := by
  unfold beginSlice
  exact .bind (entryOf_coded id) fun _ => .bind (operation_coded _) fun _ =>
    beginOperation_coded _ _

theorem beginTimeRange_coded (id : Int) (name : String) (access : AccessMode) (tmin tmax : Float)
    (dtime : List Float) (interp : InterpMode) :
    EStateM.FailsOnly Fault.Coded (beginTimeRange id name access tmin tmax dtime interp) := by
  unfold beginTimeRange
  refine .bind (lookup_coded id) fun sl => .get_bind fun s => ?_
  dsimp only
  -- a backend without time ranges is refused, and so is a context that is no data entry
  refine .ite (.raise_bind (Failure.coded_lowlevel _) _) ?_
  split
  · exact .bind (.pure _) fun _ => .bind (operation_coded _) fun _ => beginOperation_coded _ _
  · exact .raise_bind (Failure.coded_lowlevel _) _

theorem beginArray_coded (id : Int) (path timebase : String) (size : Int) :
    EStateM.FailsOnly Fault.Coded (beginArray id path timebase size) := by
  unfold beginArray
  refine .bind (lookup_coded id) fun sl => .get_bind fun s => ?_
  dsimp only
  split
  case h_3 => exact .raise_bind (Failure.coded_lowlevel _) _
  -- below an array or an operation alike
  all_goals
    refine .bind (.pure _) fun c => .bind (.set _) fun _ =>
      .bind (.onBackend _ (Backend.beginArray_coded _ _)) fun n => ?_
    -- an empty array is ended at once, and a negative size refused after its end
    exact .ite (.bind (.onBackend _ (Backend.endAction_coded _)) fun _ =>
        .ite (.raise_bind (Failure.coded_lowlevel _) _) (.pure _))
      (.bind (add_coded _ _) fun _ => .bind (note_coded _ _) fun _ => .pure _)

theorem iterate_coded (id step : Int) : EStateM.FailsOnly Fault.Coded (iterate id step) := by
  unfold iterate
  refine .bind (lookup_coded id) fun sl => ?_
  split
  · exact .modify _
  · exact .raise (Failure.coded_lowlevel _)

theorem endAction_coded (id : Int) : EStateM.FailsOnly Fault.Coded (endAction id) := by
  unfold endAction
  exact .ite (.pure _) (.bind (del_coded id) fun _ => .bind (note_coded _ _) fun _ =>
    .get_bind fun _ => .onBackend _ (Backend.endAction_coded _))

theorem writeData_coded (id : Int) (field timebase : String) (data : Buffer) :
    EStateM.FailsOnly Fault.Coded (writeData id field timebase data) := by
  unfold writeData
  exact .ite (.pure _) (.bind (lookup_coded id) fun _ =>
    .get_bind fun _ => .onBackend _ (Backend.writeData_coded _ _ _ _))

theorem readData_coded (id : Int) (field timebase : String) (dt : DataType) (dim : Int) :
    EStateM.FailsOnly Fault.Coded (readData id field timebase dt dim) := by
  unfold readData
  refine .bind (lookup_coded id) fun sl => .get_bind fun s => ?_
  refine .bind (.onBackend _ (Backend.readData_coded _ _ _)) fun found => ?_
  split
  · exact .toCall (Buffer.unset_coded _ _)
  · -- data of another dimension is refused, data of another type converted
    exact .ite (.raise (Failure.coded_lowlevel _))
      (.ite (.bind (note_coded _ _) fun _ => .toCall (Buffer.convert_coded _ _ _)) (.pure _))

theorem deleteData_coded (id : Int) (path : String) :
    EStateM.FailsOnly Fault.Coded (deleteData id path) := by
  unfold deleteData
  refine .bind (lookup_coded id) fun sl => ?_
  split
  · exact .onBackend _ (Backend.deleteData_coded _ _)
  · exact .raise (Failure.coded_lowlevel _)

theorem occurrences_coded (id : Int) (name : String) :
    EStateM.FailsOnly Fault.Coded (occurrences id name) := by
  unfold occurrences
  exact .bind (entryOf_coded id) fun _ => .onBackend _ (Backend.occurrences_coded _ _)

theorem contextInfo_coded (id : Int) (pointer : Nat → String) :
    EStateM.FailsOnly Fault.Coded (contextInfo id pointer) := by
  unfold contextInfo
  exact .ite (.pure _) (.bind (lookup_coded id) fun _ => .get_bind fun _ => .pure _)

theorem backendId_coded (id : Int) : EStateM.FailsOnly Fault.Coded (backendId id) := by
  unfold backendId
  exact .bind (lookup_coded id) fun _ => .pure _

/-- A call fails, from any state, with coded failures only. -/
theorem Call.perform_coded (c : Call) : EStateM.FailsOnly Fault.Coded c.perform := by
  cases c with
  | beginDataEntry uri mode => exact .map (beginDataEntry_coded uri mode) _
  | closePulse id mode => exact .map (closePulse_coded id mode) _
  | beginGlobal id name datapath access => exact .map (beginGlobal_coded id name datapath access) _
  | beginSlice id name access time interp => exact .map (beginSlice_coded id name access time interp) _
  | beginTimeRange id name access tmin tmax dtime interp =>
    exact .map (beginTimeRange_coded id name access tmin tmax dtime interp) _
  | beginArray id path timebase size => exact .map (beginArray_coded id path timebase size) _
  | iterate id step => exact .map (iterate_coded id step) _
  | endAction id => exact .map (endAction_coded id) _
  | writeData id field timebase data => exact .map (writeData_coded id field timebase data) _
  | readData id field timebase dt dim => exact .map (readData_coded id field timebase dt dim) _
  | deleteData id path => exact .map (deleteData_coded id path) _
  | occurrences id name => exact .map (occurrences_coded id name) _
  | contextInfo id pointer => exact .map (contextInfo_coded id pointer) _
  | backendId id => exact .map (backendId_coded id) _

/-- Whatever state a session is in, and so after any sequence of calls on entries of any
backend, a call that fails reports a failure with the code of a layer: its status is never the
unknown status. -/
theorem call_failures_carry_code (c : Call) (s t : Session) (f : Failure)
    (failed : c.perform.run s = .error (.failure f) t) :
    f.Coded ∧ Failure.statusOf (some f) ≠ -1 := by
  have coded : f.Coded := Call.perform_coded c s _ t failed
  refine ⟨coded, ?_⟩
  rcases coded.status with status | status | status <;> rw [status] <;> decide

/-- Ending a context that was never opened is a failure of the table of open contexts. -/
theorem ending_unknown_context_is_coded :
    (Call.endAction 3).perform.run ({ env := {} } : Session) =
        .error (.failure (Failure.noContext 3)) { env := {} } ∧
      (Failure.noContext 3).Coded ∧ Failure.statusOf (some (Failure.noContext 3)) ≠ -1 := by
  have failed : (Call.endAction 3).perform.run ({ env := {} } : Session) =
      .error (.failure (Failure.noContext 3)) { env := {} } := rfl
  exact ⟨failed, call_failures_carry_code _ _ _ _ failed⟩

end Session

end AccessLayer
