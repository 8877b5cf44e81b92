import Mathlib
import AccessLayer.Proofs.SlotTable
import AccessLayer.Proofs.FailedBackendCalls
/-!
What a failed call of a session leaves behind. Every call but one checks what can refuse it
before it changes what other calls see, or changes only what no later call reads: the backend
it makes for a data entry it could not open holds no action, and the slot it took is freed
again. The one call that changes the table first is the end of a context, which frees its
identifier before its backend ends the action; two others change staged or stored data before
they fail: opening an array of a write with a negative size, and opening a data entry in a mode
that makes its directory.

Main statement: `Session.failed_call_changes_nothing`.
-/

namespace AccessLayer

/-- The factory makes backends with no action open. -/
theorem Factory.make_staged {f : Factory} {env : Environment} {de : DataEntry} {be : Backend}
    (made : f.make env de = .ok be) : be.staged = fun _ => none := by
  unfold Factory.make at made
  split_ifs at made
  · cases made; rfl
  · cases made; rfl
  · cases made; rfl
  · split at made
    · cases made; rfl
    · cases made

/-! ## The calls of a session -/

/-- A run whose failure passes a check, as evaluation finds it: it failed, leaving a state that
passes. -/
theorem exists_error_of_check {ε σ α : Type} {r : EStateM.Result ε σ α} {p : σ → Bool}
    (check : (match r with | .error _ t => p t | .ok _ _ => false) = true) :
    ∃ e t, r = .error e t ∧ p t = true := by
  cases r with
  | ok a t => cases check
  | error e t => exact ⟨e, t, rfl, check⟩

namespace Session

variable {μ : Type} {g : Medium → μ}

/-- The staged trees of a session's open writes, by backend and operation, with a view `g` of
the medium its backends share. -/
def keptWith (g : Medium → μ) (s : Session) : (Nat → Nat → Option Tree) × μ :=
  (fun i => (s.backends.getD i .empty).staged, g s.medium)

theorem run_onBackend {α : Type} (i : Nat) (call : BackendCall α) (s : Session) :
    (onBackend i call).run s =
      match call.run (s.backends.getD i .empty, s.medium) with
      | .ok a (b, m) => .ok a { s with backends := s.backends.set i b, medium := m }
      | .error e (b, m) => .error e { s with backends := s.backends.set i b, medium := m } := rfl

/-- Putting back a backend that stages what the one it replaces staged keeps every backend's
staged trees. -/
theorem staged_getD_set {backends : List Backend} {i : Nat} {b : Backend}
    (same : b.staged = (backends.getD i .empty).staged) (j : Nat) :
    ((backends.set i b).getD j .empty).staged = (backends.getD j .empty).staged := by
  simp only [List.getD_eq_getElem?_getD, List.getElem?_set]
  by_cases here : i = j
  · subst here
    by_cases within : i < backends.length
    · rw [if_pos rfl, if_pos within, Option.getD_some, same, List.getD_eq_getElem?_getD]
    · rw [if_pos rfl, if_neg within, List.getElem?_eq_none (by omega)]
  · rw [if_neg here]

/-- A backend call that fails leaving the staged trees and the medium does so in the session. -/
theorem failsLeaving_onBackend {α : Type} {i : Nat} {call : BackendCall α} {s : Session}
    (fails : FailsLeaving (Backend.keptWith g) (s.backends.getD i .empty, s.medium) call) :
    FailsLeaving (keptWith g) s (onBackend i call) := by
  intro e t failed
  rw [run_onBackend] at failed
  cases ran : call.run (s.backends.getD i .empty, s.medium) with
  | ok a y => rw [ran] at failed; cases failed
  | error e' y =>
    rw [ran] at failed
    cases failed
    obtain ⟨staged, medium⟩ := Prod.mk.inj (fails _ _ ran)
    simp only [keptWith, medium]
    congr 1
    funext j
    exact staged_getD_set staged j

/-- A backend call that fails leaving a view of the medium does so in the session. -/
theorem failsLeaving_onBackend_medium {α : Type} {i : Nat} {call : BackendCall α} {s : Session}
    (fails : FailsLeaving (fun x : Backend × Medium => g x.2) (s.backends.getD i .empty, s.medium) call) :
    FailsLeaving (fun s : Session => g s.medium) s (onBackend i call) := by
  intro e t failed
  rw [run_onBackend] at failed
  cases ran : call.run (s.backends.getD i .empty, s.medium) with
  | ok a y => rw [ran] at failed; cases failed
  | error e' y =>
    rw [ran] at failed
    cases failed
    exact fails _ _ ran

theorem set_getD_self (backends : List Backend) (i : Nat) :
    backends.set i (backends.getD i .empty) = backends := by
  by_cases within : i < backends.length
  · rw [List.getD_eq_getElem _ _ within]
    exact List.set_getElem_self within
  · exact List.set_eq_of_length_le (by omega)

/-- A backend call that changes nothing changes nothing in the session. -/
theorem leaves_onBackend {τ α : Type} {view : Session → τ} {i : Nat} {call : BackendCall α} {s : Session}
    (leaves : Leaves id (s.backends.getD i .empty, s.medium) call) : Leaves view s (onBackend i call) := by
  unfold Leaves at leaves ⊢
  rw [run_onBackend]
  cases ran : call.run (s.backends.getD i .empty, s.medium) with
  | ok a y =>
    rw [ran] at leaves
    cases leaves
    simp only [set_getD_self, EStateM.Result.state_ok]
  | error e y =>
    rw [ran] at leaves
    cases leaves
    simp only [set_getD_self, EStateM.Result.state_error]

/-- A backend call that always answers answers in the session. -/
theorem onBackend_answers {α : Type} {i : Nat} {call : BackendCall α} {s : Session}
    (answers : ∀ e y, call.run (s.backends.getD i .empty, s.medium) ≠ .error e y) (e : Fault) (t : Session) :
    (onBackend i call).run s ≠ .error e t := by
  intro failed
  rw [run_onBackend] at failed
  cases ran : call.run (s.backends.getD i .empty, s.medium) with
  | ok a y => rw [ran] at failed; cases failed
  | error e' y => exact answers e' y ran

/-- Adding a backend that stages nothing keeps what every backend stages. -/
theorem keptWith_append_fresh {be : Backend} (fresh : be.staged = fun _ => none) (s : Session) :
    keptWith g { s with backends := s.backends ++ [be] } = keptWith g s := by
  simp only [keptWith]
  congr 1
  funext i
  by_cases within : i < s.backends.length
  · rw [List.getD_append _ _ _ _ within]
  · have beyond : s.backends.getD i .empty = .empty := List.getD_eq_default _ _ (by omega)
    rw [List.getD_append_right _ _ _ _ (by omega), beyond]
    cases i - s.backends.length with
    | zero =>
      rw [List.getD_cons_zero, fresh]
      rfl
    | succ k => simp [Backend.staged]

section Primitives

variable {τ : Type} {view : Session → τ} {s : Session}

theorem leaves_lookup (id : Int) : Leaves view s (lookup id) := by
  unfold Leaves
  rw [run_lookup]
  cases s.slot? id <;> rfl

theorem leaves_entryOf (id : Int) : Leaves view s (entryOf id) := by
  unfold entryOf
  refine (leaves_lookup id).bind fun sl u _ => ?_
  split
  · exact leaves_pure _
  · exact leaves_raise _

theorem leaves_add (backend : Nat) (ctx : Context) : Leaves (keptWith g) s (add backend ctx) := rfl

theorem leaves_note (level : LogLevel) (message : String) : Leaves (keptWith g) s (note level message) :=
  rfl

theorem leaves_del (id : Int) : Leaves (keptWith g) s (del id) := by
  unfold Leaves
  rw [run_del]
  cases s.slot? id <;> rfl

theorem leaves_operation (build : Nat → Except OperationError Operation) :
    Leaves (keptWith g) s (operation build) := by
  unfold Leaves operation
  simp only [EStateM.run_bind, EStateM.run_get]
  split <;> rfl

end Primitives

section Calls

variable (s : Session)

theorem failsLeaving_closePulse (id : Int) (mode : CloseMode) :
    FailsLeaving (keptWith g) s (closePulse id mode) := by
  unfold closePulse
  refine FailsLeaving.bind_leaves (leaves_entryOf id) fun ⟨sl, de⟩ u _ => ?_
  refine FailsLeaving.bind_leaves (leaves_note _ _) fun _ v _ => ?_
  exact failsLeaving_onBackend (Backend.failsLeaving_closePulse _ de mode)

/-- Starting an operation fails on its backend or not at all: storing it and writing to the
journal always answer. -/
theorem failsLeaving_beginOperation (sl : Slot) (op : Operation) :
    FailsLeaving (keptWith g) s (beginOperation sl op) := by
  unfold beginOperation
  refine (failsLeaving_onBackend (Backend.failsLeaving_beginAction _ op)).bind_answers
    fun _ u _ e t ran => ?_
  cases ran

theorem failsLeaving_beginGlobal (id : Int) (name datapath : String) (access : AccessMode) :
    FailsLeaving (keptWith g) s (beginGlobal id name datapath access) := by
  unfold beginGlobal
  refine FailsLeaving.bind_leaves (leaves_entryOf id) fun ⟨sl, de⟩ u _ => ?_
  exact FailsLeaving.bind_leaves (leaves_operation _) fun op v _ => failsLeaving_beginOperation v sl op

theorem failsLeaving_beginSlice (id : Int) (name : String) (access : AccessMode) (time : Float)
    (interp : InterpMode) : FailsLeaving (keptWith g) s (beginSlice id name access time interp) := by
  unfold beginSlice
  refine FailsLeaving.bind_leaves (leaves_entryOf id) fun ⟨sl, de⟩ u _ => ?_
  exact FailsLeaving.bind_leaves (leaves_operation _) fun op v _ => failsLeaving_beginOperation v sl op

theorem failsLeaving_beginTimeRange (id : Int) (name : String) (access : AccessMode)
    (tmin tmax : Float) (dtime : List Float) (interp : InterpMode) :
    FailsLeaving (keptWith g) s (beginTimeRange id name access tmin tmax dtime interp) := by
  unfold beginTimeRange
  refine FailsLeaving.bind_leaves (leaves_lookup id) fun sl u _ => failsLeaving_get_bind ?_
  split_ifs
  · exact failsLeaving_raise_bind _ _
  split
  · refine FailsLeaving.bind_leaves (leaves_pure _) fun de v _ => ?_
    exact FailsLeaving.bind_leaves (leaves_operation _) fun op w _ => failsLeaving_beginOperation w sl op
  · exact failsLeaving_raise_bind _ _

theorem failsLeaving_writeData (id : Int) (field timebase : String) (data : Buffer) :
    FailsLeaving (keptWith g) s (writeData id field timebase data) := by
  unfold writeData
  split_ifs
  · exact failsLeaving_pure _
  · refine FailsLeaving.bind_leaves (leaves_lookup id) fun sl u _ => failsLeaving_get_bind ?_
    exact failsLeaving_onBackend (Backend.failsLeaving_writeData _ _ _ _ _)

theorem leaves_readData (id : Int) (field timebase : String) (dt : DataType) (dim : Int) :
    Leaves (keptWith g) s (readData id field timebase dt dim) := by
  unfold readData
  refine (leaves_lookup id).bind fun sl u _ => leaves_get_bind ?_
  refine (leaves_onBackend (Backend.leaves_readData _ _ _ _)).bind fun r v _ => ?_
  split
  · exact leaves_toCall _
  · split_ifs
    · exact leaves_raise _
    · exact (leaves_note _ _).bind fun _ _ _ => leaves_toCall _
    · exact leaves_pure _

theorem failsLeaving_deleteData (id : Int) (path : String) :
    FailsLeaving (keptWith g) s (deleteData id path) := by
  unfold deleteData
  refine FailsLeaving.bind_leaves (leaves_lookup id) fun sl u _ => ?_
  split
  · exact failsLeaving_onBackend (Backend.failsLeaving_deleteData _ _ _)
  · exact failsLeaving_raise _

theorem leaves_iterate (id step : Int) : Leaves (keptWith g) s (iterate id step) := by
  unfold iterate
  refine (leaves_lookup id).bind fun sl u _ => ?_
  split
  · rfl
  · exact leaves_raise _

theorem leaves_occurrences (id : Int) (name : String) : Leaves (keptWith g) s (occurrences id name) := by
  unfold occurrences
  exact (leaves_entryOf id).bind fun ⟨sl, de⟩ u _ => leaves_onBackend (Backend.leaves_occurrences _ de name)

theorem leaves_contextInfo (id : Int) (pointer : Nat → String) :
    Leaves (keptWith g) s (contextInfo id pointer) := by
  unfold contextInfo
  split_ifs
  · exact leaves_pure _
  · exact (leaves_lookup id).bind fun sl u _ => leaves_get_bind (leaves_pure _)

/-- An array a backend of the session opened has a size that is not negative unless a write
asked for a negative one, and ending it then always answers. -/
theorem onBackend_beginArray_then_end {i : Nat} {c : ArrayContext} {size n : Int} {u : Session}
    (ran : (onBackend i (Backend.beginArray c size)).run s = .ok n u) :
    (0 ≤ size → 0 ≤ n) ∧ ∀ e t, (onBackend i (Backend.endAction (.array c))).run u ≠ .error e t := by
  rw [run_onBackend] at ran
  cases opened : (Backend.beginArray c size).run (s.backends.getD i .empty, s.medium) with
  | error e y => rw [opened] at ran; cases ran
  | ok n' y =>
    rw [opened] at ran
    cases ran
    obtain ⟨sign, ends⟩ := Backend.beginArray_then_end opened
    refine ⟨sign, onBackend_answers fun e y' => ?_⟩
    by_cases within : i < s.backends.length
    · have back : (s.backends.set i y.1).getD i .empty = y.1 := by
        simp [List.getD_eq_getElem?_getD, within]
      simp only [back]
      exact ends e y'
    · have empty : (s.backends.set i y.1).getD i .empty = .empty := by
        simp [List.getD_eq_getElem?_getD, within]
      simp only [empty]
      intro failed
      cases failed

theorem failsLeaving_beginArray (id : Int) (path timebase : String) {size : Int} (sized : 0 ≤ size) :
    FailsLeaving (keptWith g) s (beginArray id path timebase size) := by
  unfold beginArray
  refine FailsLeaving.bind_leaves (leaves_lookup id) fun sl u _ => failsLeaving_get_bind ?_
  dsimp only
  split
  case h_3 => exact failsLeaving_raise_bind _ _
  -- below an array or an operation: the array is opened, ended at once when empty
  all_goals
    refine FailsLeaving.bind_leaves (leaves_pure _) fun c v built => ?_
    cases built
    refine failsLeaving_set_bind rfl ?_
    refine (failsLeaving_onBackend (Backend.failsLeaving_beginArray _ _ size)).bind_answers
      fun n w opened e t failed => ?_
    obtain ⟨sign, ends⟩ := onBackend_beginArray_then_end _ opened
    split_ifs at failed with empty negative
    · have := sign sized
      omega
    · exact answers_bind ends (fun _ _ _ _ _ answered => by cases answered) e t failed
    · cases failed

/-- Opening a data entry fails leaving what its backend's opening leaves: the backend it makes
holds no action, and the slot it took is freed again. -/
theorem failsLeaving_beginDataEntry {uri : String} {mode : OpenMode}
    (opens : ∀ de x, FailsLeaving (Backend.keptWith g) x (Backend.openPulse de mode)) :
    FailsLeaving (keptWith g) s (beginDataEntry uri mode) := by
  unfold beginDataEntry
  refine failsLeaving_get_bind ?_
  dsimp only
  split
  case h_2 => exact failsLeaving_raise_bind _ _
  refine FailsLeaving.bind_leaves (leaves_pure _) fun de v built => ?_
  cases built
  refine failsLeaving_set_bind rfl (failsLeaving_toCall_bind fun be made => ?_)
  refine FailsLeaving.bind_leaves (leaves_note _ _) fun _ w _ => failsLeaving_get_bind ?_
  refine failsLeaving_modify_bind (keptWith_append_fresh (Factory.make_staged made) w) ?_
  refine FailsLeaving.bind_leaves (leaves_add _ _) fun id x _ => ?_
  -- a refused opening frees the slot again and fails as the backend did
  refine (failsLeaving_tryCatch (failsLeaving_onBackend (opens _ _)) fun e y _ =>
    FailsLeaving.bind_leaves (leaves_del id) fun _ _ _ => (leaves_throw e).failsLeaving).bind_answers ?_
  intro _ _ _ e t answered
  cases answered

/-- Ending a context frees its identifier first, then may fail on its backend; the store stays
as it was. -/
theorem failsLeaving_endAction_store (id : Int) :
    FailsLeaving (fun s : Session => s.medium.store) s (endAction id) := by
  unfold endAction
  split_ifs
  · exact failsLeaving_pure _
  refine FailsLeaving.bind_leaves ((leaves_del (g := Medium.store) id).map Prod.snd) fun sl u _ => ?_
  refine FailsLeaving.bind_leaves ((leaves_note (g := Medium.store) _ _).map Prod.snd) fun _ v _ => ?_
  exact failsLeaving_get_bind (failsLeaving_onBackend_medium (Backend.failsLeaving_endAction_store _ _))

theorem leaves_backendId (id : Int) : Leaves (keptWith g) s (backendId id) := by
  unfold backendId
  exact (leaves_lookup id).bind fun sl u _ => leaves_pure _

end Calls

/-- Every failed call but an end leaves the staged trees of every backend and the view `g` of
the medium, provided opening a data entry does so on every backend and an array is not asked
for a negative size. -/
theorem failsLeaving_perform {c : Call} (notEnd : ∀ id, c ≠ .endAction id)
    (sized : ∀ id path timebase size, c = .beginArray id path timebase size → 0 ≤ size)
    (opens : ∀ uri mode, c = .beginDataEntry uri mode →
      ∀ de x, FailsLeaving (Backend.keptWith g) x (Backend.openPulse de mode))
    (s : Session) : FailsLeaving (keptWith g) s c.perform := by
  cases c with
  | beginDataEntry uri mode => exact (failsLeaving_beginDataEntry s (opens uri mode rfl)).map_answer _
  | closePulse id mode => exact (failsLeaving_closePulse s id mode).map_answer _
  | beginGlobal id name datapath access =>
    exact (failsLeaving_beginGlobal s id name datapath access).map_answer _
  | beginSlice id name access time interp =>
    exact (failsLeaving_beginSlice s id name access time interp).map_answer _
  | beginTimeRange id name access tmin tmax dtime interp =>
    exact (failsLeaving_beginTimeRange s id name access tmin tmax dtime interp).map_answer _
  | beginArray id path timebase size =>
    exact (failsLeaving_beginArray s id path timebase (sized id path timebase size rfl)).map_answer _
  | iterate id step => exact (leaves_iterate s id step).failsLeaving.map_answer _
  | endAction id => exact absurd rfl (notEnd id)
  | writeData id field timebase data => exact (failsLeaving_writeData s id field timebase data).map_answer _
  | readData id field timebase dt dim =>
    exact (leaves_readData s id field timebase dt dim).failsLeaving.map_answer _
  | deleteData id path => exact (failsLeaving_deleteData s id path).map_answer _
  | occurrences id name => exact (leaves_occurrences s id name).failsLeaving.map_answer _
  | contextInfo id pointer => exact (leaves_contextInfo s id pointer).failsLeaving.map_answer _
  | backendId id => exact (leaves_backendId s id).failsLeaving.map_answer _

/-! ## What a failed call leaves -/

/-- A failed call that ends no context leaves the table of contexts. -/
theorem failed_keeps_table {s t : Session} (wf : s.TableWF) {c : Call} (notEnd : ∀ id, c ≠ .endAction id)
    {e : Fault} (failed : c.perform.run s = .error e t) : SameTable s t := by
  have step := tableStep_perform wf c
  rw [failed] at step
  cases step with
  | keeps same _ => exact same
  | declines _ _ answered => cases answered
  | stores _ answered => cases answered
  | ends ended _ _ => exact absurd ended (notEnd _)

/-- Ending a context frees its identifier before its backend may refuse: after a refusal the
identifier is free, every other slot and the store are kept, and ending it again fails on the
free identifier, changing nothing. -/
theorem failed_end_frees {s t : Session} (wf : s.TableWF) {id : Int} {e : Fault}
    (failed : (Call.endAction id).perform.run s = .error e t) :
    t.medium.store = s.medium.store ∧ t.slot? id = none ∧ (∀ j, j ≠ id → t.slot? j = s.slot? j) ∧
      (Call.endAction id).perform.run t = .error (.failure (Failure.noContext id)) t := by
  have nonzero : id ≠ 0 := by
    rintro rfl
    simp [Call.perform, Session.endAction] at failed
  have freed := endAction_frees wf id
  rw [failed, EStateM.Result.state_error] at freed
  have ended : t = ((Session.endAction id).run s).state := by
    rw [← state_run_map (fun _ => (none : Option Int)), ← Call.perform, failed,
      EStateM.Result.state_error]
  refine ⟨(failsLeaving_endAction_store s id).map_answer _ e t failed, freed, fun j other => ?_,
    perform_of_free rfl nonzero freed rfl⟩
  cases held : s.slot? id with
  | none =>
    rw [perform_of_free rfl nonzero held rfl] at failed
    cases failed
    rfl
  | some sl =>
    rw [ended]
    exact (endAction_removes nonzero held).others j other

/-- A failed call leaves the table of contexts, the staged tree of every open write and the
committed data, but for three calls. Ending a context frees its identifier before its backend
may refuse: the identifier stays free, every other slot and the store are kept, and ending it
again fails on the free identifier and changes nothing. Opening an array of a write with a
negative size lets the backend open the array before the size is refused. Opening a data entry
in a mode that makes its directory may leave directories made before it failed. -/
theorem failed_call_changes_nothing {s : Session} (reach : Reachable s) {c : Call} {e : Fault}
    {t : Session} (failed : c.perform.run s = .error e t) :
    ((∀ id, c ≠ .endAction id) → SameTable s t) ∧
    ((∀ id, c ≠ .endAction id) → (∀ id path timebase size, c = .beginArray id path timebase size → 0 ≤ size) →
      (∀ i key, (t.backends.getD i .empty).staged key = (s.backends.getD i .empty).staged key) ∧
      t.medium.store = s.medium.store ∧
      ((∀ uri mode, c = .beginDataEntry uri mode → mode.makesDirectory = false) →
        t.medium.disk = s.medium.disk)) ∧
    (∀ id, c = .endAction id → t.medium.store = s.medium.store ∧ t.slot? id = none ∧
      (∀ j, j ≠ id → t.slot? j = s.slot? j) ∧
      (Call.endAction id).perform.run t = .error (.failure (Failure.noContext id)) t) := by
  have wf := reach.tableWF
  refine ⟨fun notEnd => failed_keeps_table wf notEnd failed, fun notEnd sized => ?_, ?_⟩
  · have kept := failsLeaving_perform (g := Medium.store) notEnd sized
      (fun _ mode _ de x => Backend.failsLeaving_openPulse_store x de mode) s e t failed
    obtain ⟨staged, stored⟩ := Prod.mk.inj kept
    refine ⟨fun i key => congrFun (congrFun staged i) key, stored, fun keeps => ?_⟩
    have whole := failsLeaving_perform (g := id) notEnd sized
      (fun uri mode opened _ x => Backend.failsLeaving_openPulse x (keeps uri mode opened)) s e t failed
    exact congrArg Medium.disk (Prod.mk.inj whole).2
  · rintro id rfl
    exact failed_end_frees wf failed

/-- Opening an entry the store does not hold fails after the session made its backend and took a
slot: the slot is freed again, and the staged trees, the store and the disk are as before. -/
theorem missing_entry_open_fails_cleanly :
    ∃ e t, (Call.beginDataEntry "imas:memory?path=/q" .openEntry).perform.run { env := {} } =
        .error e t ∧ t.backends.length = 1 ∧ SameTable { env := {} } t ∧
      (∀ i key, (t.backends.getD i .empty).staged key =
        (({ env := {} } : Session).backends.getD i .empty).staged key) ∧
      t.medium.store = ({ env := {} } : Session).medium.store ∧
      t.medium.disk = ({ env := {} } : Session).medium.disk := by
  obtain ⟨e, t, failed, grown⟩ := exists_error_of_check (p := fun t => t.backends.length == 1)
    (r := (Call.beginDataEntry "imas:memory?path=/q" .openEntry).perform.run { env := {} })
    (by decide +kernel)
  have facts := failed_call_changes_nothing (Reachable.fresh { env := {} }) failed
  have notEnd : ∀ id, Call.beginDataEntry "imas:memory?path=/q" .openEntry ≠ .endAction id :=
    fun _ ended => by cases ended
  obtain ⟨staged, stored, disk⟩ := facts.2.1 notEnd (fun _ _ _ _ opened => by cases opened)
  exact ⟨e, t, failed, by simpa using grown, facts.1 notEnd, staged, stored,
    disk fun _ _ opened => by cases opened; rfl⟩

/-- Three failed calls that change what later calls see. Ending the first of two reads of a
serialized entry fails on the nesting of contexts after freeing its identifier. Opening an array
of size -1 in a global write puts an empty array in the staged tree before the size is refused.
Opening, in a mode that makes directories, a directory through a file that lies in no directory
makes the missing directory before it fails. -/
theorem failures_that_change_state :
    (∃ s e t, Reachable s ∧ (Call.endAction 2).perform.run s = .error e t ∧
      s.slot? 2 ≠ none ∧ t.slot? 2 = none) ∧
    (∃ s e t, Reachable s ∧ (Call.beginArray 2 "a" "" (-1)).perform.run s = .error e t ∧
      ((t.backends.getD 0 .empty).staged 2).map Tree.paths = some ["a"] ∧
      ((s.backends.getD 0 .empty).staged 2).map Tree.paths = some []) ∧
    (∃ s e t, Reachable s ∧ (Call.beginDataEntry "imas:serialize?path=a/f" .forceOpen).perform.run s =
      .error e t ∧ t.medium.disk.entries.map Prod.fst = ["a", "a/f"] ∧
      s.medium.disk.entries.map Prod.fst = ["a/f"]) := by
  refine ⟨?_, ?_, ?_⟩
  · let reading : Session := ((Call.beginGlobal 1 "y" "" .read).perform.run
      ((Call.beginGlobal 1 "x" "" .read).perform.run
        ((Call.beginDataEntry "imas:serialize?path=d" .create).perform.run { env := {} }).state).state).state
    have reach : Reachable reading := .step _ (.step _ (.step _ (.fresh { env := {} })))
    obtain ⟨e, t, failed, freed⟩ := exists_error_of_check
      (p := fun t => (reading.slot? 2).isSome && (t.slot? 2).isNone)
      (r := (Call.endAction 2).perform.run reading) (by decide +kernel)
    simp only [Bool.and_eq_true, Option.isSome_iff_ne_none, Option.isNone_iff_eq_none] at freed
    exact ⟨reading, e, t, reach, failed, freed⟩
  · let writing : Session := ((Call.beginGlobal 1 "obj" "" .write).perform.run
      ((Call.beginDataEntry "imas:memory?path=/p" .create).perform.run { env := {} }).state).state
    have reach : Reachable writing := .step _ (.step _ (.fresh { env := {} }))
    obtain ⟨e, t, failed, replaced⟩ := exists_error_of_check
      (p := fun t => ((t.backends.getD 0 .empty).staged 2).map Tree.paths == some ["a"] &&
        ((writing.backends.getD 0 .empty).staged 2).map Tree.paths == some [])
      (r := (Call.beginArray 2 "a" "" (-1)).perform.run writing) (by decide +kernel)
    simp only [Bool.and_eq_true, beq_iff_eq] at replaced
    exact ⟨writing, e, t, reach, failed, replaced⟩
  · let orphan : Session := { env := {}, medium := { disk := { entries := [("a/f", .file [])] } } }
    have reach : Reachable orphan := .fresh orphan
    obtain ⟨e, t, failed, made⟩ := exists_error_of_check
      (p := fun t => t.medium.disk.entries.map Prod.fst == ["a", "a/f"])
      (r := (Call.beginDataEntry "imas:serialize?path=a/f" .forceOpen).perform.run orphan)
      (by decide +kernel)
    exact ⟨orphan, e, t, reach, failed, by simpa using made, rfl⟩

end Session

end AccessLayer
