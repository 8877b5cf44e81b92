import Mathlib
import AccessLayer.Proofs.MemoryIsolation
/-!
What a failed backend call leaves behind. A call runs in a state monad whose failure keeps the
state at the point of failure, so a call is atomic only when every check that can refuse it
comes before its first change, or when what it changed before failing is not part of what is
looked at.

`FailsLeaving view s m` says that every failure of `m` from `s` leaves `view` of the state as in
`s`, and `AnswersWith P s m` what every answer leaves. Here the view is the staged tree of every
open write, by operation, with the committed data: the memory store and the disk. The lemmas go
up the layers: the disk, the memory and serialized backends, and the dispatch to the backend of
an entry's kind. Opening an array and then ending it at once always answers, which a session
relies on for an empty array.
-/

namespace AccessLayer

/-! ## Failures that leave a view of the state -/

section Leaving

variable {ε σ τ α β : Type}

/-- From `s`, `m` leaves `view` of the state as it was, whether it answers or fails. -/
def Leaves (view : σ → τ) (s : σ) (m : EStateM ε σ α) : Prop := view (m.run s).state = view s

/-- From `s`, every failure of `m` leaves `view` of the state as it was. -/
def FailsLeaving (view : σ → τ) (s : σ) (m : EStateM ε σ α) : Prop :=
  ∀ e t, m.run s = .error e t → view t = view s

variable {view : σ → τ} {s : σ}

theorem Leaves.failsLeaving {m : EStateM ε σ α} (leaves : Leaves view s m) :
    FailsLeaving view s m := by
  intro e t failed
  unfold Leaves at leaves
  rw [failed] at leaves
  exact leaves

/-- A failure of `m >>= f` is one of `m`, or one of `f` after `m` answered leaving the view. -/
theorem FailsLeaving.bind {m : EStateM ε σ α} {f : α → EStateM ε σ β}
    (first : FailsLeaving view s m)
    (rest : ∀ a u, m.run s = .ok a u → view u = view s ∧ FailsLeaving view u (f a)) :
    FailsLeaving view s (m >>= f) := by
  intro e t failed
  rw [EStateM.run_bind] at failed
  cases ran : m.run s with
  | ok a u =>
    rw [ran] at failed
    obtain ⟨same, later⟩ := rest a u ran
    exact (later e t failed).trans same
  | error e' u =>
    rw [ran] at failed
    cases failed
    exact first _ _ ran

theorem FailsLeaving.bind_leaves {m : EStateM ε σ α} {f : α → EStateM ε σ β}
    (first : Leaves view s m) (rest : ∀ a u, m.run s = .ok a u → FailsLeaving view u (f a)) :
    FailsLeaving view s (m >>= f) := by
  refine first.failsLeaving.bind fun a u ran => ⟨?_, rest a u ran⟩
  unfold Leaves at first
  rw [ran] at first
  exact first

/-- A failure of `m >>= f`, where `f` always answers, is one of `m`. -/
theorem FailsLeaving.bind_answers {m : EStateM ε σ α} {f : α → EStateM ε σ β}
    (first : FailsLeaving view s m) (rest : ∀ a u, m.run s = .ok a u → ∀ e t, (f a).run u ≠ .error e t) :
    FailsLeaving view s (m >>= f) := by
  intro e t failed
  rw [EStateM.run_bind] at failed
  cases ran : m.run s with
  | ok a u =>
    rw [ran] at failed
    exact absurd failed (rest a u ran e t)
  | error e' u =>
    rw [ran] at failed
    cases failed
    exact first _ _ ran

/-- A view that forgets more is left all the more. -/
theorem FailsLeaving.map {υ : Type} {m : EStateM ε σ α} (g : τ → υ) (fails : FailsLeaving view s m) :
    FailsLeaving (g ∘ view) s m := fun e t failed => by
  simp only [Function.comp, fails e t failed]

/-- A call made of two calls that always answer always answers. -/
theorem answers_bind {m : EStateM ε σ α} {f : α → EStateM ε σ β}
    (first : ∀ e t, m.run s ≠ .error e t) (rest : ∀ a u, m.run s = .ok a u → ∀ e t, (f a).run u ≠ .error e t)
    (e : ε) (t : σ) : (m >>= f).run s ≠ .error e t := by
  intro failed
  rw [EStateM.run_bind] at failed
  cases ran : m.run s with
  | ok a u =>
    rw [ran] at failed
    exact rest a u ran e t failed
  | error e' u => exact first e' u ran

theorem FailsLeaving.map_answer {m : EStateM ε σ α} (fails : FailsLeaving view s m) (f : α → β) :
    FailsLeaving view s (f <$> m) := by
  intro e t failed
  rw [EStateM.run_map] at failed
  cases ran : m.run s with
  | ok a u => rw [ran] at failed; cases failed
  | error e' u =>
    rw [ran] at failed
    cases failed
    exact fails _ _ ran

theorem failsLeaving_of_answers {m : EStateM ε σ α} (answers : ∀ e t, m.run s ≠ .error e t) :
    FailsLeaving view s m := fun e t failed => absurd failed (answers e t)

theorem failsLeaving_get_bind {f : σ → EStateM ε σ β} (rest : FailsLeaving view s (f s)) :
    FailsLeaving view s (get >>= f) := rest

theorem failsLeaving_set_bind {v : σ} {f : PUnit → EStateM ε σ β} (same : view v = view s)
    (rest : FailsLeaving view v (f ⟨⟩)) : FailsLeaving view s (set v >>= f) :=
  fun e t failed => (rest e t failed).trans same

theorem failsLeaving_set (v : σ) : FailsLeaving view s (set v : EStateM ε σ PUnit) :=
  failsLeaving_of_answers fun _ _ failed => nomatch failed

/-- A step whose only change is the state it sets last fails as its first part does. -/
theorem failsLeaving_bind_set {m : EStateM ε σ α} {v : α → σ} (first : Leaves view s m) :
    FailsLeaving view s (m >>= fun a => set (v a)) :=
  FailsLeaving.bind_leaves first fun _ _ _ => failsLeaving_set _

theorem failsLeaving_bind_modify {m : EStateM ε σ α} {g : α → σ → σ} (first : Leaves view s m) :
    FailsLeaving view s (m >>= fun a => modify (g a)) :=
  FailsLeaving.bind_leaves first fun _ _ _ => failsLeaving_of_answers fun _ _ ran => by cases ran

theorem failsLeaving_set_pure (v : σ) (b : β) :
    FailsLeaving view s (set v >>= fun _ => (pure b : EStateM ε σ β)) :=
  failsLeaving_of_answers fun _ _ ran => by cases ran

/-- A failure caught by a handler is the handler's, from where the body failed. -/
theorem failsLeaving_tryCatch {σ : Type} {view : σ → τ} {s : σ} {m : EStateM ε σ α}
    {handler : ε → EStateM ε σ α} (body : FailsLeaving view s m)
    (handles : ∀ e u, m.run s = .error e u → FailsLeaving view u (handler e)) :
    FailsLeaving view s (tryCatch m handler) := by
  intro e t failed
  rw [EStateM.run_tryCatch] at failed
  cases ran : m.run s with
  | ok a u => rw [ran] at failed; cases failed
  | error e' u =>
    rw [ran] at failed
    exact (handles e' u ran e t failed).trans (body e' u ran)

theorem failsLeaving_modify_bind {g : σ → σ} {f : PUnit → EStateM ε σ β} (same : view (g s) = view s)
    (rest : FailsLeaving view (g s) (f ⟨⟩)) : FailsLeaving view s (modify g >>= f) :=
  fun e t failed => (rest e t failed).trans same

theorem leaves_pure (a : α) : Leaves view s (pure a : EStateM ε σ α) := rfl

theorem Leaves.map {υ : Type} {m : EStateM ε σ α} (leaves : Leaves view s m) (g : τ → υ) :
    Leaves (g ∘ view) s m := by
  unfold Leaves at leaves ⊢
  simp only [Function.comp, leaves]

theorem leaves_throw (e : ε) : Leaves view s (throw e : EStateM ε σ α) := rfl

theorem failsLeaving_pure (a : α) : FailsLeaving view s (pure a : EStateM ε σ α) :=
  (leaves_pure a).failsLeaving

theorem leaves_get_bind {f : σ → EStateM ε σ β} (rest : Leaves view s (f s)) :
    Leaves view s (get >>= f) := rest

theorem Leaves.bind {m : EStateM ε σ α} {f : α → EStateM ε σ β} (first : Leaves view s m)
    (rest : ∀ a u, m.run s = .ok a u → Leaves view u (f a)) : Leaves view s (m >>= f) := by
  unfold Leaves at first ⊢
  rw [EStateM.run_bind]
  cases ran : m.run s with
  | ok a u =>
    rw [ran] at first
    exact (rest a u ran).trans first
  | error e u =>
    rw [ran] at first
    exact first

end Leaving

section Steps

variable {σ τ α β : Type} {view : σ → τ} {s : σ}

theorem leaves_raise (f : Failure) : Leaves view s (Failure.raise f : EStateM Fault σ α) := rfl

theorem leaves_toStep (r : Except Fault α) : Leaves view s (Except.toStep r : EStateM Fault σ α) := by
  cases r <;> rfl

theorem leaves_toCall (r : Except Failure α) : Leaves view s (Except.toCall r : EStateM Fault σ α) := by
  cases r <;> rfl

theorem failsLeaving_raise (f : Failure) : FailsLeaving view s (Failure.raise f : EStateM Fault σ α) :=
  (leaves_raise f).failsLeaving

theorem failsLeaving_raise_bind (f : Failure) (g : α → EStateM Fault σ β) :
    FailsLeaving view s (Failure.raise f >>= g) :=
  FailsLeaving.bind_leaves (leaves_raise f) fun _ _ ran => by cases ran

theorem leaves_raise_bind (f : Failure) (g : α → EStateM Fault σ β) :
    Leaves view s (Failure.raise f >>= g) := rfl

theorem leaves_toCall_bind {r : Except Failure α} {f : α → EStateM Fault σ β}
    (rest : ∀ a, r = .ok a → Leaves view s (f a)) : Leaves view s (Except.toCall r >>= f) := by
  refine (leaves_toCall r).bind fun a u ran => ?_
  cases r with
  | error _ => cases ran
  | ok a' =>
    cases ran
    exact rest _ rfl

/-- A lifted result fails at once, leaving the state, or goes on with what it holds. -/
theorem failsLeaving_toCall_bind {r : Except Failure α} {f : α → EStateM Fault σ β}
    (rest : ∀ a, r = .ok a → FailsLeaving view s (f a)) :
    FailsLeaving view s (Except.toCall r >>= f) := by
  refine FailsLeaving.bind_leaves (leaves_toCall r) fun a u ran => ?_
  cases r with
  | error _ => cases ran
  | ok a' =>
    cases ran
    exact rest _ rfl

theorem failsLeaving_toStep_bind {r : Except Fault α} {f : α → EStateM Fault σ β}
    (rest : ∀ a, r = .ok a → FailsLeaving view s (f a)) :
    FailsLeaving view s (Except.toStep r >>= f) := by
  refine FailsLeaving.bind_leaves (leaves_toStep r) fun a u ran => ?_
  cases r with
  | error _ => cases ran
  | ok a' =>
    cases ran
    exact rest _ rfl

end Steps

/-! ## What a call leaves when it answers -/

section Answers

variable {σ α β : Type} {s : σ}

/-- From `s`, every answer of `m` satisfies `P` with the state it leaves. -/
def AnswersWith (P : α → σ → Prop) (s : σ) (m : EStateM Fault σ α) : Prop :=
  ∀ a t, m.run s = .ok a t → P a t

variable {P : β → σ → Prop}

theorem answersWith_get_bind {f : σ → EStateM Fault σ β} (rest : AnswersWith P s (f s)) :
    AnswersWith P s (get >>= f) := rest

theorem answersWith_pure {b : β} (holds : P b s) : AnswersWith P s (pure b) := by
  intro a t ran
  cases ran
  exact holds

theorem answersWith_set_bind {v : σ} {f : PUnit → EStateM Fault σ β} (rest : AnswersWith P v (f ⟨⟩)) :
    AnswersWith P s (set v >>= f) := rest

theorem answersWith_modify_bind {g : σ → σ} {f : PUnit → EStateM Fault σ β}
    (rest : AnswersWith P (g s) (f ⟨⟩)) : AnswersWith P s (modify g >>= f) := rest

theorem answersWith_toCall_bind {r : Except Failure α} {f : α → EStateM Fault σ β}
    (rest : ∀ a, r = .ok a → AnswersWith P s (f a)) : AnswersWith P s (Except.toCall r >>= f) := by
  intro b t ran
  cases r with
  | error _ => cases ran
  | ok a => exact rest a rfl b t ran

theorem answersWith_toStep_bind {r : Except Fault α} {f : α → EStateM Fault σ β}
    (rest : ∀ a, r = .ok a → AnswersWith P s (f a)) : AnswersWith P s (Except.toStep r >>= f) := by
  intro b t ran
  cases r with
  | error _ => cases ran
  | ok a => exact rest a rfl b t ran

theorem AnswersWith.bind {m : EStateM Fault σ α} {f : α → EStateM Fault σ β}
    (rest : ∀ a u, m.run s = .ok a u → AnswersWith P u (f a)) : AnswersWith P s (m >>= f) := by
  intro b t ran
  rw [EStateM.run_bind] at ran
  cases first : m.run s with
  | ok a u =>
    rw [first] at ran
    exact rest a u first b t ran
  | error e u =>
    rw [first] at ran
    cases ran

end Answers

/-! ## Staged trees -/

/-- The tree an action stages for its commit: a write's tree; a read stages nothing. -/
def Action.staged (a : Action) : Option Tree := if a.write then some a.tree else none

/-- The staged tree of the open write of each operation, in a backend's list of actions. -/
def stagedIn (actions : List (Nat × Action)) (key : Nat) : Option Tree :=
  (actions.lookup key).bind Action.staged

/-- The staged trees of a backend's open writes; the empty backend stages nothing. -/
def Backend.staged : Backend → Nat → Option Tree
  | .empty => fun _ => none
  | .memory b => stagedIn b.actions
  | .serialize b => stagedIn b.actions

@[simp] theorem Action.staged_register (a : Action) (c : ArrayContext) (arr : OpenArray) :
    (a.register c arr).staged = a.staged := rfl

theorem stagedIn_cons_filter (actions : List (Nat × Action)) (key : Nat) (a : Action) :
    stagedIn ((key, a) :: actions.filter (·.1 ≠ key)) = Function.update (stagedIn actions) key a.staged := by
  funext j
  simp only [stagedIn, lookup_cons_ite, lookup_filter_ne, Function.update_apply]
  by_cases same : j = key <;> simp [same]

/-- Setting an action again with what it stages keeps the staged trees. -/
theorem stagedIn_cons_filter_same {actions : List (Nat × Action)} {key : Nat} {a a' : Action}
    (held : actions.lookup key = some a) (same : a'.staged = a.staged) :
    stagedIn ((key, a') :: actions.filter (·.1 ≠ key)) = stagedIn actions := by
  rw [stagedIn_cons_filter, same]
  exact Function.update_eq_self_iff.mpr (by simp [stagedIn, held])

/-! ## Open arrays -/

namespace Action

theorem arrayOf_register (a : Action) (c : ArrayContext) (arr : OpenArray) :
    (a.register c arr).arrayOf c = .ok arr := by
  simp [register, arrayOf]

/-- Opening an array for a write registers it. -/
theorem beginWrite_opens {a a' : Action} {c : ArrayContext} {size : Int}
    (opened : a.beginWrite c size = .ok a') : ∃ arr, a'.arrayOf c = .ok arr := by
  unfold beginWrite at opened
  dsimp only at opened
  cases holder : a.container c.parentContext with
  | error f => rw [holder] at opened; cases opened
  | ok site =>
    rw [holder] at opened
    simp only [bind, Except.bind, pure, Except.pure] at opened
    split_ifs at opened <;> cases opened <;> exact ⟨_, arrayOf_register _ c _⟩

theorem beginRead_opens {a a' : Action} {c : ArrayContext} {n : Nat}
    (opened : a.beginRead c = .ok (n, a')) : ∃ arr, a'.arrayOf c = .ok arr := by
  unfold beginRead at opened
  cases parent : a.view c.parentContext with
  | error f => rw [parent] at opened; cases opened
  | ok pv =>
    rw [parent] at opened
    cases opened
    exact ⟨_, arrayOf_register _ c _⟩

/-- An open array always closes. -/
theorem endArray_of_open {a : Action} {c : ArrayContext} {arr : OpenArray}
    (opened : a.arrayOf c = .ok arr) : ∃ a', a.endArray c = .ok a' := by
  unfold endArray
  rw [opened]
  simp only [bind, Except.bind, pure, Except.pure]
  split
  · exact ⟨_, rfl⟩
  · split_ifs
    · exact ⟨_, rfl⟩
    · split <;> exact ⟨_, rfl⟩

end Action

/-- The array of `c` is open in the action of its operation. -/
def ArrayOpen (actions : List (Nat × Action)) (c : ArrayContext) : Prop :=
  ∃ a arr, actions.lookup c.op.uid = some a ∧ a.arrayOf c = .ok arr

/-! ## The memory backend -/

namespace MemoryBackend

/-- The staged trees of a memory backend with the store it commits to. -/
def kept (x : MemoryBackend × Store) : (Nat → Option Tree) × Store := (stagedIn x.1.actions, x.2)

section Fails

variable {τ : Type} {view : MemoryBackend × Store → τ}

theorem failsLeaving_actionOf_bind {β : Type} {b : MemoryBackend} {ctx : Context} {s : MemoryBackend × Store}
    {f : Nat × Action → MemoryCall β}
    (rest : ∀ key a, b.actions.lookup key = some a → FailsLeaving view s (f (key, a))) :
    FailsLeaving view s (Except.toCall (b.actionOf ctx) >>= f) :=
  failsLeaving_toCall_bind fun ⟨key, a⟩ found => rest key a (actionOf_ok found).2

/-- Opening an entry checks the mode and the store before it changes anything. -/
theorem failsLeaving_openPulse (e : DataEntry) (mode : OpenMode) (s : MemoryBackend × Store) :
    FailsLeaving view s (openPulse e mode) := by
  obtain ⟨b, st⟩ := s
  unfold openPulse
  refine failsLeaving_get_bind ?_
  dsimp only
  split_ifs <;> first
    | exact failsLeaving_bind_set (leaves_pure _)
    | exact failsLeaving_bind_set (leaves_raise _)

theorem failsLeaving_beginAction (op : Operation) (s : MemoryBackend × Store) :
    FailsLeaving view s (beginAction op) := by
  obtain ⟨b, st⟩ := s
  unfold beginAction
  refine failsLeaving_get_bind ?_
  dsimp only
  split_ifs <;> first
    | exact failsLeaving_raise_bind _ _
    | exact failsLeaving_set _

theorem failsLeaving_writeData (ctx : Context) (field timebase : String) (data : Buffer)
    (s : MemoryBackend × Store) : FailsLeaving view s (writeData ctx field timebase data) := by
  obtain ⟨b, st⟩ := s
  unfold writeData
  refine failsLeaving_get_bind ?_
  dsimp only
  refine failsLeaving_actionOf_bind fun key a _ => ?_
  dsimp only
  split_ifs
  · exact failsLeaving_raise_bind _ _
  · exact failsLeaving_toStep_bind fun _ _ => failsLeaving_set _

theorem failsLeaving_deleteData (op : Operation) (path : String) (s : MemoryBackend × Store) :
    FailsLeaving view s (deleteData op path) := by
  obtain ⟨b, st⟩ := s
  unfold deleteData
  refine failsLeaving_get_bind ?_
  dsimp only
  refine failsLeaving_actionOf_bind fun key a _ => ?_
  dsimp only
  split_ifs
  · exact failsLeaving_raise_bind _ _
  · exact failsLeaving_set _

theorem failsLeaving_closePulse (e : DataEntry) (mode : CloseMode) (s : MemoryBackend × Store) :
    FailsLeaving view s (closePulse e mode) :=
  failsLeaving_of_answers fun _ _ ran => nomatch (closePulse_run e mode s.1 s.2).symm.trans ran

/-- Ending an array or an entry's context checks everything before it changes anything; ending
an operation is left out, as its commit fails after its action is dropped. -/
theorem failsLeaving_endAction_of_ne {ctx : Context} (notOperation : ∀ o, ctx ≠ .operation o)
    (s : MemoryBackend × Store) : FailsLeaving view s (endAction ctx) := by
  obtain ⟨b, st⟩ := s
  unfold endAction
  refine failsLeaving_get_bind ?_
  cases ctx with
  | entry e => exact failsLeaving_pure _
  | array c =>
    refine failsLeaving_actionOf_bind fun key a _ => ?_
    exact failsLeaving_toCall_bind fun _ _ => failsLeaving_set _
  | operation o => exact absurd rfl (notOperation o)

/-- A failed end never changes the store: a commit that fails stores nothing. -/
theorem failsLeaving_endAction_store (ctx : Context) (s : MemoryBackend × Store) :
    FailsLeaving Prod.snd s (endAction ctx) := by
  cases ctx with
  | operation o =>
    obtain ⟨b, st⟩ := s
    unfold endAction
    refine failsLeaving_get_bind ?_
    refine failsLeaving_toCall_bind fun ⟨key, a⟩ _ => failsLeaving_set_bind rfl ?_
    split_ifs
    · split
      · exact failsLeaving_set _
      · exact failsLeaving_raise _
    · exact failsLeaving_pure _
  | entry e => exact failsLeaving_endAction_of_ne (fun _ ended => by cases ended) s
  | array c => exact failsLeaving_endAction_of_ne (fun _ ended => by cases ended) s

/-- A read changes nothing. -/
theorem leaves_readData (ctx : Context) (field timebase : String) (s : MemoryBackend × Store) :
    Leaves view s (readData ctx field timebase) := by
  obtain ⟨b, st⟩ := s
  obtain ⟨r, runs⟩ := readData_congr field timebase b b rfl rfl
  unfold Leaves
  rw [(runs st st).1]
  exact leaves_toStep r

end Fails

theorem arrayOpen_setAction (b : MemoryBackend) (c : ArrayContext) (a : Action) (arr : OpenArray) :
    ArrayOpen (b.setAction c.op.uid (a.register c arr)).actions c :=
  ⟨_, arr, by rw [lookup_setAction, if_pos rfl], Action.arrayOf_register a c arr⟩

/-- Opening a time-dependent array for a read leaves it open in its operation's action. -/
theorem answersWith_beginTimedRead (a : Action) (c : ArrayContext) (s : MemoryBackend × Store) :
    AnswersWith (fun _ y => ArrayOpen y.1.actions c) s (beginTimedRead c.op.uid a c) := by
  obtain ⟨b, st⟩ := s
  unfold beginTimedRead
  refine answersWith_get_bind ?_
  dsimp only
  refine answersWith_toCall_bind fun pv _ => answersWith_set_bind ?_
  split
  · exact answersWith_pure (arrayOpen_setAction b c a _)
  · split_ifs
    · exact answersWith_pure (arrayOpen_setAction b c a _)
    · refine answersWith_toCall_bind fun times _ => ?_
      split_ifs
      · exact answersWith_pure (arrayOpen_setAction b c a _)
      · exact answersWith_toStep_bind fun views _ =>
          answersWith_set_bind (answersWith_pure (arrayOpen_setAction b c _ _))

/-- An array the memory backend opened is open in its operation's action; its size is not
negative unless a write asked for a negative size. -/
theorem answersWith_beginArray (c : ArrayContext) (size : Int) (s : MemoryBackend × Store) :
    AnswersWith (fun n y => (0 ≤ size → 0 ≤ n) ∧ ArrayOpen y.1.actions c) s (beginArray c size) := by
  obtain ⟨b, st⟩ := s
  unfold beginArray
  refine answersWith_get_bind ?_
  dsimp only
  refine answersWith_toCall_bind fun ⟨key, a⟩ found => ?_
  obtain ⟨uid, _⟩ := actionOf_ok found
  cases uid
  dsimp only
  split_ifs
  · refine answersWith_toCall_bind fun a' opened => answersWith_set_bind (answersWith_pure ?_)
    obtain ⟨arr, registered⟩ := Action.beginWrite_opens opened
    exact ⟨id, a', arr, by rw [lookup_setAction, if_pos rfl], registered⟩
  · refine answersWith_toCall_bind fun ⟨n, a'⟩ opened => answersWith_set_bind (answersWith_pure ?_)
    obtain ⟨arr, registered⟩ := Action.beginRead_opens opened
    exact ⟨fun _ => Int.natCast_nonneg n, a', arr, by rw [lookup_setAction, if_pos rfl], registered⟩
  · refine AnswersWith.bind fun n u ran => answersWith_pure ⟨fun _ => Int.natCast_nonneg n, ?_⟩
    exact answersWith_beginTimedRead a c (b, st) n u ran

/-- An open array always closes. -/
theorem endAction_array_answers {c : ArrayContext} {b : MemoryBackend} (opened : ArrayOpen b.actions c)
    (st : Store) (e : Fault) (t : MemoryBackend × Store) : (endAction (.array c)).run (b, st) ≠ .error e t := by
  obtain ⟨a, arr, held, registered⟩ := opened
  obtain ⟨a', ended⟩ := Action.endArray_of_open registered
  have found : b.actionOf (.array c) = .ok (c.op.uid, a) := by
    simp only [actionOf, Context.operationUid, bind, Except.bind, held]
  intro failed
  unfold endAction at failed
  rw [run_get_bind] at failed
  dsimp only at failed
  rw [found, run_toCall_ok_bind, ended, run_toCall_ok_bind] at failed
  cases failed

/-- Opening a time-dependent array for a read registers it before choosing its slices, which
may fail; the action is a read, so no staged tree changes. -/
theorem failsLeaving_beginTimedRead {key : Nat} {a : Action} (c : ArrayContext) {b : MemoryBackend}
    (st : Store) (held : b.actions.lookup key = some a) :
    FailsLeaving kept (b, st) (beginTimedRead key a c) := by
  unfold beginTimedRead
  refine failsLeaving_get_bind ?_
  dsimp only
  refine failsLeaving_toCall_bind fun pv _ => ?_
  refine failsLeaving_set_bind ?_ ?_
  · simp only [kept, setAction]
    rw [stagedIn_cons_filter_same held (Action.staged_register a c _)]
  split
  · exact failsLeaving_pure _
  · split_ifs
    · exact failsLeaving_pure _
    · refine failsLeaving_toCall_bind fun times _ => ?_
      split_ifs
      · exact failsLeaving_pure _
      · exact failsLeaving_toStep_bind fun views _ => failsLeaving_set_pure _ _

theorem failsLeaving_beginArray (c : ArrayContext) (size : Int) (s : MemoryBackend × Store) :
    FailsLeaving kept s (beginArray c size) := by
  obtain ⟨b, st⟩ := s
  unfold beginArray
  refine failsLeaving_get_bind ?_
  dsimp only
  refine failsLeaving_actionOf_bind fun key a held => ?_
  dsimp only
  split_ifs
  · exact failsLeaving_toCall_bind fun _ _ => failsLeaving_set_pure _ _
  · exact failsLeaving_toCall_bind fun _ _ => failsLeaving_set_pure _ _
  · exact (failsLeaving_beginTimedRead c st held).bind_answers fun _ _ _ _ _ ran => by cases ran

end MemoryBackend

/-! ## The disk and the serialized backend -/

/-- Whether an open mode makes the entry's directory: every supported mode but opening an
existing entry. -/
def OpenMode.makesDirectory (mode : OpenMode) : Bool :=
  mode = .forceOpen || mode = .create || mode = .forceCreate

/-- Removing a tree is atomic: every refusal comes before the one change it makes. -/
theorem Disk.failsLeaving_removeAll {τ : Type} {view : Disk → τ} (p : String) (d : Disk) :
    FailsLeaving view d (Disk.removeAll p) := by
  unfold Disk.removeAll
  split_ifs
  · exact failsLeaving_pure _
  · exact (leaves_throw _).failsLeaving
  · refine failsLeaving_get_bind ?_
    dsimp only
    split
    · exact failsLeaving_set _
    · split_ifs
      · exact failsLeaving_pure _
      · split
        · exact failsLeaving_pure _
        · exact (leaves_throw _).failsLeaving
        · exact (leaves_throw _).failsLeaving
        · exact failsLeaving_set _

namespace SerializeBackend

/-- The staged trees of a serialized backend with the disk it writes to. -/
def kept (x : SerializeBackend × Disk) : (Nat → Option Tree) × Disk := (stagedIn x.1.actions, x.2)

/-- The staged trees of a serialized backend alone. -/
def staging (x : SerializeBackend × Disk) : Nat → Option Tree := stagedIn x.1.actions

theorem run_onDisk {α : Type} (m : DiskM α) (b : SerializeBackend) (d : Disk) :
    (onDisk m).run (b, d) =
      match m.run d with
      | .ok a d' => .ok a (b, d')
      | .error e d' => .error (.failure (.backend e.message)) (b, d') := rfl

theorem failsLeaving_onDisk {α : Type} {m : DiskM α} {b : SerializeBackend} {d : Disk}
    (atomic : FailsLeaving id d m) : FailsLeaving kept (b, d) (onDisk m) := by
  intro e t failed
  rw [run_onDisk] at failed
  split at failed
  · cases failed
  · case h_2 e' d' ran =>
    cases failed
    have same : d' = d := atomic e' d' ran
    rw [kept, kept, same]

/-- A disk call may change the disk, never the backend. -/
theorem leaves_onDisk {α : Type} (m : DiskM α) (x : SerializeBackend × Disk) :
    Leaves staging x (onDisk m) := by
  obtain ⟨b, d⟩ := x
  unfold Leaves
  rw [run_onDisk]
  split <;> rfl

theorem failsLeaving_openPulse {e : DataEntry} {mode : OpenMode} (opens : mode.makesDirectory = false)
    (s : SerializeBackend × Disk) : FailsLeaving kept s (openPulse e mode) := by
  obtain ⟨b, d⟩ := s
  unfold openPulse push
  obtain ⟨⟨notForced, notCreated⟩, notTruncated⟩ : (¬mode = .forceOpen ∧ ¬mode = .create) ∧
      ¬mode = .forceCreate := by
    simpa [OpenMode.makesDirectory] using opens
  refine failsLeaving_modify_bind rfl ?_
  refine failsLeaving_modify_bind rfl ?_
  dsimp only
  split_ifs with empty opening making
  · exact failsLeaving_pure _
  · refine failsLeaving_get_bind ?_
    split
    · exact failsLeaving_pure _
    · exact failsLeaving_raise _
  · simp [notForced, notCreated] at making
  · exact failsLeaving_raise _

theorem failsLeaving_closePulse (mode : CloseMode) (s : SerializeBackend × Disk) :
    FailsLeaving kept s (closePulse mode) := by
  obtain ⟨b, d⟩ := s
  unfold closePulse
  refine failsLeaving_modify_bind rfl ?_
  refine failsLeaving_get_bind ?_
  dsimp only
  split_ifs
  · exact failsLeaving_onDisk (Disk.failsLeaving_removeAll _ _)
  · exact failsLeaving_pure _

theorem failsLeaving_beginAction (op : Operation) (s : SerializeBackend × Disk) :
    FailsLeaving kept s (beginAction op) := by
  obtain ⟨b, d⟩ := s
  unfold beginAction push
  dsimp only
  split
  · exact failsLeaving_raise_bind _ _
  refine failsLeaving_modify_bind rfl ?_
  refine failsLeaving_get_bind ?_
  dsimp only
  -- a write starts empty; a read takes a loaded frame, or reads the object's file
  split
  · exact failsLeaving_bind_modify (leaves_pure _)
  split
  · exact failsLeaving_set_bind rfl (failsLeaving_bind_modify (leaves_pure _))
  split
  · exact failsLeaving_bind_modify (leaves_pure _)
  split
  · exact failsLeaving_bind_modify (leaves_pure _)
  · exact failsLeaving_raise_bind _ _

/-- Opening in any mode leaves the staged trees; a mode that makes the directory may have made
part of it when it fails. -/
theorem failsLeaving_openPulse_staging (e : DataEntry) (mode : OpenMode) (s : SerializeBackend × Disk) :
    FailsLeaving staging s (openPulse e mode) := by
  obtain ⟨b, d⟩ := s
  unfold openPulse push
  refine failsLeaving_modify_bind rfl ?_
  refine failsLeaving_modify_bind rfl ?_
  dsimp only
  split_ifs
  · exact failsLeaving_pure _
  · refine failsLeaving_get_bind ?_
    split
    · exact failsLeaving_pure _
    · exact failsLeaving_raise _
  · exact (leaves_onDisk _ _).failsLeaving
  · exact ((leaves_onDisk _ _).bind fun _ u _ => leaves_onDisk _ u).failsLeaving
  · exact failsLeaving_raise _

theorem actionOf_ok {b : SerializeBackend} {ctx : Context} {key : Nat} {a : Action}
    (found : b.actionOf ctx = .ok (key, a)) :
    ctx.operationUid = .ok key ∧ b.actions.lookup key = some a := by
  unfold actionOf at found
  cases uid : ctx.operationUid with
  | error e => rw [uid] at found; cases found
  | ok k =>
    rw [uid] at found
    simp only [bind, Except.bind] at found
    cases held : b.actions.lookup k with
    | none => rw [held] at found; cases found
    | some a' =>
      rw [held] at found
      cases found
      exact ⟨rfl, held⟩

theorem arrayOpen_setAction (b : SerializeBackend) (c : ArrayContext) (a : Action) (arr : OpenArray) :
    ArrayOpen (b.setAction c.op.uid (a.register c arr)).actions c :=
  ⟨_, arr, by simp [setAction], Action.arrayOf_register a c arr⟩

/-- An array the serialized backend opened is on top of its stack and open in its operation's
action; its size is not negative unless a write asked for a negative size. -/
theorem answersWith_beginArray (c : ArrayContext) (size : Int) (s : SerializeBackend × Disk) :
    AnswersWith (fun n y => (0 ≤ size → 0 ≤ n) ∧ y.1.stack.head? = some c.uid ∧
      ArrayOpen y.1.actions c) s (beginArray c size) := by
  obtain ⟨b, d⟩ := s
  unfold beginArray push
  refine answersWith_get_bind ?_
  dsimp only
  refine answersWith_toCall_bind fun ⟨key, a⟩ found => ?_
  obtain ⟨uid, _⟩ := actionOf_ok found
  cases uid
  dsimp only
  refine answersWith_modify_bind (answersWith_get_bind ?_)
  dsimp only
  split_ifs
  · exact answersWith_set_bind (answersWith_pure ⟨id, rfl, arrayOpen_setAction _ c a _⟩)
  · refine answersWith_toCall_bind fun a' opened => answersWith_set_bind (answersWith_pure ?_)
    obtain ⟨arr, registered⟩ := Action.beginWrite_opens opened
    exact ⟨id, rfl, a', arr, by simp [setAction], registered⟩
  · refine answersWith_toCall_bind fun ⟨n, a'⟩ opened => answersWith_set_bind (answersWith_pure ?_)
    obtain ⟨arr, registered⟩ := Action.beginRead_opens opened
    exact ⟨fun _ => Int.natCast_nonneg n, rfl, a', arr, by simp [setAction], registered⟩

/-- An array on top of the stack and open closes. -/
theorem endAction_array_answers {c : ArrayContext} {b : SerializeBackend}
    (top : b.stack.head? = some c.uid) (opened : ArrayOpen b.actions c) (d : Disk) (e : Fault)
    (t : SerializeBackend × Disk) : (endAction (.array c)).run (b, d) ≠ .error e t := by
  obtain ⟨a, arr, held, registered⟩ := opened
  obtain ⟨a', ended⟩ := Action.endArray_of_open registered
  obtain ⟨rest, stacked⟩ : ∃ rest, b.stack = c.uid :: rest := by
    cases stack : b.stack with
    | nil => rw [stack] at top; cases top
    | cons top' rest => rw [stack] at top; cases top; exact ⟨rest, rfl⟩
  intro failed
  unfold endAction at failed
  rw [run_get_bind] at failed
  dsimp only at failed
  rw [stacked] at failed
  dsimp only at failed
  have found : ({ b with stack := rest } : SerializeBackend).actionOf (.array c) = .ok (c.op.uid, a) := by
    simp only [actionOf, Context.operationUid, bind, Except.bind, held]
  rw [if_neg (by simp [Context.uid])] at failed
  simp only [EStateM.run_bind, EStateM.run_set, found, ended, run_toCall] at failed
  cases failed

section Fails

variable {τ : Type} {view : SerializeBackend × Disk → τ}

theorem failsLeaving_writeData (ctx : Context) (field timebase : String) (data : Buffer)
    (s : SerializeBackend × Disk) : FailsLeaving view s (writeData ctx field timebase data) := by
  obtain ⟨b, d⟩ := s
  unfold writeData
  refine failsLeaving_get_bind ?_
  dsimp only
  split_ifs
  · -- a frame loaded for the next read
    split
    · exact failsLeaving_raise _
    · split
      · exact failsLeaving_raise _
      · exact failsLeaving_set _
  · refine failsLeaving_toCall_bind fun ⟨key, a⟩ _ => ?_
    dsimp only
    split_ifs
    · exact failsLeaving_raise_bind _ _
    · exact failsLeaving_toStep_bind fun _ _ => failsLeaving_set _

/-- A read changes nothing. -/
theorem leaves_readData (ctx : Context) (field : String) (s : SerializeBackend × Disk) :
    Leaves view s (readData ctx field) := by
  obtain ⟨b, d⟩ := s
  unfold readData
  refine leaves_get_bind ?_
  dsimp only
  refine leaves_toCall_bind fun ⟨_, a⟩ _ => ?_
  dsimp only
  split_ifs
  · exact leaves_raise_bind _ _
  · exact leaves_pure _
  · exact leaves_raise_bind _ _
  · exact leaves_toCall_bind fun _ _ => leaves_toCall _

theorem failsLeaving_beginArray (c : ArrayContext) (size : Int) (s : SerializeBackend × Disk) :
    FailsLeaving kept s (beginArray c size) := by
  obtain ⟨b, d⟩ := s
  unfold beginArray push
  refine failsLeaving_get_bind ?_
  dsimp only
  refine failsLeaving_toCall_bind fun ⟨key, a⟩ _ => ?_
  dsimp only
  refine failsLeaving_modify_bind rfl ?_
  refine failsLeaving_get_bind ?_
  dsimp only
  split_ifs
  · exact failsLeaving_set_pure _ _
  · exact failsLeaving_toCall_bind fun _ _ => failsLeaving_set_pure _ _
  · exact failsLeaving_toCall_bind fun _ _ => failsLeaving_set_pure _ _

end Fails

end SerializeBackend

/-! ## The backends of a session -/

namespace Backend

variable {μ : Type}

/-- The staged trees of a backend's open writes, with a view `g` of the medium it shares. -/
def keptWith (g : Medium → μ) (x : Backend × Medium) : (Nat → Option Tree) × μ := (x.1.staged, g x.2)

theorem run_onMemory {α : Type} (b : MemoryBackend) (call : MemoryCall α) (x : Backend × Medium) :
    (onMemory b call).run x =
      match call.run (b, x.2.store) with
      | .ok a (b', st) => .ok a (.memory b', { x.2 with store := st })
      | .error e (b', st) => .error e (.memory b', { x.2 with store := st }) := rfl

theorem run_onSerialize {α : Type} (b : SerializeBackend) (call : SerializeCall α) (x : Backend × Medium) :
    (onSerialize b call).run x =
      match call.run (b, x.2.disk) with
      | .ok a (b', d) => .ok a (.serialize b', { x.2 with disk := d })
      | .error e (b', d) => .error e (.serialize b', { x.2 with disk := d }) := rfl

theorem failsLeaving_onMemory {α : Type} {g : Medium → μ} {b : MemoryBackend} {call : MemoryCall α}
    {m : Medium} (fails : FailsLeaving MemoryBackend.kept (b, m.store) call) :
    FailsLeaving (keptWith g) (.memory b, m) (onMemory b call) := by
  intro e t failed
  rw [run_onMemory] at failed
  split at failed
  · cases failed
  · case h_2 b' st ran =>
    cases failed
    obtain ⟨staged, stored⟩ := Prod.mk.inj (fails _ _ ran)
    dsimp only at staged stored
    subst stored
    simp only [keptWith, staged, Backend.staged]

theorem failsLeaving_onSerialize {α : Type} {g : Medium → μ} {b : SerializeBackend}
    {call : SerializeCall α} {m : Medium} (fails : FailsLeaving SerializeBackend.kept (b, m.disk) call) :
    FailsLeaving (keptWith g) (.serialize b, m) (onSerialize b call) := by
  intro e t failed
  rw [run_onSerialize] at failed
  split at failed
  · cases failed
  · case h_2 b' d ran =>
    cases failed
    obtain ⟨staged, kept⟩ := Prod.mk.inj (fails _ _ ran)
    dsimp only at staged kept
    subst kept
    simp only [keptWith, staged, Backend.staged]

/-- A serialized call keeps the store, whatever it does to the disk. -/
theorem failsLeaving_onSerialize_store {α : Type} {b : SerializeBackend} {call : SerializeCall α}
    {m : Medium} (fails : FailsLeaving SerializeBackend.staging (b, m.disk) call) :
    FailsLeaving (keptWith Medium.store) (.serialize b, m) (onSerialize b call) := by
  intro e t failed
  rw [run_onSerialize] at failed
  split at failed
  · cases failed
  · case h_2 b' d ran =>
    cases failed
    have staged := fails _ _ ran
    simp only [SerializeBackend.staging] at staged
    simp only [keptWith, staged, Backend.staged]

/-- A dispatched call fails as the call of the backend's kind does; the empty backend never
fails. -/
theorem failsLeaving_dispatch {α τ : Type} {view : Backend × Medium → τ} {none : α}
    {memory : MemoryCall α} {serialize : SerializeCall α} {x : Backend × Medium}
    (onMemory : ∀ b, x.1 = .memory b → FailsLeaving view (.memory b, x.2) (onMemory b memory))
    (onSerialize : ∀ b, x.1 = .serialize b →
      FailsLeaving view (.serialize b, x.2) (onSerialize b serialize)) :
    FailsLeaving view x (dispatch none memory serialize) := by
  obtain ⟨be, m⟩ := x
  unfold dispatch
  refine failsLeaving_get_bind ?_
  cases be with
  | empty => exact failsLeaving_pure _
  | memory b => exact onMemory b rfl
  | serialize b => exact onSerialize b rfl

/-- A dispatched call that leaves the state of the backend of its kind leaves the state. -/
theorem leaves_dispatch {α : Type} {none : α} {memory : MemoryCall α} {serialize : SerializeCall α}
    {x : Backend × Medium} (onMemory : ∀ b, x.1 = .memory b → Leaves id (b, x.2.store) memory)
    (onSerialize : ∀ b, x.1 = .serialize b → Leaves id (b, x.2.disk) serialize) :
    Leaves id x (dispatch none memory serialize) := by
  obtain ⟨be, m⟩ := x
  unfold dispatch
  refine leaves_get_bind ?_
  cases be with
  | empty => exact leaves_pure _
  | memory b =>
    have leaves := onMemory b rfl
    unfold Leaves at leaves ⊢
    rw [run_onMemory]
    revert leaves
    cases memory.run (b, m.store) with
    | ok a y => intro same; cases same; rfl
    | error e y => intro same; cases same; rfl
  | serialize b =>
    have leaves := onSerialize b rfl
    unfold Leaves at leaves ⊢
    rw [run_onSerialize]
    revert leaves
    cases serialize.run (b, m.disk) with
    | ok a y => intro same; cases same; rfl
    | error e y => intro same; cases same; rfl

/-- An array a backend opened has a size that is not negative unless a write asked for a
negative one, and ending it then always answers. -/
theorem beginArray_then_end {c : ArrayContext} {size n : Int} {x y : Backend × Medium}
    (ran : (beginArray c size).run x = .ok n y) :
    (0 ≤ size → 0 ≤ n) ∧ ∀ e t, (endAction (.array c)).run y ≠ .error e t := by
  obtain ⟨be, m⟩ := x
  unfold beginArray dispatch at ran
  rw [run_get_bind] at ran
  cases be with
  | empty =>
    cases ran
    exact ⟨fun _ => le_refl 0, fun e t failed => by cases failed⟩
  | memory b =>
    dsimp only at ran
    rw [run_onMemory] at ran
    cases opened : (MemoryBackend.beginArray c size).run (b, m.store) with
    | error e' y' => rw [opened] at ran; cases ran
    | ok n' y' =>
      rw [opened] at ran
      cases ran
      obtain ⟨sign, isOpen⟩ := MemoryBackend.answersWith_beginArray c size _ _ _ opened
      refine ⟨sign, fun e t failed => ?_⟩
      unfold endAction dispatch at failed
      rw [run_get_bind, run_onMemory] at failed
      cases ended : (MemoryBackend.endAction (.array c)).run (y'.1, y'.2) with
      | ok _ _ => rw [ended] at failed; cases failed
      | error e'' t' => exact MemoryBackend.endAction_array_answers isOpen _ _ _ ended
  | serialize b =>
    dsimp only at ran
    rw [run_onSerialize] at ran
    cases opened : (SerializeBackend.beginArray c size).run (b, m.disk) with
    | error e' y' => rw [opened] at ran; cases ran
    | ok n' y' =>
      rw [opened] at ran
      cases ran
      obtain ⟨sign, top, isOpen⟩ := SerializeBackend.answersWith_beginArray c size _ _ _ opened
      refine ⟨sign, fun e t failed => ?_⟩
      unfold endAction dispatch at failed
      rw [run_get_bind, run_onSerialize] at failed
      cases ended : (SerializeBackend.endAction (.array c)).run (y'.1, y'.2) with
      | ok _ _ => rw [ended] at failed; cases failed
      | error e'' t' => exact SerializeBackend.endAction_array_answers top isOpen _ _ _ ended

/-- A memory call that fails leaving the store fails leaving the medium but the disk. -/
theorem failsLeaving_onMemory_store {α : Type} {b : MemoryBackend} {call : MemoryCall α} {m : Medium}
    (fails : FailsLeaving Prod.snd (b, m.store) call) :
    FailsLeaving (fun x : Backend × Medium => x.2.store) (.memory b, m) (onMemory b call) := by
  intro e t failed
  rw [run_onMemory] at failed
  split at failed
  · cases failed
  · case h_2 b' st ran =>
    cases failed
    exact fails _ _ ran

/-- A serialized call never touches the store. -/
theorem failsLeaving_onSerialize_store' {α : Type} (b : SerializeBackend) (call : SerializeCall α)
    (m : Medium) : FailsLeaving (fun x : Backend × Medium => x.2.store) (.serialize b, m) (onSerialize b call) := by
  intro e t failed
  rw [run_onSerialize] at failed
  split at failed
  · cases failed
  · cases failed
    rfl

/-- A failed end never changes the store. -/
theorem failsLeaving_endAction_store (ctx : Context) (x : Backend × Medium) :
    FailsLeaving (fun x : Backend × Medium => x.2.store) x (endAction ctx) :=
  failsLeaving_dispatch (fun _ _ => failsLeaving_onMemory_store (MemoryBackend.failsLeaving_endAction_store ctx _))
    fun b _ => failsLeaving_onSerialize_store' b _ _

section Calls

variable {g : Medium → μ} (x : Backend × Medium)

/-- Opening keeps the staged trees and the store in every mode. -/
theorem failsLeaving_openPulse_store (e : DataEntry) (mode : OpenMode) :
    FailsLeaving (keptWith Medium.store) x (openPulse e mode) :=
  failsLeaving_dispatch (fun _ _ => failsLeaving_onMemory (MemoryBackend.failsLeaving_openPulse e mode _))
    fun _ _ => failsLeaving_onSerialize_store (SerializeBackend.failsLeaving_openPulse_staging e mode _)

/-- Opening an existing entry keeps the disk too. -/
theorem failsLeaving_openPulse {e : DataEntry} {mode : OpenMode} (opens : mode.makesDirectory = false) :
    FailsLeaving (keptWith g) x (openPulse e mode) :=
  failsLeaving_dispatch (fun _ _ => failsLeaving_onMemory (MemoryBackend.failsLeaving_openPulse e mode _))
    fun _ _ => failsLeaving_onSerialize (SerializeBackend.failsLeaving_openPulse opens _)

theorem failsLeaving_closePulse (e : DataEntry) (mode : CloseMode) :
    FailsLeaving (keptWith g) x (closePulse e mode) :=
  failsLeaving_dispatch (fun _ _ => failsLeaving_onMemory (MemoryBackend.failsLeaving_closePulse e mode _))
    fun _ _ => failsLeaving_onSerialize (SerializeBackend.failsLeaving_closePulse mode _)

theorem failsLeaving_beginAction (op : Operation) :
    FailsLeaving (keptWith g) x (beginAction op) :=
  failsLeaving_dispatch (fun _ _ => failsLeaving_onMemory (MemoryBackend.failsLeaving_beginAction op _))
    fun _ _ => failsLeaving_onSerialize (SerializeBackend.failsLeaving_beginAction op _)

theorem failsLeaving_writeData (ctx : Context) (field timebase : String) (data : Buffer) :
    FailsLeaving (keptWith g) x (writeData ctx field timebase data) :=
  failsLeaving_dispatch
    (fun _ _ => failsLeaving_onMemory (MemoryBackend.failsLeaving_writeData ctx field timebase data _))
    fun _ _ => failsLeaving_onSerialize (SerializeBackend.failsLeaving_writeData ctx field timebase data _)

theorem failsLeaving_deleteData (op : Operation) (path : String) :
    FailsLeaving (keptWith g) x (deleteData op path) :=
  failsLeaving_dispatch (fun _ _ => failsLeaving_onMemory (MemoryBackend.failsLeaving_deleteData op path _))
    fun _ _ => failsLeaving_onSerialize (failsLeaving_pure _)

theorem failsLeaving_beginArray (c : ArrayContext) (size : Int) :
    FailsLeaving (keptWith g) x (beginArray c size) :=
  failsLeaving_dispatch (fun _ _ => failsLeaving_onMemory (MemoryBackend.failsLeaving_beginArray c size _))
    fun _ _ => failsLeaving_onSerialize (SerializeBackend.failsLeaving_beginArray c size _)

theorem leaves_readData (ctx : Context) (field timebase : String) :
    Leaves id x (readData ctx field timebase) :=
  leaves_dispatch (fun _ _ => MemoryBackend.leaves_readData ctx field timebase _)
    fun _ _ => SerializeBackend.leaves_readData ctx field _

theorem leaves_occurrences (e : DataEntry) (name : String) :
    Leaves id x (occurrences e name) := by
  unfold occurrences
  exact leaves_get_bind (leaves_dispatch (fun _ _ => leaves_pure _) fun _ _ => leaves_raise _)

end Calls

end Backend

end AccessLayer
