import Mathlib
import AccessLayer.Proofs.FailedCalls
/-!
The shared store of a session stays well formed: its sixteen buckets, and the data objects of
every entry in ascending order of name. Only a memory backend changes the store, and each of its
calls changes it in one of the ways `StoreChange` lists, each of which keeps it well formed; the
table of contexts, the journal, the serialized backends and their disk never touch it. So every
call of a session, whether it answers or fails, leaves a well-formed store well formed
(`Session.keepsStore_perform`), and every session that calls lead to from one with a
well-formed store, a fresh one among them, has one (`Session.storeWF_performAll`).
-/

namespace AccessLayer

/-! ## Properties a run preserves -/

section Preserving

variable {ε σ τ α β : Type} {P : σ → Prop} {s : σ}

/-- From `s`, `m` leaves a state satisfying `P` when `s` satisfies it, whether it answers or
fails. -/
def Preserves (P : σ → Prop) (s : σ) (m : EStateM ε σ α) : Prop := P s → P (m.run s).state

theorem Preserves.bind {m : EStateM ε σ α} {f : α → EStateM ε σ β} (first : Preserves P s m)
    (rest : ∀ a u, m.run s = .ok a u → Preserves P u (f a)) : Preserves P s (m >>= f) := by
  intro holds
  have after := first holds
  rw [EStateM.run_bind]
  cases ran : m.run s with
  | ok a u => rw [ran] at after; exact rest a u ran after
  | error e u => rw [ran] at after; exact after

/-- A handler starts from the state the failure left. -/
theorem Preserves.tryCatch {m : EStateM ε σ α} {handler : ε → EStateM ε σ α}
    (first : Preserves P s m) (rest : ∀ e u, m.run s = .error e u → Preserves P u (handler e)) :
    Preserves P s (tryCatch m handler) := by
  intro holds
  have after := first holds
  rw [EStateM.run_tryCatch]
  cases ran : m.run s with
  | ok a u => rw [ran] at after; exact after
  | error e u => rw [ran] at after; exact rest e u ran after

/-- A run that leaves a view of the state preserves every property of that view. -/
theorem Leaves.preserves {view : σ → τ} {m : EStateM ε σ α} (leaves : Leaves view s m)
    (Q : τ → Prop) : Preserves (fun t => Q (view t)) s m := by
  intro holds
  unfold Leaves at leaves
  rw [leaves]
  exact holds

theorem preserves_get_bind {f : σ → EStateM ε σ β} (rest : Preserves P s (f s)) :
    Preserves P s (get >>= f) := rest

theorem preserves_set_bind {v : σ} {f : PUnit → EStateM ε σ β} (keeps : P s → P v)
    (rest : Preserves P v (f ⟨⟩)) : Preserves P s (set v >>= f) :=
  fun holds => rest (keeps holds)

theorem preserves_modify_bind {g : σ → σ} {f : PUnit → EStateM ε σ β} (keeps : P s → P (g s))
    (rest : Preserves P (g s) (f ⟨⟩)) : Preserves P s (modify g >>= f) :=
  fun holds => rest (keeps holds)

end Preserving

/-! ## Memory and backend calls -/

namespace MemoryOp

/-- Every memory call keeps a well-formed store well formed. -/
theorem wf_perform (op : MemoryOp) (b : MemoryBackend) {st : Store} (wf : st.WF) :
    (op.perform.run (b, st)).state.2.WF :=
  (storeChange_perform op b st).wf wf

end MemoryOp

namespace Backend

/-- A backend call that leaves a well-formed shared store well formed, from every backend. -/
def KeepsStore {α : Type} (call : BackendCall α) : Prop :=
  ∀ x, Preserves (fun y : Backend × Medium => y.2.store.WF) x call

/-- A dispatched call keeps the store well formed when its memory call does: the empty and the
serialized backends never touch the store. -/
theorem keepsStore_dispatch {α : Type} {none : α} {memory : MemoryCall α}
    {serialize : SerializeCall α} (keeps : ∀ b st, st.WF → (memory.run (b, st)).state.2.WF) :
    KeepsStore (dispatch none memory serialize) := by
  rintro ⟨be, m⟩ wf
  cases be with
  | empty => exact wf
  | memory b =>
    show ((onMemory b memory).run (.memory b, m)).state.2.store.WF
    have kept := keeps b m.store wf
    rw [run_onMemory]
    cases ran : memory.run (b, m.store) <;> (rw [ran] at kept; exact kept)
  | serialize b =>
    show ((onSerialize b serialize).run (.serialize b, m)).state.2.store.WF
    rw [run_onSerialize]
    cases serialize.run (b, m.disk) <;> exact wf

theorem keepsStore_openPulse (e : DataEntry) (mode : OpenMode) : KeepsStore (openPulse e mode) :=
  keepsStore_dispatch fun b _ wf => MemoryOp.wf_perform (.openPulse e mode) b wf

theorem keepsStore_closePulse (e : DataEntry) (mode : CloseMode) :
    KeepsStore (closePulse e mode) :=
  keepsStore_dispatch fun b _ wf => MemoryOp.wf_perform (.closePulse e mode) b wf

theorem keepsStore_beginAction (op : Operation) : KeepsStore (beginAction op) :=
  keepsStore_dispatch fun b _ wf => MemoryOp.wf_perform (.beginAction op) b wf

theorem keepsStore_endAction (ctx : Context) : KeepsStore (endAction ctx) :=
  keepsStore_dispatch fun b _ wf => MemoryOp.wf_perform (.endAction ctx) b wf

theorem keepsStore_writeData (ctx : Context) (field timebase : String) (data : Buffer) :
    KeepsStore (writeData ctx field timebase data) :=
  keepsStore_dispatch fun b _ wf => MemoryOp.wf_perform (.writeData ctx field timebase data) b wf

theorem keepsStore_deleteData (op : Operation) (path : String) : KeepsStore (deleteData op path) :=
  keepsStore_dispatch fun b _ wf => MemoryOp.wf_perform (.deleteData op path) b wf

theorem keepsStore_beginArray (c : ArrayContext) (size : Int) : KeepsStore (beginArray c size) :=
  keepsStore_dispatch fun b _ wf => by
    have kept := MemoryOp.wf_perform (.beginArray c size) b wf
    rwa [MemoryOp.perform, state_run_map] at kept

theorem keepsStore_readData (ctx : Context) (field timebase : String) :
    KeepsStore (readData ctx field timebase) :=
  fun x => (leaves_readData x ctx field timebase).preserves fun y => y.2.store.WF

theorem keepsStore_occurrences (e : DataEntry) (name : String) : KeepsStore (occurrences e name) :=
  fun x => (leaves_occurrences x e name).preserves fun y => y.2.store.WF

end Backend

/-! ## The calls of a session -/

namespace Session

/-- A call that leaves a well-formed store well formed, from every session. -/
def KeepsStore {α : Type} (m : SessionM α) : Prop :=
  ∀ s, Preserves (fun t : Session => t.medium.store.WF) s m

section Primitives

variable {α β : Type}

theorem KeepsStore.bind {m : SessionM α} {f : α → SessionM β} (first : KeepsStore m)
    (rest : ∀ a, KeepsStore (f a)) : KeepsStore (m >>= f) :=
  fun s => (first s).bind fun a u _ => rest a u

theorem KeepsStore.map {m : SessionM α} (keeps : KeepsStore m) (f : α → β) :
    KeepsStore (f <$> m) := by
  intro s wf
  show ((f <$> m).run s).state.medium.store.WF
  rw [state_run_map]
  exact keeps s wf

/-- A call that leaves the store as it was keeps it well formed. -/
theorem keepsStore_of_leaves {m : SessionM α}
    (leaves : ∀ s, Leaves (fun t : Session => t.medium.store) s m) : KeepsStore m :=
  fun s => (leaves s).preserves Store.WF

theorem keepsStore_pure (a : α) : KeepsStore (pure a : SessionM α) :=
  keepsStore_of_leaves fun _ => leaves_pure a

theorem keepsStore_raise (f : Failure) : KeepsStore (Failure.raise f : SessionM α) :=
  keepsStore_of_leaves fun _ => leaves_raise f

theorem keepsStore_raise_bind (f : Failure) (g : α → SessionM β) :
    KeepsStore (Failure.raise f >>= g) :=
  keepsStore_of_leaves fun _ => leaves_raise_bind f g

theorem keepsStore_toCall (r : Except Failure α) : KeepsStore (Except.toCall r : SessionM α) :=
  keepsStore_of_leaves fun _ => leaves_toCall r

theorem keepsStore_lookup (id : Int) : KeepsStore (lookup id) :=
  keepsStore_of_leaves fun _ => leaves_lookup id

theorem keepsStore_entryOf (id : Int) : KeepsStore (entryOf id) :=
  keepsStore_of_leaves fun _ => leaves_entryOf id

theorem keepsStore_add (backend : Nat) (ctx : Context) : KeepsStore (add backend ctx) :=
  keepsStore_of_leaves fun _ => (leaves_add (g := Medium.store) backend ctx).map Prod.snd

theorem keepsStore_note (level : LogLevel) (message : String) : KeepsStore (note level message) :=
  keepsStore_of_leaves fun _ => (leaves_note (g := Medium.store) level message).map Prod.snd

theorem keepsStore_del (id : Int) : KeepsStore (del id) :=
  keepsStore_of_leaves fun _ => (leaves_del (g := Medium.store) id).map Prod.snd

theorem keepsStore_operation (build : Nat → Except OperationError Operation) :
    KeepsStore (operation build) :=
  keepsStore_of_leaves fun _ => (leaves_operation (g := Medium.store) build).map Prod.snd

/-- A backend call that keeps the store well formed does so in the session. -/
theorem keepsStore_onBackend {i : Nat} {call : BackendCall α} (keeps : Backend.KeepsStore call) :
    KeepsStore (onBackend i call) := by
  intro s wf
  have kept := keeps (s.backends.getD i .empty, s.medium) wf
  show ((onBackend i call).run s).state.medium.store.WF
  rw [run_onBackend]
  cases ran : call.run (s.backends.getD i .empty, s.medium) <;> (rw [ran] at kept; exact kept)

end Primitives

theorem keepsStore_closePulse (id : Int) (mode : CloseMode) : KeepsStore (closePulse id mode) := by
  unfold closePulse
  exact (keepsStore_entryOf id).bind fun ⟨_, de⟩ => (keepsStore_note _ _).bind fun _ =>
    keepsStore_onBackend (Backend.keepsStore_closePulse de mode)

theorem keepsStore_beginOperation (sl : Slot) (op : Operation) :
    KeepsStore (beginOperation sl op) := by
  unfold beginOperation
  exact (keepsStore_onBackend (Backend.keepsStore_beginAction op)).bind fun _ =>
    (keepsStore_add _ _).bind fun _ => (keepsStore_note _ _).bind fun _ => keepsStore_pure _

theorem keepsStore_beginGlobal (id : Int) (name datapath : String) (access : AccessMode) :
    KeepsStore (beginGlobal id name datapath access) := by
  unfold beginGlobal
  exact (keepsStore_entryOf id).bind fun ⟨sl, _⟩ =>
    (keepsStore_operation _).bind fun op => keepsStore_beginOperation sl op

theorem keepsStore_beginSlice (id : Int) (name : String) (access : AccessMode) (time : Float)
    (interp : InterpMode) : KeepsStore (beginSlice id name access time interp) := by
  unfold beginSlice
  exact (keepsStore_entryOf id).bind fun ⟨sl, _⟩ =>
    (keepsStore_operation _).bind fun op => keepsStore_beginOperation sl op

theorem keepsStore_beginTimeRange (id : Int) (name : String) (access : AccessMode)
    (tmin tmax : Float) (dtime : List Float) (interp : InterpMode) :
    KeepsStore (beginTimeRange id name access tmin tmax dtime interp) := by
  unfold beginTimeRange
  refine (keepsStore_lookup id).bind fun sl s => preserves_get_bind ?_
  have finish : ∀ de, KeepsStore (operation (fun uid => Operation.timeRange de uid
      (normalizeName name) access tmin tmax dtime interp) >>= beginOperation sl) := fun _ =>
    (keepsStore_operation _).bind (keepsStore_beginOperation sl)
  dsimp only
  split
  · exact keepsStore_raise_bind _ _ s
  · split
    · exact (keepsStore_pure _).bind finish s
    · exact keepsStore_raise_bind _ _ s

theorem keepsStore_beginArray (id : Int) (path timebase : String) (size : Int) :
    KeepsStore (beginArray id path timebase size) := by
  unfold beginArray
  refine (keepsStore_lookup id).bind fun sl s => preserves_get_bind ?_
  dsimp only
  split
  case h_3 => exact keepsStore_raise_bind _ _ s
  -- below an array or an operation: the array is opened, ended at once when empty
  all_goals
    refine (keepsStore_pure _ s).bind fun c u built => ?_
    cases built
    refine preserves_set_bind (fun wf => wf) ?_
    refine (keepsStore_onBackend (Backend.keepsStore_beginArray _ size) _).bind fun n _ _ => ?_
    split_ifs
    · exact ((keepsStore_onBackend (Backend.keepsStore_endAction _)).bind fun _ =>
        keepsStore_raise_bind _ _) _
    · exact ((keepsStore_onBackend (Backend.keepsStore_endAction _)).bind fun _ =>
        keepsStore_pure _) _
    · exact ((keepsStore_add _ _).bind fun _ => (keepsStore_note _ _).bind fun _ =>
        keepsStore_pure _) _

theorem keepsStore_iterate (id step : Int) : KeepsStore (iterate id step) :=
  keepsStore_of_leaves fun s => (leaves_iterate (g := Medium.store) s id step).map Prod.snd

theorem keepsStore_endAction (id : Int) : KeepsStore (endAction id) := by
  unfold endAction
  split_ifs
  · exact keepsStore_pure _
  exact (keepsStore_del id).bind fun sl => (keepsStore_note _ _).bind fun _ s =>
    preserves_get_bind (keepsStore_onBackend (Backend.keepsStore_endAction _) s)

theorem keepsStore_writeData (id : Int) (field timebase : String) (data : Buffer) :
    KeepsStore (writeData id field timebase data) := by
  unfold writeData
  split_ifs
  · exact keepsStore_pure _
  exact (keepsStore_lookup id).bind fun _ s =>
    preserves_get_bind (keepsStore_onBackend (Backend.keepsStore_writeData _ _ _ _) s)

theorem keepsStore_readData (id : Int) (field timebase : String) (dt : DataType) (dim : Int) :
    KeepsStore (readData id field timebase dt dim) :=
  keepsStore_of_leaves fun s =>
    (leaves_readData (g := Medium.store) s id field timebase dt dim).map Prod.snd

theorem keepsStore_deleteData (id : Int) (path : String) : KeepsStore (deleteData id path) := by
  unfold deleteData
  refine (keepsStore_lookup id).bind fun sl => ?_
  split
  · exact keepsStore_onBackend (Backend.keepsStore_deleteData _ path)
  · exact keepsStore_raise _

theorem keepsStore_occurrences (id : Int) (name : String) : KeepsStore (occurrences id name) :=
  keepsStore_of_leaves fun s => (leaves_occurrences (g := Medium.store) s id name).map Prod.snd

theorem keepsStore_contextInfo (id : Int) (pointer : Nat → String) :
    KeepsStore (contextInfo id pointer) :=
  keepsStore_of_leaves fun s => (leaves_contextInfo (g := Medium.store) s id pointer).map Prod.snd

theorem keepsStore_backendId (id : Int) : KeepsStore (backendId id) :=
  keepsStore_of_leaves fun s => (leaves_backendId (g := Medium.store) s id).map Prod.snd

/-- Opening a data entry adds a backend and a slot, both apart from the store, and opens the
entry on the new backend; a refusal frees the slot again. -/
theorem keepsStore_beginDataEntry (uri : String) (mode : OpenMode) :
    KeepsStore (beginDataEntry uri mode) := by
  intro s
  unfold beginDataEntry
  refine preserves_get_bind ?_
  dsimp only
  split
  case h_2 => exact keepsStore_raise_bind _ _ s
  refine (keepsStore_pure _ s).bind fun _ u resolved => ?_
  cases resolved
  refine preserves_set_bind (fun wf => wf) ?_
  refine (keepsStore_toCall _ _).bind fun _ v _ => ?_
  refine (keepsStore_note _ _ _).bind fun _ w _ => preserves_get_bind ?_
  -- the new backend is appended beside the store, which stays as it was
  refine preserves_modify_bind (fun wf => wf) ?_
  refine (keepsStore_add _ _ _).bind fun id x _ => ?_
  -- a refused opening frees the slot again and fails as the backend did
  refine ((keepsStore_onBackend (Backend.keepsStore_openPulse _ mode) x).tryCatch fun e y _ =>
    ((keepsStore_del id).bind fun _ => keepsStore_of_leaves fun _ => leaves_throw e) y).bind
    fun _ z _ => ?_
  exact ((keepsStore_note _ _).bind fun _ => keepsStore_pure _) z

/-- Every call keeps a well-formed store well formed, whether it answers or fails. -/
theorem keepsStore_perform (c : Call) : KeepsStore c.perform := by
  cases c with
  | beginDataEntry uri mode => exact (keepsStore_beginDataEntry uri mode).map _
  | closePulse id mode => exact (keepsStore_closePulse id mode).map _
  | beginGlobal id name datapath access => exact (keepsStore_beginGlobal id name datapath access).map _
  | beginSlice id name access time interp =>
    exact (keepsStore_beginSlice id name access time interp).map _
  | beginTimeRange id name access tmin tmax dtime interp =>
    exact (keepsStore_beginTimeRange id name access tmin tmax dtime interp).map _
  | beginArray id path timebase size => exact (keepsStore_beginArray id path timebase size).map _
  | iterate id step => exact (keepsStore_iterate id step).map _
  | endAction id => exact (keepsStore_endAction id).map _
  | writeData id field timebase data => exact (keepsStore_writeData id field timebase data).map _
  | readData id field timebase dt dim => exact (keepsStore_readData id field timebase dt dim).map _
  | deleteData id path => exact (keepsStore_deleteData id path).map _
  | occurrences id name => exact (keepsStore_occurrences id name).map _
  | contextInfo id pointer => exact (keepsStore_contextInfo id pointer).map _
  | backendId id => exact (keepsStore_backendId id).map _

/-- The session after a sequence of calls, each answering or failing. -/
def performAll (s : Session) (calls : List Call) : Session :=
  calls.foldl (fun s c => (c.perform.run s).state) s

/-- Every session that calls lead to from one with a well-formed store has one; a session with
an empty store starts well formed. -/
theorem storeWF_performAll {s : Session} (wf : s.medium.store.WF) (calls : List Call) :
    (s.performAll calls).medium.store.WF := by
  induction calls generalizing s with
  | nil => exact wf
  | cons c rest ih => exact ih (keepsStore_perform c s wf)

end Session

end AccessLayer
