import Mathlib
import AccessLayer.Proofs.Calls
import AccessLayer.Proofs.StoreLaws
/-!
Memory backends that share one store. Each backend keeps its actions by operation; a read works on
the data object as the store held it when the read began, a write on a staged copy that its end
commits. The store changes only when an entry is opened, an entry is closed with erasure, or a
write ends (`StoreChange`).

Most calls never look at the store: they read or change the action of one operation and put the
store back as they found it. Such a call is `Blind`: run from one backend with any two stores it
answers alike and leaves the same backend, which differs at most in that action (`Confined`); a
read stays the same read on the same tree (`Action.Continues`). From these facts follows what a
read answers: the object as it was committed at its begin, whatever other actions or backends
commit, truncate or erase afterwards.
-/

namespace AccessLayer

/-- A call on a memory backend with its arguments, one for each entry point. -/
inductive MemoryOp where
  | openPulse (e : DataEntry) (mode : OpenMode)
  | closePulse (e : DataEntry) (mode : CloseMode)
  | beginAction (op : Operation)
  | endAction (ctx : Context)
  | writeData (ctx : Context) (field timebase : String) (data : Buffer)
  | readData (ctx : Context) (field timebase : String)
  | deleteData (op : Operation) (path : String)
  | beginArray (c : ArrayContext) (size : Int)

namespace MemoryOp

/-- Carries out a call; what it answers is not kept here. -/
def perform : MemoryOp → MemoryCall Unit
  | openPulse e mode => MemoryBackend.openPulse e mode
  | closePulse e mode => MemoryBackend.closePulse e mode
  | beginAction op => MemoryBackend.beginAction op
  | endAction ctx => MemoryBackend.endAction ctx
  | writeData ctx field timebase data => MemoryBackend.writeData ctx field timebase data
  | readData ctx field timebase => (fun _ => ()) <$> MemoryBackend.readData ctx field timebase
  | deleteData op path => MemoryBackend.deleteData op path
  | beginArray c size => (fun _ => ()) <$> MemoryBackend.beginArray c size

end MemoryOp

/-- Memory backends that share one store, each under its own number. -/
structure Pool where
  backends : Nat → MemoryBackend
  store : Store

namespace Pool

/-- Runs a call on backend `i`, which then holds what the call left, as the store does. -/
def call (p : Pool) (i : Nat) (op : MemoryOp) : Pool :=
  let after := (op.perform.run (p.backends i, p.store)).state
  { backends := Function.update p.backends i after.1, store := after.2 }

/-- Runs calls one after another, each on its backend. -/
def run (p : Pool) : List (Nat × MemoryOp) → Pool
  | [] => p
  | (i, op) :: rest => (p.call i op).run rest

@[simp] theorem run_nil (p : Pool) : p.run [] = p := rfl

@[simp] theorem run_cons (p : Pool) (i : Nat) (op : MemoryOp) (rest : List (Nat × MemoryOp)) :
    p.run ((i, op) :: rest) = (p.call i op).run rest := rfl

@[simp] theorem call_store (p : Pool) (i : Nat) (op : MemoryOp) :
    (p.call i op).store = (op.perform.run (p.backends i, p.store)).state.2 := rfl

@[simp] theorem call_backends_self (p : Pool) (i : Nat) (op : MemoryOp) :
    (p.call i op).backends i = (op.perform.run (p.backends i, p.store)).state.1 :=
  Function.update_self _ _ _

theorem call_backends_of_ne (p : Pool) {i j : Nat} (op : MemoryOp) (other : j ≠ i) :
    (p.call i op).backends j = p.backends j :=
  Function.update_of_ne other _ _

end Pool

/-! ## Actions that go on -/

namespace Action

/-- A read whose arrays never append to its tree: what a read action is from its begin to its
end. -/
structure Reading (a : Action) : Prop where
  read : a.write = false
  flat : ∀ p ∈ a.arrays, p.2.appendTo = none

/-- `a'` goes on from `a`: a read stays a read of the same operation on the same tree. -/
def Continues (a a' : Action) : Prop :=
  a.Reading → a'.Reading ∧ a'.op = a.op ∧ a'.tree = a.tree

theorem Continues.refl (a : Action) : a.Continues a := fun reading => ⟨reading, rfl, rfl⟩

theorem Continues.trans {a a' a'' : Action} (first : a.Continues a') (second : a'.Continues a'') :
    a.Continues a'' := fun reading =>
  have ⟨reading', op', tree'⟩ := first reading
  have ⟨reading'', op'', tree''⟩ := second reading'
  ⟨reading'', op''.trans op', tree''.trans tree'⟩

/-- A write is no read, so whatever becomes of it goes on from it. -/
theorem continues_of_write {a : Action} (writes : a.write = true) (a' : Action) :
    a.Continues a' := fun reading => absurd reading.read (by rw [writes]; decide)

/-- Registering an array that does not append keeps a read going. -/
theorem continues_register (a : Action) (c : ArrayContext) {arr : OpenArray}
    (flat : arr.appendTo = none) : a.Continues (a.register c arr) := by
  intro reading
  refine ⟨⟨reading.read, fun p mem => ?_⟩, rfl, rfl⟩
  rcases List.mem_cons.1 mem with first | later
  · rw [first]; exact flat
  · exact reading.flat p (List.mem_of_mem_filter later)

theorem continues_unregister (a : Action) (uid : Nat) : a.Continues (a.unregister uid) :=
  fun reading => ⟨⟨reading.read, fun p mem => reading.flat p (List.mem_of_mem_filter mem)⟩,
    rfl, rfl⟩

/-- Closing an array of a read only forgets it. -/
theorem continues_endArray {a a' : Action} {c : ArrayContext} (ended : a.endArray c = .ok a') :
    a.Continues a' := by
  intro reading
  unfold endArray at ended
  cases found : a.arrayOf c with
  | error e => rw [found] at ended; cases ended
  | ok arr =>
    rw [found] at ended
    have flat : arr.appendTo = none := by
      unfold arrayOf at found
      cases held : a.arrays.lookup c.uid with
      | none => rw [held] at found; cases found
      | some arr' =>
        rw [held] at found
        cases found
        exact reading.flat (c.uid, arr) (mem_of_lookup held)
    simp only [bind, Except.bind, flat] at ended
    cases ended
    exact continues_unregister a c.uid reading

/-- Opening an array of a read as stored keeps the read going. -/
theorem continues_beginRead {a a' : Action} {c : ArrayContext} {n : Nat}
    (opened : a.beginRead c = .ok (n, a')) : a.Continues a' := by
  unfold beginRead at opened
  cases found : a.view c.parentContext with
  | error e => rw [found] at opened; cases opened
  | ok pv =>
    rw [found] at opened
    cases opened
    exact continues_register a c rfl

end Action

/-! ## The actions of a backend -/

theorem lookup_filter_ne {α : Type} (key j : Nat) (l : List (Nat × α)) :
    (l.filter (·.1 ≠ key)).lookup j = if j = key then none else l.lookup j := by
  induction l with
  | nil => split <;> rfl
  | cons x rest ih =>
    obtain ⟨k, v⟩ := x
    rw [List.filter_cons]
    by_cases dropped : k = key
    · subst dropped
      rw [if_neg (by simp), ih, lookup_cons_ite]
      by_cases same : j = k <;> simp [same]
    · rw [if_pos (by simpa using dropped), lookup_cons_ite, lookup_cons_ite, ih]
      by_cases same : j = k
      · subst same
        simp [dropped]
      · simp [same]

namespace MemoryBackend

theorem lookup_setAction (b : MemoryBackend) (key : Nat) (a : Action) (j : Nat) :
    (b.setAction key a).actions.lookup j = if j = key then some a else b.actions.lookup j := by
  simp only [setAction]
  rw [lookup_cons_ite, lookup_filter_ne]
  by_cases same : j = key <;> simp [same]

@[simp] theorem entry_dropAction (b : MemoryBackend) (key : Nat) : (b.dropAction key).entry = b.entry :=
  rfl

theorem lookup_dropAction (b : MemoryBackend) (key j : Nat) :
    (b.dropAction key).actions.lookup j = if j = key then none else b.actions.lookup j :=
  lookup_filter_ne key j b.actions

/-- An action found for a context is the one of its operation. -/
theorem actionOf_ok {b : MemoryBackend} {ctx : Context} {key : Nat} {a : Action}
    (found : b.actionOf ctx = .ok (key, a)) :
    ctx.operationUid = .ok key ∧ b.actions.lookup key = some a := by
  unfold actionOf at found
  cases uid : ctx.operationUid with
  | error e => rw [uid] at found; cases found
  | ok k =>
    rw [uid] at found
    simp only [bind, Except.bind] at found
    cases held : b.actions.lookup k with
    | none => rw [held] at found; cases found
    | some a' =>
      rw [held] at found
      cases found
      exact ⟨rfl, held⟩

end MemoryBackend

/-- `b'` is `b` but for the actions of the operations `owns` picks: each of them is gone or goes
on, and nothing else changes. -/
structure Confined (owns : Nat → Prop) (b b' : MemoryBackend) : Prop where
  entry_eq : b'.entry = b.entry
  interpolation_eq : b'.interpolation = b.interpolation
  others : ∀ j, ¬owns j → b'.actions.lookup j = b.actions.lookup j
  goes_on : ∀ j a', b'.actions.lookup j = some a' → ∃ a, b.actions.lookup j = some a ∧ a.Continues a'

namespace Confined

variable {owns : Nat → Prop}

theorem refl (b : MemoryBackend) : Confined owns b b :=
  ⟨rfl, rfl, fun _ _ => rfl, fun _ a' held => ⟨a', held, Action.Continues.refl a'⟩⟩

theorem trans {b b' b'' : MemoryBackend} (first : Confined owns b b') (second : Confined owns b' b'') :
    Confined owns b b'' where
  entry_eq := second.entry_eq.trans first.entry_eq
  interpolation_eq := second.interpolation_eq.trans first.interpolation_eq
  others j other := (second.others j other).trans (first.others j other)
  goes_on j a'' held := by
    obtain ⟨a', held', later⟩ := second.goes_on j a'' held
    obtain ⟨a, held₀, earlier⟩ := first.goes_on j a' held'
    exact ⟨a, held₀, earlier.trans later⟩

/-- Setting the action of an owned operation that goes on. -/
theorem setAction {b : MemoryBackend} {key : Nat} {a a' : Action} (owned : owns key)
    (found : b.actions.lookup key = some a) (goes : a.Continues a') :
    Confined owns b (b.setAction key a') where
  entry_eq := rfl
  interpolation_eq := rfl
  others j other := by
    rw [MemoryBackend.lookup_setAction, if_neg fun (same : j = key) => other (same ▸ owned)]
  goes_on j a'' held := by
    rw [MemoryBackend.lookup_setAction] at held
    split at held
    · case isTrue same =>
      cases held
      exact ⟨a, same ▸ found, goes⟩
    · exact ⟨a'', held, Action.Continues.refl a''⟩

/-- Setting again the action an owned operation was just given. -/
theorem setAction_again {b : MemoryBackend} {key : Nat} {a₁ a₂ : Action} (owned : owns key)
    (goes : a₁.Continues a₂) : Confined owns (b.setAction key a₁) (b.setAction key a₂) where
  entry_eq := rfl
  interpolation_eq := rfl
  others j other := by
    simp only [MemoryBackend.lookup_setAction, if_neg fun (same : j = key) => other (same ▸ owned)]
  goes_on j a'' held := by
    rw [MemoryBackend.lookup_setAction] at held
    split at held
    · case isTrue same =>
      cases held
      exact ⟨a₁, by rw [MemoryBackend.lookup_setAction, if_pos same], goes⟩
    · exact ⟨a'', by rw [MemoryBackend.lookup_setAction, if_neg ‹_›]; exact held,
        Action.Continues.refl a''⟩

end Confined

/-! ## Calls blind to the store -/

/-- The run of a call that touched its backend only, with the store `st` put back. -/
def withStore {α : Type} (st : Store) :
    EStateM.Result Fault MemoryBackend α → EStateM.Result Fault (MemoryBackend × Store) α
  | .ok a b => .ok a (b, st)
  | .error e b => .error e (b, st)

/-- From backend `b`, `m₁` run on store `st₁` and `m₂` run on `st₂` answer alike and leave the
same backend, confined to the actions `owns` picks, and each its store as it was. The two calls
are one call of the program, as it stands after reading each store. -/
def Twin {α : Type} (owns : Nat → Prop) (b : MemoryBackend) (st₁ st₂ : Store)
    (m₁ m₂ : MemoryCall α) : Prop :=
  ∃ r : EStateM.Result Fault MemoryBackend α,
    m₁.run (b, st₁) = withStore st₁ r ∧ m₂.run (b, st₂) = withStore st₂ r ∧ Confined owns b r.state

/-- A call that never reads the store, puts it back as it found it, and changes only the actions
`owns` picks. -/
def Blind {α : Type} (owns : Nat → Prop) (m : MemoryCall α) : Prop :=
  ∀ b st₁ st₂, Twin owns b st₁ st₂ m m

section Twin

variable {α β : Type} {owns : Nat → Prop} {b : MemoryBackend} {st₁ st₂ : Store}

theorem Twin.bind {m₁ m₂ : MemoryCall α} {f₁ f₂ : α → MemoryCall β}
    (first : Twin owns b st₁ st₂ m₁ m₂)
    (rest : ∀ a b', m₁.run (b, st₁) = .ok a (b', st₁) → Confined owns b b' →
      Twin owns b' st₁ st₂ (f₁ a) (f₂ a)) :
    Twin owns b st₁ st₂ (m₁ >>= f₁) (m₂ >>= f₂) := by
  obtain ⟨r, run₁, run₂, confined⟩ := first
  cases r with
  | ok a b' =>
    obtain ⟨r', run₁', run₂', confined'⟩ := rest a b' run₁ confined
    refine ⟨r', ?_, ?_, confined.trans confined'⟩
    · rw [EStateM.run_bind, run₁]; exact run₁'
    · rw [EStateM.run_bind, run₂]; exact run₂'
  | error e b' =>
    exact ⟨.error e b', by rw [EStateM.run_bind, run₁]; rfl, by rw [EStateM.run_bind, run₂]; rfl,
      confined⟩

theorem twin_get_bind {k₁ k₂ : MemoryBackend × Store → MemoryCall α}
    (twin : Twin owns b st₁ st₂ (k₁ (b, st₁)) (k₂ (b, st₂))) :
    Twin owns b st₁ st₂ (get >>= k₁) (get >>= k₂) := by
  obtain ⟨r, run₁, run₂, confined⟩ := twin
  exact ⟨r, by rw [EStateM.run_bind, EStateM.run_get]; exact run₁,
    by rw [EStateM.run_bind, EStateM.run_get]; exact run₂, confined⟩

theorem twin_set {b' : MemoryBackend} (confined : Confined owns b b') :
    Twin owns b st₁ st₂ (set (b', st₁)) (set (b', st₂)) :=
  ⟨.ok () b', rfl, rfl, confined⟩

theorem twin_toStep (r : Except Fault α) :
    Twin owns b st₁ st₂ (Except.toStep r) (Except.toStep r) := by
  cases r with
  | ok a => exact ⟨.ok a b, rfl, rfl, Confined.refl b⟩
  | error e => exact ⟨.error e b, rfl, rfl, Confined.refl b⟩

theorem twin_pure (a : α) : Twin owns b st₁ st₂ (pure a) (pure a) :=
  ⟨.ok a b, rfl, rfl, Confined.refl b⟩

theorem twin_raise (f : Failure) :
    Twin owns b st₁ st₂ (Failure.raise f : MemoryCall α) (Failure.raise f) :=
  ⟨.error (.failure f) b, rfl, rfl, Confined.refl b⟩

/-- A failing computation run as a step leaves the state, and its value is the computation's. -/
theorem toCall_ok {σ : Type} {r : Except Failure α} {s t : σ} {a : α}
    (ran : (Except.toCall r : EStateM Fault σ α).run s = .ok a t) : r = .ok a ∧ t = s := by
  cases r with
  | error e => cases ran
  | ok v => cases ran; exact ⟨rfl, rfl⟩

theorem toStep_ok {σ : Type} {r : Except Fault α} {s t : σ} {a : α}
    (ran : (Except.toStep r : EStateM Fault σ α).run s = .ok a t) : r = .ok a ∧ t = s := by
  cases r with
  | error e => cases ran
  | ok v => cases ran; exact ⟨rfl, rfl⟩

/-- The action a call on a context goes on to work on: the one of its operation. -/
theorem Twin.actionOf_bind {ctx : Context} {f₁ f₂ : Nat × Action → MemoryCall β}
    (rest : ∀ key a, ctx.operationUid = .ok key → b.actions.lookup key = some a →
      Twin owns b st₁ st₂ (f₁ (key, a)) (f₂ (key, a))) :
    Twin owns b st₁ st₂ (Except.toCall (b.actionOf ctx) >>= f₁)
      (Except.toCall (b.actionOf ctx) >>= f₂) := by
  refine Twin.bind (twin_toStep _) fun ⟨key, a⟩ b' ran _ => ?_
  obtain ⟨found, same⟩ := toCall_ok ran
  cases same
  obtain ⟨uid, held⟩ := MemoryBackend.actionOf_ok found
  exact rest key a uid held

end Twin

/-! ## Computations that look at no state -/

/-- A computation that neither reads nor changes the state: from every state it answers as the
step `r` does. -/
def Quiet {σ α : Type} (m : EStateM Fault σ α) : Prop :=
  ∃ r : Except Fault α, ∀ s, m.run s = (Except.toStep r).run s

namespace Quiet

variable {σ α β : Type}

theorem toStep (r : Except Fault α) : Quiet (Except.toStep r : EStateM Fault σ α) :=
  ⟨r, fun _ => rfl⟩

theorem pure (a : α) : Quiet (Pure.pure a : EStateM Fault σ α) := ⟨.ok a, fun _ => rfl⟩

theorem raise_bind (f : Failure) (rest : α → EStateM Fault σ β) :
    Quiet (Failure.raise f >>= rest) :=
  ⟨.error (.failure f), fun _ => rfl⟩

theorem throw_bind (e : Fault) (rest : α → EStateM Fault σ β) : Quiet (throw e >>= rest) :=
  ⟨.error e, fun _ => rfl⟩

theorem bind {m : EStateM Fault σ α} {f : α → EStateM Fault σ β} (first : Quiet m)
    (rest : ∀ a, Quiet (f a)) : Quiet (m >>= f) := by
  obtain ⟨r, runs⟩ := first
  cases r with
  | ok a =>
    obtain ⟨r', runs'⟩ := rest a
    exact ⟨r', fun s => by rw [EStateM.run_bind, runs]; exact runs' s⟩
  | error e => exact ⟨.error e, fun s => by rw [EStateM.run_bind, runs]; rfl⟩

/-- A quiet call answers alike from any two backends and stores. -/
theorem alike {m : MemoryCall α} (quiet : Quiet m) (b₁ b₂ : MemoryBackend) :
    ∃ r : Except Fault α, ∀ st₁ st₂,
      m.run (b₁, st₁) = (Except.toStep r).run (b₁, st₁) ∧
      m.run (b₂, st₂) = (Except.toStep r).run (b₂, st₂) :=
  have ⟨r, runs⟩ := quiet
  ⟨r, fun _ _ => ⟨runs _, runs _⟩⟩

end Quiet

theorem run_toStep_withStore {α : Type} (r : Except Fault α) (b : MemoryBackend) (st : Store) :
    (Except.toStep r : MemoryCall α).run (b, st) = withStore st ((Except.toStep r).run b) := by
  cases r <;> rfl

/-! ## The calls that never read the store -/

namespace MemoryBackend

theorem blind_writeData (ctx : Context) (field timebase : String) (data : Buffer) :
    Blind (fun j => ctx.operationUid = .ok j) (writeData ctx field timebase data) := by
  intro b st₁ st₂
  unfold writeData
  refine twin_get_bind ?_
  dsimp only
  refine Twin.actionOf_bind fun key a uid held => ?_
  dsimp only
  split
  · exact Twin.bind (twin_raise _) fun _ _ ran _ => nomatch ran
  · case isFalse writes =>
    refine Twin.bind (twin_toStep _) fun a' b' ran _ => ?_
    obtain ⟨_, same⟩ := toStep_ok ran
    cases same
    exact twin_set (Confined.setAction uid held
      (Action.continues_of_write (by simpa using writes) a'))

theorem blind_deleteData (op : Operation) (path : String) :
    Blind (fun j => j = op.uid) (deleteData op path) := by
  intro b st₁ st₂
  unfold deleteData
  refine twin_get_bind ?_
  dsimp only
  refine Twin.actionOf_bind fun key a uid held => ?_
  cases uid
  dsimp only
  split
  · exact Twin.bind (twin_raise _) fun _ _ ran _ => nomatch ran
  · case isFalse writes =>
    exact twin_set (Confined.setAction rfl held
      (Action.continues_of_write (by simpa using writes) _))

/-- Closing an array, or ending a data entry's context, which does nothing here. -/
theorem blind_endAction_array (c : ArrayContext) :
    Blind (fun j => j = c.op.uid) (endAction (.array c)) := by
  intro b st₁ st₂
  unfold endAction
  refine twin_get_bind ?_
  dsimp only
  refine Twin.actionOf_bind fun key a uid held => ?_
  cases uid
  refine Twin.bind (twin_toStep _) fun a' b' ran _ => ?_
  obtain ⟨ended, same⟩ := toCall_ok ran
  cases same
  exact twin_set (Confined.setAction rfl held (Action.continues_endArray ended))

theorem blind_endAction_entry (e : DataEntry) (owns : Nat → Prop) :
    Blind owns (endAction (.entry e)) := by
  intro b st₁ st₂
  unfold endAction
  exact twin_get_bind (twin_pure ())

theorem twin_beginTimedRead (key : Nat) {a : Action} (c : ArrayContext) {b : MemoryBackend}
    (st₁ st₂ : Store) (held : b.actions.lookup key = some a) :
    Twin (fun j => j = key) b st₁ st₂ (beginTimedRead key a c) (beginTimedRead key a c) := by
  unfold beginTimedRead
  refine twin_get_bind ?_
  dsimp only
  refine Twin.bind (twin_toStep _) fun pv b' ran _ => ?_
  cases (toCall_ok ran).2
  have registered : Confined (fun j => j = key) b (b.setAction key (a.register c { context := c })) :=
    Confined.setAction rfl held (Action.continues_register a c rfl)
  refine Twin.bind (twin_set registered) fun _ b₁ ran _ => ?_
  cases ran
  split
  · exact twin_pure 0
  · split
    · exact twin_pure 0
    · refine Twin.bind (twin_toStep _) fun times b₂ ran _ => ?_
      cases (toCall_ok ran).2
      split
      · exact twin_pure 0
      · refine Twin.bind (twin_toStep _) fun views b₃ ran _ => ?_
        cases (toStep_ok ran).2
        refine Twin.bind (twin_set (Confined.setAction_again rfl
          (Action.continues_register _ c
          (show ({ context := c, views } : OpenArray).appendTo = none from rfl)))) fun _ _ _ _ => ?_
        exact twin_pure _

theorem blind_beginArray (c : ArrayContext) (size : Int) :
    Blind (fun j => j = c.op.uid) (beginArray c size) := by
  intro b st₁ st₂
  unfold beginArray
  refine twin_get_bind ?_
  dsimp only
  refine Twin.actionOf_bind fun key a uid held => ?_
  cases uid
  dsimp only
  split
  · case isTrue writes =>
    refine Twin.bind (twin_toStep _) fun a' b' ran _ => ?_
    cases (toCall_ok ran).2
    exact Twin.bind (twin_set (Confined.setAction rfl held
      (Action.continues_of_write writes a'))) fun _ _ _ _ => twin_pure _
  · split
    · refine Twin.bind (twin_toStep _) fun ⟨n, a'⟩ b' ran _ => ?_
      obtain ⟨opened, same⟩ := toCall_ok ran
      cases same
      exact Twin.bind (twin_set (Confined.setAction rfl held
        (Action.continues_beginRead opened))) fun _ _ _ _ => twin_pure _
    · exact Twin.bind (twin_beginTimedRead _ c st₁ st₂ held) fun _ _ _ _ => twin_pure _

/-- The end of a read of a time-dependent field, once its times `tv` are known: nothing when
none is left, a refusal without interpolation, else the slice or the window of the
operation. -/
theorem quiet_cut (op : Operation) (data : Buffer) (tv : List Float) (interpolating : Bool)
    (field timebase : String) :
    let window := decide (field = if timebase.startsWith "/" then (timebase.drop 1).toString
      else timebase)
    let cut : MemoryCall (Option Buffer) :=
      if op.range = .slice then Except.toStep (sliceOf op data tv) >>= fun r => pure (some r)
      else Except.toStep (rangeOf op data tv window)
    let read : MemoryCall (Option Buffer) :=
      if tv.isEmpty then pure none
      else if !interpolating then
        (Failure.raise (.backend "No data interpolation installed") : MemoryCall Unit) >>=
          fun _ => cut
      else cut
    Quiet read := by
  intro window cut read
  have cutQuiet : Quiet cut := by
    unfold cut
    split
    · exact Quiet.bind (.toStep _) fun _ => .pure _
    · exact .toStep _
  unfold read
  split
  · exact .pure none
  · split
    · exact Quiet.raise_bind _ _
    · exact cutQuiet

/-- A read answers from the action of its operation and the interpolation setting alone: two
backends that agree on these answer alike, whatever else they and the store hold, and the
read changes neither. -/
theorem readData_congr {ctx : Context} (field timebase : String) (b₁ b₂ : MemoryBackend)
    (found : b₁.actionOf ctx = b₂.actionOf ctx) (interp : b₁.interpolation = b₂.interpolation) :
    ∃ r : Except Fault (Option Buffer), ∀ st₁ st₂,
      (readData ctx field timebase).run (b₁, st₁) = (Except.toStep r).run (b₁, st₁) ∧
      (readData ctx field timebase).run (b₂, st₂) = (Except.toStep r).run (b₂, st₂) := by
  unfold readData
  simp only [run_get_bind, found, interp]
  apply Quiet.alike
  refine Quiet.bind (.toStep _) fun _ => Quiet.bind (.toStep _) fun v =>
    Quiet.bind (.toStep _) fun leaf => ?_
  split
  · split
    · exact .pure _
    · refine Quiet.bind (.toStep _) fun times => ?_
      split
      · split
        · split
          · exact Quiet.throw_bind _ _
          · exact Quiet.bind (.pure _) fun tv => quiet_cut _ _ tv _ field timebase
        · exact Quiet.bind (.pure _) fun tv => quiet_cut _ _ tv _ field timebase
      · exact .pure _
  · exact .pure _

theorem blind_readData (ctx : Context) (field timebase : String) (owns : Nat → Prop) :
    Blind owns (readData ctx field timebase) := by
  intro b st₁ st₂
  obtain ⟨r, runs⟩ := readData_congr field timebase b b rfl rfl
  refine ⟨(Except.toStep r).run b, ?_, ?_, ?_⟩
  · rw [(runs st₁ st₂).1, run_toStep_withStore]
  · rw [(runs st₁ st₂).2, run_toStep_withStore]
  · cases r <;> exact Confined.refl b

/-! ## The calls that read or change the store -/

/-- Opening an entry keeps the actions; the store stays, or gets the entry, emptied when
force-created. -/
theorem openPulse_run (e : DataEntry) (mode : OpenMode) (b : MemoryBackend) (st : Store) :
    ((openPulse e mode).run (b, st)).state.1.actions = b.actions ∧
    (((openPulse e mode).run (b, st)).state.2 = st ∨
      ((openPulse e mode).run (b, st)).state.2 =
        (st.create e.storeKey (decide (mode = .forceCreate))).2) := by
  unfold openPulse
  simp only [EStateM.run_bind, EStateM.run_get]
  by_cases opens : mode = .openEntry
  · by_cases present : st.contains e.storeKey <;> simp [opens, present]
  by_cases forces : mode = .forceOpen
  · subst forces
    simp [OpenMode.forceOpen, OpenMode.openEntry, OpenMode.forceCreate]
  by_cases creates : mode = .create
  · subst creates
    by_cases present : st.contains e.storeKey <;>
      simp [present, OpenMode.create, OpenMode.openEntry, OpenMode.forceOpen, OpenMode.forceCreate]
  by_cases truncates : mode = .forceCreate
  · subst truncates
    simp [OpenMode.forceOpen, OpenMode.openEntry, OpenMode.create, OpenMode.forceCreate]
  · simp [opens, forces, creates, truncates]

/-- Closing an entry drops every action, and the entry itself when asked to erase it. -/
theorem closePulse_run (e : DataEntry) (mode : CloseMode) (b : MemoryBackend) (st : Store) :
    (closePulse e mode).run (b, st) = .ok () ({ b with entry := "", actions := [] },
      if mode = .erase then (st.remove e.storeKey).2 else st) := rfl

/-- Beginning an action fails leaving all, or keeps the store and gives the operation a fresh
action; a read starts on the object the store holds, or on an empty tree. -/
theorem beginAction_run (op : Operation) (b : MemoryBackend) (st : Store) :
    (∃ e, (beginAction op).run (b, st) = .error e (b, st)) ∨
    ∃ a : Action, (beginAction op).run (b, st) = .ok () (b.setAction op.uid a, st) ∧
      a.op = op ∧ a.arrays = [] ∧ (a.write = false ↔ op.access = .read) ∧
      (op.access = .read → a.tree = (st.get? b.entry op.name).getD Tree.empty) := by
  unfold beginAction
  simp only [EStateM.run_bind, EStateM.run_get]
  split
  · exact .inl ⟨_, rfl⟩
  · split
    · exact .inl ⟨_, rfl⟩
    · right
      refine ⟨_, rfl, rfl, rfl, by simp, fun read => ?_⟩
      cases st.get? b.entry op.name <;> simp [read]

/-- Ending an operation fails leaving all, or drops its action; a write then commits its tree,
which fails when the entry is gone. -/
theorem endAction_operation_run (o : Operation) (b : MemoryBackend) (st : Store) :
    ((endAction (.operation o)).run (b, st)).state = (b, st) ∨
    ∃ key a, b.actionOf (.operation o) = .ok (key, a) ∧
      ((endAction (.operation o)).run (b, st)).state.1 = b.dropAction key ∧
      (((endAction (.operation o)).run (b, st)).state.2 = st ∨
        (a.write = true ∧
          st.put b.entry o.name (some a.tree) = .ok ((endAction (.operation o)).run (b, st)).state.2)) := by
  unfold endAction
  simp only [EStateM.run_bind, EStateM.run_get]
  cases found : b.actionOf (.operation o) with
  | error f => left; rfl
  | ok p =>
    obtain ⟨key, a⟩ := p
    right
    refine ⟨key, a, rfl, ?_⟩
    simp only [run_toCall]
    by_cases writes : a.write = true
    · simp only [if_pos writes]
      cases committed : st.put (b.dropAction key).entry o.name (some a.tree) with
      | error m => exact ⟨rfl, .inl rfl⟩
      | ok st' => exact ⟨rfl, .inr ⟨writes, committed⟩⟩
    · simp only [if_neg writes]
      exact ⟨rfl, .inl rfl⟩

/-- Ending a write drops its action and commits its tree, which fails when the entry is
gone. -/
theorem endAction_commit_run {o : Operation} {b : MemoryBackend} {key : Nat} {a : Action}
    (found : b.actionOf (.operation o) = .ok (key, a)) (writes : a.write = true) (st : Store) :
    (endAction (.operation o)).run (b, st) =
      match st.put b.entry o.name (some a.tree) with
      | .ok st' => .ok () (b.dropAction key, st')
      | .error m => .error (.failure (.backend m)) (b.dropAction key, st) := by
  unfold endAction
  simp only [EStateM.run_bind, EStateM.run_get, run_toCall, found, if_pos writes, entry_dropAction]
  cases st.put b.entry o.name (some a.tree) <;> rfl

end MemoryBackend

/-! ## What a call does to the store -/

section Blind

variable {α : Type} {owns : Nat → Prop} {m : MemoryCall α}

theorem withStore_injective {st : Store} {r r' : EStateM.Result Fault MemoryBackend α}
    (same : withStore st r = withStore st r') : r = r' := by
  cases r <;> cases r' <;> cases same <;> rfl

@[simp] theorem state_withStore (st : Store) (r : EStateM.Result Fault MemoryBackend α) :
    (withStore st r).state = (r.state, st) := by
  cases r <;> rfl

/-- A blind call is one run on the backend alone: whatever the store, it answers and leaves the
backend alike, keeps the store, and changes only the actions it owns. -/
theorem Blind.run_eq (blind : Blind owns m) (b : MemoryBackend) :
    ∃ r : EStateM.Result Fault MemoryBackend α,
      Confined owns b r.state ∧ ∀ st, m.run (b, st) = withStore st r := by
  obtain ⟨r, first, _, confined⟩ := blind b {} {}
  refine ⟨r, confined, fun st => ?_⟩
  obtain ⟨r', first', later, _⟩ := blind b {} st
  rw [later, withStore_injective (first'.symm.trans first)]

theorem Blind.store_eq (blind : Blind owns m) (b : MemoryBackend) (st : Store) :
    (m.run (b, st)).state.2 = st := by
  obtain ⟨r, _, runs⟩ := blind.run_eq b
  rw [runs, state_withStore]

theorem Blind.confined (blind : Blind owns m) (b : MemoryBackend) (st : Store) :
    Confined owns b (m.run (b, st)).state.1 := by
  obtain ⟨r, confined, runs⟩ := blind.run_eq b
  rw [runs, state_withStore]
  exact confined

end Blind

namespace MemoryOp

/-- Whether a call keeps to the action of one operation: writing, deleting, reading, opening an
array, and ending an array or a data entry's context. -/
def keepsToAction : MemoryOp → Bool
  | writeData .. | deleteData .. | readData .. | beginArray .. => true
  | endAction (.array _) | endAction (.entry _) => true
  | _ => false

/-- The operations whose action a call may change. -/
def Owns : MemoryOp → Nat → Prop
  | writeData ctx .., j => ctx.operationUid = .ok j
  | deleteData op _, j | beginAction op, j | endAction (.operation op), j => j = op.uid
  | beginArray c _, j | endAction (.array c), j => j = c.op.uid
  | _, _ => False

/-- The calls that keep to one action are blind to the store. -/
theorem blind_perform {op : MemoryOp} (keeps : op.keepsToAction = true) : Blind op.Owns op.perform := by
  cases op with
  | writeData ctx field timebase data => exact MemoryBackend.blind_writeData ctx field timebase data
  | deleteData o path => exact MemoryBackend.blind_deleteData o path
  | readData ctx field timebase =>
    intro b st₁ st₂
    obtain ⟨r, run₁, run₂, confined⟩ := MemoryBackend.blind_readData ctx field timebase _ b st₁ st₂
    refine ⟨r.map fun _ => (), ?_, ?_, ?_⟩
    · rw [perform, EStateM.run_map, run₁]; cases r <;> rfl
    · rw [perform, EStateM.run_map, run₂]; cases r <;> rfl
    · cases r <;> exact confined
  | beginArray c size =>
    intro b st₁ st₂
    obtain ⟨r, run₁, run₂, confined⟩ := MemoryBackend.blind_beginArray c size b st₁ st₂
    refine ⟨r.map fun _ => (), ?_, ?_, ?_⟩
    · rw [perform, EStateM.run_map, run₁]; cases r <;> rfl
    · rw [perform, EStateM.run_map, run₂]; cases r <;> rfl
    · cases r <;> exact confined
  | endAction ctx =>
    cases ctx with
    | entry e => exact MemoryBackend.blind_endAction_entry e _
    | array c => exact MemoryBackend.blind_endAction_array c
    | operation o => cases keeps
  | openPulse => cases keeps
  | closePulse => cases keeps
  | beginAction => cases keeps

end MemoryOp

/-- How one call on backend `b` may change the store `st` into `st'`. -/
inductive StoreChange (b : MemoryBackend) (st : Store) : MemoryOp → Store → Prop
  /-- The store is as it was. -/
  | keeps (op : MemoryOp) : StoreChange b st op st
  /-- Opening an entry makes it, emptied when force-created. -/
  | opens (e : DataEntry) (mode : OpenMode) :
      StoreChange b st (.openPulse e mode) (st.create e.storeKey (decide (mode = .forceCreate))).2
  /-- Closing an entry with erasure drops it. -/
  | erases (e : DataEntry) : StoreChange b st (.closePulse e .erase) (st.remove e.storeKey).2
  /-- Ending a write commits its staged tree as the operation's data object. -/
  | commits {o : Operation} {key : Nat} {a : Action} {st' : Store} :
      b.actionOf (.operation o) = .ok (key, a) → a.write = true →
      st.put b.entry o.name (some a.tree) = .ok st' →
      StoreChange b st (.endAction (.operation o)) st'

/-- Every call changes the store in one of the ways `StoreChange` lists. -/
theorem storeChange_perform (op : MemoryOp) (b : MemoryBackend) (st : Store) :
    StoreChange b st op (op.perform.run (b, st)).state.2 := by
  -- the calls that keep to one action leave the store
  cases keeps : op.keepsToAction
  case true =>
    rw [(MemoryOp.blind_perform keeps).store_eq b st]
    exact .keeps op
  cases op with
  | openPulse e mode =>
    show StoreChange b st _ ((MemoryBackend.openPulse e mode).run (b, st)).state.2
    rcases (MemoryBackend.openPulse_run e mode b st).2 with same | made
    · rw [same]; exact .keeps _
    · rw [made]; exact .opens e mode
  | closePulse e mode =>
    show StoreChange b st _ ((MemoryBackend.closePulse e mode).run (b, st)).state.2
    rw [MemoryBackend.closePulse_run]
    by_cases erase : mode = .erase
    · subst erase
      exact .erases e
    · simp only [erase, if_false, EStateM.Result.state_ok]
      exact .keeps _
  | beginAction o =>
    show StoreChange b st _ ((MemoryBackend.beginAction o).run (b, st)).state.2
    rcases MemoryBackend.beginAction_run o b st with ⟨e, failed⟩ | ⟨a, begun, _⟩
    · rw [failed]; exact .keeps _
    · rw [begun]; exact .keeps _
  | endAction ctx =>
    cases ctx with
    | entry => cases keeps
    | array => cases keeps
    | operation o =>
      show StoreChange b st _ ((MemoryBackend.endAction (.operation o)).run (b, st)).state.2
      rcases MemoryBackend.endAction_operation_run o b st with same | ⟨key, a, found, _, kept | ⟨writes, put⟩⟩
      · rw [same]; exact .keeps _
      · rw [kept]; exact .keeps _
      · exact .commits found writes put
  | writeData => cases keeps
  | readData => cases keeps
  | deleteData => cases keeps
  | beginArray => cases keeps

/-- Every call keeps the store well formed. -/
theorem StoreChange.wf {b : MemoryBackend} {st st' : Store} {op : MemoryOp}
    (change : StoreChange b st op st') (wf : st.WF) : st'.WF := by
  cases change with
  | keeps => exact wf
  | opens e mode => exact wf.create _ _
  | erases e => exact wf.remove _
  | commits _ _ put => exact wf.put put


/-- A successful end of a write makes the operation's data object exactly its staged tree, or
removes it when that tree is empty; every other object stays. -/
theorem commit_get? {o : Operation} {b : MemoryBackend} {st : Store} {key : Nat} {a : Action}
    {after : MemoryBackend × Store} (wf : st.WF) (found : b.actionOf (.operation o) = .ok (key, a))
    (writes : a.write = true)
    (ended : (MemoryBackend.endAction (.operation o)).run (b, st) = .ok () after)
    (entry name : String) :
    after.1 = b.dropAction key ∧
    after.2.get? entry name =
      if entry = b.entry ∧ name = o.name then (if a.tree.isEmpty then none else some a.tree)
      else st.get? entry name := by
  rw [MemoryBackend.endAction_commit_run found writes] at ended
  cases put : st.put b.entry o.name (some a.tree) with
  | error m => rw [put] at ended; cases ended
  | ok st' =>
    rw [put] at ended
    cases ended
    exact ⟨rfl, Store.get?_of_put wf put entry name⟩

/-! ## A read keeps its tree -/

/-- Backend `b` holds for operation `k` at most a read of `op` on tree `t`. -/
def HoldsRead (b : MemoryBackend) (k : Nat) (op : Operation) (t : Tree) : Prop :=
  ∀ a, b.actions.lookup k = some a → a.Reading ∧ a.op = op ∧ a.tree = t

namespace HoldsRead

variable {b b' : MemoryBackend} {k : Nat} {op : Operation} {t : Tree}

theorem of_lookup (holds : HoldsRead b k op t) (same : b'.actions.lookup k = b.actions.lookup k) :
    HoldsRead b' k op t :=
  fun a held => holds a (same ▸ held)

theorem of_none (none : b.actions.lookup k = none) : HoldsRead b k op t := by
  intro a held
  rw [none] at held
  cases held

/-- What a call confined to some actions leaves still holds the read: the read goes on. -/
theorem confined {owns : Nat → Prop} (holds : HoldsRead b k op t) (confined : Confined owns b b') :
    HoldsRead b' k op t := by
  intro a' held'
  obtain ⟨a, held, goes⟩ := confined.goes_on k a' held'
  obtain ⟨reading, sameOp, sameTree⟩ := holds a held
  obtain ⟨reading', op', tree'⟩ := goes reading
  exact ⟨reading', op'.trans sameOp, tree'.trans sameTree⟩

/-- A read that begins holds the object the store has for it then, or an empty tree. -/
theorem begin {o : Operation} {st : Store} {after : MemoryBackend × Store} (read : o.access = .read)
    (begun : (MemoryBackend.beginAction o).run (b, st) = .ok () after) :
    HoldsRead after.1 o.uid o ((st.get? b.entry o.name).getD Tree.empty) := by
  rcases MemoryBackend.beginAction_run o b st with ⟨e, failed⟩ | ⟨a, ran, sameOp, noArrays, reads, tree⟩
  · rw [failed] at begun; cases begun
  · rw [ran] at begun
    cases begun
    intro a' held
    rw [MemoryBackend.lookup_setAction, if_pos rfl] at held
    cases held
    exact ⟨⟨reads.2 read, by simp [noArrays]⟩, sameOp, tree read⟩

/-- Every call on the backend keeps the read held, but a new begin of the same operation. -/
theorem perform (holds : HoldsRead b k op t) {call : MemoryOp}
    (fresh : ∀ o, call = .beginAction o → o.uid ≠ k) (st : Store) :
    HoldsRead (call.perform.run (b, st)).state.1 k op t := by
  -- the calls that keep to one action let the read go on
  cases keeps : call.keepsToAction
  case true => exact holds.confined ((MemoryOp.blind_perform keeps).confined b st)
  cases call with
  | openPulse e mode =>
    show HoldsRead ((MemoryBackend.openPulse e mode).run (b, st)).state.1 k op t
    exact holds.of_lookup (by rw [(MemoryBackend.openPulse_run e mode b st).1])
  | closePulse e mode =>
    show HoldsRead ((MemoryBackend.closePulse e mode).run (b, st)).state.1 k op t
    rw [MemoryBackend.closePulse_run]
    exact of_none rfl
  | beginAction o =>
    show HoldsRead ((MemoryBackend.beginAction o).run (b, st)).state.1 k op t
    rcases MemoryBackend.beginAction_run o b st with ⟨e, failed⟩ | ⟨a, begun, _⟩
    · rw [failed]; exact holds
    · rw [begun]
      refine holds.of_lookup ?_
      simp only [EStateM.Result.state_ok]
      rw [MemoryBackend.lookup_setAction, if_neg (fresh o rfl).symm]
  | endAction ctx =>
    cases ctx with
    | entry => cases keeps
    | array => cases keeps
    | operation o =>
      show HoldsRead ((MemoryBackend.endAction (.operation o)).run (b, st)).state.1 k op t
      rcases MemoryBackend.endAction_operation_run o b st with same | ⟨key, a, _, dropped, _⟩
      · rw [same]; exact holds
      · rw [dropped]
        by_cases ended : k = key
        · exact of_none (by rw [MemoryBackend.lookup_dropAction, if_pos ended])
        · exact holds.of_lookup (by rw [MemoryBackend.lookup_dropAction, if_neg ended])
  | writeData => cases keeps
  | readData => cases keeps
  | deleteData => cases keeps
  | beginArray => cases keeps

end HoldsRead

namespace Pool

/-- The store stays well formed along every run. -/
theorem wf_run {p : Pool} (calls : List (Nat × MemoryOp)) (wf : p.store.WF) :
    (p.run calls).store.WF := by
  induction calls generalizing p with
  | nil => exact wf
  | cons call rest ih =>
    obtain ⟨i, op⟩ := call
    exact ih ((storeChange_perform op _ _).wf wf)

/-- A read held by backend `i` stays held along every run that begins no new action of its
operation on that backend, whatever the other backends do. -/
theorem holdsRead_run {p : Pool} {i k : Nat} {op : Operation} {t : Tree}
    (calls : List (Nat × MemoryOp)) (holds : HoldsRead (p.backends i) k op t)
    (fresh : ∀ o, (i, .beginAction o) ∈ calls → o.uid ≠ k) :
    HoldsRead ((p.run calls).backends i) k op t := by
  induction calls generalizing p with
  | nil => exact holds
  | cons call rest ih =>
    obtain ⟨j, c⟩ := call
    rw [run_cons]
    refine ih ?_ fun o mem => fresh o (List.mem_cons_of_mem _ mem)
    by_cases same : i = j
    · subst same
      rw [call_backends_self]
      exact holds.perform (fun o begins => fresh o (begins ▸ List.mem_cons_self)) _
    · rw [call_backends_of_ne p c same]
      exact holds

end Pool


/-- Memory backends that share one store keep out of each other's way. The store changes only by
opening an entry, closing one with erasure, or ending a write, which makes the operation's object
exactly its staged tree, or removes it when that tree is empty; the calls that keep to one action
leave the store and every other action as they were. A read sees the object as committed when it
began: along any later run of calls on any of the backends that begins no new action of its
operation on its own backend, that backend holds for it at most the same read on the same tree,
and what a read answers depends on that action and the interpolation setting alone, as what
opening an array answers depends on no store. -/
theorem memory_backends_isolated :
    (∀ (p : Pool) i op, StoreChange (p.backends i) p.store op (p.call i op).store) ∧
    (∀ (p : Pool) calls, p.store.WF → (p.run calls).store.WF) ∧
    (∀ (b : MemoryBackend) st o key a (after : MemoryBackend × Store), st.WF →
      b.actionOf (.operation o) = .ok (key, a) → a.write = true →
      (MemoryOp.endAction (.operation o)).perform.run (b, st) = .ok () after →
      ∀ entry name, after.2.get? entry name =
        if entry = b.entry ∧ name = o.name then (if a.tree.isEmpty then none else some a.tree)
        else st.get? entry name) ∧
    (∀ op : MemoryOp, op.keepsToAction = true → ∀ b st,
      (op.perform.run (b, st)).state.2 = st ∧
      ∀ j, ¬op.Owns j → (op.perform.run (b, st)).state.1.actions.lookup j = b.actions.lookup j) ∧
    (∀ (p : Pool) i (o : Operation) (after : MemoryBackend × Store) calls, o.access = .read →
      (MemoryOp.beginAction o).perform.run (p.backends i, p.store) = .ok () after →
      (∀ o', (i, .beginAction o') ∈ calls → o'.uid ≠ o.uid) →
      ∀ a, (((p.call i (.beginAction o)).run calls).backends i).actions.lookup o.uid = some a →
        a.write = false ∧ a.op = o ∧
          a.tree = (p.store.get? (p.backends i).entry o.name).getD Tree.empty) ∧
    (∀ ctx field timebase (b₁ b₂ : MemoryBackend), b₁.actionOf ctx = b₂.actionOf ctx →
      b₁.interpolation = b₂.interpolation →
      ∃ r : Except Fault (Option Buffer), ∀ st₁ st₂,
        (MemoryBackend.readData ctx field timebase).run (b₁, st₁) =
          (Except.toStep r).run (b₁, st₁) ∧
        (MemoryBackend.readData ctx field timebase).run (b₂, st₂) =
          (Except.toStep r).run (b₂, st₂)) ∧
    (∀ c size b, ∃ r : EStateM.Result Fault MemoryBackend Int,
      ∀ st, (MemoryBackend.beginArray c size).run (b, st) = withStore st r) := by
  refine ⟨fun p i op => storeChange_perform op _ _, fun p calls wf => Pool.wf_run calls wf,
    fun b st o key a after wf found writes ended entry name =>
      (commit_get? wf found writes ended entry name).2,
    fun op keeps b st => ⟨(MemoryOp.blind_perform keeps).store_eq b st,
      ((MemoryOp.blind_perform keeps).confined b st).others⟩,
    ?_, fun ctx field timebase => MemoryBackend.readData_congr field timebase, fun c size b => ?_⟩
  · intro p i o after calls read begun fresh a held
    -- the read holds its tree from its begin on, through every later call
    have begins : HoldsRead ((p.call i (.beginAction o)).backends i) o.uid o
        ((p.store.get? (p.backends i).entry o.name).getD Tree.empty) := by
      rw [Pool.call_backends_self, begun]
      exact HoldsRead.begin read begun
    obtain ⟨reading, sameOp, tree⟩ := Pool.holdsRead_run calls begins fresh a held
    exact ⟨reading.read, sameOp, tree⟩
  · obtain ⟨r, _, runs⟩ := (MemoryBackend.blind_beginArray c size).run_eq b
    exact ⟨r, runs⟩

end AccessLayer
