import Mathlib
import AccessLayer.Session
/-!
The calls of a session as data. A `Call` names one entry point of the table of open contexts with
its arguments, and `Call.perform` carries it out, answering the identifier a begin call hands
out. `Reachable` is every session that some sequence of calls leads to from a session with no
open context, each call answering or failing; a failed call keeps what it changed before it
failed, as the calls themselves do.

The lemmas here complete the library's run equations for the session monad: the state a step
leaves and the value it answers, whether it answered or failed, and the steps of the project's
own (raising a failure, lifting a result).
-/

namespace EStateM.Result

/-- The state a step leaves, whether it answered or failed. -/
def state {ε σ α : Type} : EStateM.Result ε σ α → σ
  | .ok _ s => s
  | .error _ s => s

@[simp] theorem state_ok {ε σ α : Type} (a : α) (s : σ) :
    (EStateM.Result.ok a s : EStateM.Result ε σ α).state = s := rfl

@[simp] theorem state_error {ε σ α : Type} (e : ε) (s : σ) :
    (EStateM.Result.error e s : EStateM.Result ε σ α).state = s := rfl

/-- The value a step that answers an optional value gives; none when it failed. -/
def answer {ε σ α : Type} : EStateM.Result ε σ (Option α) → Option α
  | .ok a _ => a
  | .error _ _ => none

@[simp] theorem answer_ok {ε σ α : Type} (a : Option α) (s : σ) :
    (EStateM.Result.ok a s : EStateM.Result ε σ (Option α)).answer = a := rfl

@[simp] theorem answer_error {ε σ α : Type} (e : ε) (s : σ) :
    (EStateM.Result.error e s : EStateM.Result ε σ (Option α)).answer = none := rfl

end EStateM.Result

namespace AccessLayer

/-- A failed step is not rolled back: the state a handler starts from is the one the failure
left. -/
@[simp] theorem restore_save {σ : Type} (s t : σ) :
    EStateM.Backtrackable.restore s (EStateM.Backtrackable.save t : PUnit) = s := rfl

@[simp] theorem run_raise {σ α : Type} (f : Failure) (s : σ) :
    (Failure.raise f : EStateM Fault σ α).run s = .error (.failure f) s := rfl

@[simp] theorem run_toStep {σ α : Type} (r : Except Fault α) (s : σ) :
    (Except.toStep r : EStateM Fault σ α).run s =
      match r with
      | .ok a => .ok a s
      | .error e => .error e s := rfl

@[simp] theorem run_toCall {σ α : Type} (r : Except Failure α) (s : σ) :
    (Except.toCall r : EStateM Fault σ α).run s =
      match r with
      | .ok a => .ok a s
      | .error f => .error (.failure f) s := by
  cases r <;> rfl

theorem run_get_bind {σ α : Type} (k : σ → EStateM Fault σ α) (s : σ) :
    (get >>= k).run s = (k s).run s := rfl

theorem run_toCall_ok_bind {α β σ : Type} (a : α) (f : α → EStateM Fault σ β) (s : σ) :
    (Except.toCall (.ok a) >>= f).run s = (f a).run s := rfl

@[simp] theorem state_run_map {ε σ α β : Type} (f : α → β) (x : EStateM ε σ α) (s : σ) :
    ((f <$> x).run s).state = (x.run s).state := by
  rw [EStateM.run_map]
  cases x.run s <;> rfl

/-- A run that answers a value passing a check, as evaluation finds it. -/
theorem exists_ok_of_check {ε σ α : Type} {r : EStateM.Result ε σ α} {p : α → Bool}
    (check : (match r with | .ok a _ => p a | .error _ _ => false) = true) :
    ∃ a t, r = .ok a t ∧ p a = true := by
  cases r with
  | ok a t => exact ⟨a, t, rfl, check⟩
  | error e t => cases check

/-- Whether a buffer is the vector of doubles `xs`, compared bit for bit. -/
def Buffer.holdsDoubles (b : Buffer) (xs : List Float) : Bool :=
  decide (b.type = .double) && decide (b.shape = [(xs.length : Int)]) &&
    match b.cells with
    | some (.doubles v) => decide (v = xs)
    | _ => false

theorem Buffer.eq_ofDoubles_of_holdsDoubles {b : Buffer} {xs : List Float}
    (holds : b.holdsDoubles xs = true) : b = Buffer.ofDoubles xs := by
  obtain ⟨type, shape, cells⟩ := b
  simp only [Buffer.holdsDoubles, Bool.and_eq_true, decide_eq_true_eq] at holds
  obtain ⟨⟨rfl, rfl⟩, held⟩ := holds
  match cells, held with
  | some (.doubles v), held =>
    rw [decide_eq_true_eq] at held
    subst held
    rfl

namespace Session

/-- A call of a session with its arguments, one for each entry point. -/
inductive Call where
  | beginDataEntry (uri : String) (mode : OpenMode)
  | closePulse (id : Int) (mode : CloseMode)
  | beginGlobal (id : Int) (name datapath : String) (access : AccessMode)
  | beginSlice (id : Int) (name : String) (access : AccessMode) (time : Float) (interp : InterpMode)
  | beginTimeRange (id : Int) (name : String) (access : AccessMode) (tmin tmax : Float)
      (dtime : List Float) (interp : InterpMode)
  | beginArray (id : Int) (path timebase : String) (size : Int)
  | iterate (id step : Int)
  | endAction (id : Int)
  | writeData (id : Int) (field timebase : String) (data : Buffer)
  | readData (id : Int) (field timebase : String) (dt : DataType) (dim : Int)
  | deleteData (id : Int) (path : String)
  | occurrences (id : Int) (name : String)
  | contextInfo (id : Int) (pointer : Nat → String)
  | backendId (id : Int)

namespace Call

/-- Carries out a call. A begin call answers the identifier it hands out, 0 for an array that
was empty; the other calls answer nothing here. -/
def perform : Call → SessionM (Option Int)
  | beginDataEntry uri mode => some <$> Session.beginDataEntry uri mode
  | closePulse id mode => (fun _ => none) <$> Session.closePulse id mode
  | beginGlobal id name datapath access => some <$> Session.beginGlobal id name datapath access
  | beginSlice id name access time interp => some <$> Session.beginSlice id name access time interp
  | beginTimeRange id name access tmin tmax dtime interp =>
    some <$> Session.beginTimeRange id name access tmin tmax dtime interp
  | beginArray id path timebase size =>
    (fun r => some r.1) <$> Session.beginArray id path timebase size
  | iterate id step => (fun _ => none) <$> Session.iterate id step
  | endAction id => (fun _ => none) <$> Session.endAction id
  | writeData id field timebase data =>
    (fun _ => none) <$> Session.writeData id field timebase data
  | readData id field timebase dt dim =>
    (fun _ => none) <$> Session.readData id field timebase dt dim
  | deleteData id path => (fun _ => none) <$> Session.deleteData id path
  | occurrences id name => (fun _ => none) <$> Session.occurrences id name
  | contextInfo id pointer => (fun _ => none) <$> Session.contextInfo id pointer
  | backendId id => (fun _ => none) <$> Session.backendId id

/-- The identifier a call addresses; opening a data entry addresses none. -/
def target : Call → Option Int
  | beginDataEntry _ _ => none
  | closePulse id _ | beginGlobal id _ _ _ | beginSlice id _ _ _ _
  | beginTimeRange id _ _ _ _ _ _ | beginArray id _ _ _ | iterate id _ | endAction id
  | writeData id _ _ _ | readData id _ _ _ _ | deleteData id _ | occurrences id _
  | contextInfo id _ | backendId id => some id

/-- Whether a call opens an array of structures, the one begin call that may store nothing. -/
def opensArray : Call → Bool
  | beginArray .. => true
  | _ => false

/-- Whether a call writes data without values, which a session accepts without looking at the
identifier it names. -/
def writesNoValues : Call → Bool
  | writeData _ _ _ data => !data.hasNonZeroShape
  | _ => false

end Call

/-- The sessions that a sequence of calls leads to from a session with no open context, whatever
else that session holds. -/
inductive Reachable : Session → Prop
  | fresh (s : Session) : Reachable { s with slots := [none], next := 1 }
  | step {s : Session} (c : Call) : Reachable s → Reachable (c.perform.run s).state

end Session

end AccessLayer
