import Mathlib
import AccessLayer.Proofs.Calls
/-!
The nesting stack of a serialized backend. The stack holds the contexts begun and not ended,
innermost first, and an end call refuses a context that is not on top.

Every call leaves the stack as `SerializeOp.stackAfter` says, whether it answers or fails. A begin
call pushes its context as soon as it is past its first check: an open always, an operation when
it is global, an array when its operation has an action. What it does after the push (reading the
object file, positioning the array) may still fail, and its context then stays on top. An end call
pops its context when that context is on top, before it looks for the action and writes the
object, which may fail too. So a call that answers does what it promises (`SerializeOp.onAnswer`),
and a call that fails leaves the stack either as it was or as an answer would have.
-/

namespace AccessLayer

/-- A call on a serialized backend with its arguments, one for each entry point. -/
inductive SerializeOp where
  | openPulse (e : DataEntry) (mode : OpenMode)
  | closePulse (mode : CloseMode)
  | beginAction (op : Operation)
  | beginArray (c : ArrayContext) (size : Int)
  | endAction (ctx : Context)
  | writeData (ctx : Context) (field timebase : String) (data : Buffer)
  | readData (ctx : Context) (field : String)

namespace SerializeOp

/-- Carries out a call; what it answers is not kept here. -/
def perform : SerializeOp → SerializeCall Unit
  | openPulse e mode => SerializeBackend.openPulse e mode
  | closePulse mode => SerializeBackend.closePulse mode
  | beginAction op => SerializeBackend.beginAction op
  | beginArray c size => (fun _ => ()) <$> SerializeBackend.beginArray c size
  | endAction ctx => SerializeBackend.endAction ctx
  | writeData ctx field timebase data => SerializeBackend.writeData ctx field timebase data
  | readData ctx field => (fun _ => ()) <$> SerializeBackend.readData ctx field

/-- The stack a call leaves, whether it answers or fails: a begin past its first check pushes its
context, an end whose context is on top pops it. -/
def stackAfter (b : SerializeBackend) : SerializeOp → List Nat
  | openPulse e _ => e.uid :: b.stack
  | beginAction op => if op.range = .global then op.uid :: b.stack else b.stack
  | beginArray c _ =>
    match b.actionOf (.array c) with
    | .ok _ => c.uid :: b.stack
    | .error _ => b.stack
  | endAction ctx =>
    match b.stack with
    | top :: rest => if top = ctx.uid then rest else b.stack
    | [] => []
  | _ => b.stack

/-- The stack after a call that answers, as the nesting discipline has it: a begin puts its
context on top, an end takes its context off, and the other calls leave the stack. -/
def onAnswer (stack : List Nat) : SerializeOp → List Nat
  | openPulse e _ => e.uid :: stack
  | beginAction op => op.uid :: stack
  | beginArray c _ => c.uid :: stack
  | endAction ctx => stack.erase ctx.uid
  | _ => stack

end SerializeOp

namespace SerializeBackend

/-- A call that, run from `s`, leaves the stack it found there, whether it answers or fails. -/
def KeepsStackFrom {α : Type} (s : SerializeBackend × Disk) (m : SerializeCall α) : Prop :=
  (m.run s).state.1.stack = s.1.stack

/-- A call that leaves the stack of every state it runs from. -/
def KeepsStack {α : Type} (m : SerializeCall α) : Prop := ∀ s, KeepsStackFrom s m

theorem KeepsStackFrom.bind {α β : Type} {s : SerializeBackend × Disk} {m : SerializeCall α}
    {f : α → SerializeCall β} (first : KeepsStackFrom s m)
    (rest : ∀ a t, m.run s = .ok a t → KeepsStackFrom t (f a)) : KeepsStackFrom s (m >>= f) := by
  unfold KeepsStackFrom at *
  rw [EStateM.run_bind]
  cases ran : m.run s with
  | ok a t =>
    rw [ran] at first
    exact (rest a t ran).trans first
  | error e t =>
    rw [ran] at first
    exact first

theorem KeepsStack.bind {α β : Type} {m : SerializeCall α} {f : α → SerializeCall β}
    (first : KeepsStack m) (rest : ∀ a, KeepsStack (f a)) : KeepsStack (m >>= f) :=
  fun s => (first s).bind fun a t _ => rest a t

theorem keeps_get_bind {β : Type} {s : SerializeBackend × Disk}
    {f : SerializeBackend × Disk → SerializeCall β} (rest : KeepsStackFrom s (f s)) :
    KeepsStackFrom s (get >>= f) := rest

theorem keeps_set {s t : SerializeBackend × Disk} (same : t.1.stack = s.1.stack) :
    KeepsStackFrom s (set t : SerializeCall PUnit) := same

theorem keeps_modify {f : SerializeBackend × Disk → SerializeBackend × Disk}
    (same : ∀ s, (f s).1.stack = s.1.stack) : KeepsStack (modify f) := same

theorem keeps_pure {α : Type} (a : α) : KeepsStack (pure a : SerializeCall α) := fun _ => rfl

theorem keeps_raise {α : Type} (f : Failure) : KeepsStack (Failure.raise f : SerializeCall α) :=
  fun _ => rfl

theorem keeps_throw {α : Type} (e : Fault) : KeepsStack (throw e : SerializeCall α) :=
  fun _ => rfl

theorem keeps_toCall {α : Type} (r : Except Failure α) : KeepsStack (Except.toCall r : SerializeCall α) := by
  intro s
  cases r <;> rfl

theorem keeps_raise_bind {α β : Type} {s : SerializeBackend × Disk} (f : Failure)
    (g : α → SerializeCall β) : KeepsStackFrom s (Failure.raise f >>= g) := rfl

theorem keeps_toCall_bind {α β : Type} {s : SerializeBackend × Disk} {r : Except Failure α}
    {g : α → SerializeCall β} (rest : ∀ a, r = .ok a → KeepsStackFrom s (g a)) :
    KeepsStackFrom s (Except.toCall r >>= g) := by
  cases r with
  | error f => rfl
  | ok a => exact rest a rfl

theorem keeps_toStep_bind {α β : Type} {s : SerializeBackend × Disk} {r : Except Fault α}
    {g : α → SerializeCall β} (rest : ∀ a, r = .ok a → KeepsStackFrom s (g a)) :
    KeepsStackFrom s (Except.toStep r >>= g) := by
  cases r with
  | error f => rfl
  | ok a => exact rest a rfl

/-- A disk call changes only the disk. -/
theorem keeps_onDisk {α : Type} (m : DiskM α) : KeepsStack (onDisk m) := by
  intro ⟨b, d⟩
  simp only [KeepsStackFrom, onDisk, EStateM.run]
  split <;> rfl

@[simp] theorem stack_setAction (b : SerializeBackend) (key : Nat) (a : Action) :
    (b.setAction key a).stack = b.stack := rfl

/-! ## Calls that leave the stack -/

theorem keeps_closePulse (mode : CloseMode) : KeepsStack (closePulse mode) := by
  unfold closePulse
  refine KeepsStack.bind (keeps_modify fun _ => rfl) fun _ s => keeps_get_bind ?_
  dsimp only
  split
  · exact keeps_onDisk _ s
  · exact keeps_pure _ s

theorem keeps_writeData (ctx : Context) (field timebase : String) (data : Buffer) :
    KeepsStack (writeData ctx field timebase data) := by
  intro ⟨b, d⟩
  unfold writeData
  refine keeps_get_bind ?_
  dsimp only
  split
  · split
    · exact keeps_raise _ _
    · split
      · exact keeps_raise _ _
      · exact keeps_set rfl
  · refine keeps_toCall_bind fun ⟨key, a⟩ _ => ?_
    dsimp only
    split
    · exact keeps_raise_bind _ _
    · exact keeps_toStep_bind fun _ _ => keeps_set rfl

theorem keeps_readData (ctx : Context) (field : String) : KeepsStack (readData ctx field) := by
  intro ⟨b, d⟩
  unfold readData
  refine keeps_get_bind ?_
  dsimp only
  refine keeps_toCall_bind fun ⟨key, a⟩ _ => ?_
  dsimp only
  split <;> split
  · exact keeps_raise_bind _ _
  · exact keeps_pure _ _
  · exact keeps_raise_bind _ _
  · exact keeps_toCall_bind fun _ _ => keeps_toCall _ _

/-! ## Calls that push and pop -/

/-- A call that sets a state and then leaves the stack ends with the stack of that state. -/
theorem stack_set_bind {β : Type} {t : SerializeBackend × Disk} {g : PUnit → SerializeCall β}
    (rest : KeepsStackFrom t (g ())) (s : SerializeBackend × Disk) :
    ((set t >>= g).run s).state.1.stack = t.1.stack :=
  rest

/-- A call that pushes `u` and then leaves the stack ends with `u` on top, whether the rest
answers or fails. -/
theorem stack_push_bind {β : Type} {u : Nat} {f : Unit → SerializeCall β} (rest : KeepsStack (f ()))
    (b : SerializeBackend) (d : Disk) : ((push u >>= f).run (b, d)).state.1.stack = u :: b.stack :=
  rest _

theorem stack_openPulse (e : DataEntry) (mode : OpenMode) (b : SerializeBackend) (d : Disk) :
    ((openPulse e mode).run (b, d)).state.1.stack = e.uid :: b.stack := by
  unfold openPulse
  refine stack_push_bind ?_ b d
  refine KeepsStack.bind (keeps_modify fun _ => rfl) fun _ s => ?_
  -- after the push, every way of opening the directory leaves the stack
  split
  · exact keeps_pure _ s
  split
  · refine keeps_get_bind ?_
    split
    · exact keeps_pure _ s
    · exact keeps_raise _ s
  split
  · exact keeps_onDisk _ s
  split
  · exact KeepsStack.bind (keeps_onDisk _) (fun _ => keeps_onDisk _) s
  · exact keeps_raise _ s

theorem stack_beginAction (op : Operation) (b : SerializeBackend) (d : Disk) :
    ((beginAction op).run (b, d)).state.1.stack =
      if op.range = .global then op.uid :: b.stack else b.stack := by
  unfold beginAction
  by_cases global : op.range = .global
  · rw [if_pos global, if_neg (not_not.2 global)]
    refine stack_push_bind ?_ b d
    intro s
    refine keeps_get_bind ?_
    dsimp only
    -- whichever tree the action starts from, recording the action leaves the stack
    have record : ∀ (tree : SerializeCall Tree) (t : SerializeBackend × Disk), KeepsStackFrom t tree →
        KeepsStackFrom t (tree >>= fun tree => modify fun x =>
          (x.1.setAction op.uid { op, tree, write := decide (op.access ≠ .read) }, x.2)) :=
      fun _ t first => first.bind fun _ u _ => keeps_modify (fun _ => rfl) u
    split
    · exact record _ s (keeps_pure _ s)
    split
    · refine KeepsStackFrom.bind (keeps_set rfl) fun _ u _ => ?_
      exact record _ u (keeps_pure _ u)
    split
    · exact record _ s (keeps_pure _ s)
    split
    · exact record _ s (keeps_pure _ s)
    · exact keeps_raise_bind _ _
  · rw [if_neg global, if_pos global]
    rfl

theorem stack_beginArray (c : ArrayContext) (size : Int) (b : SerializeBackend) (d : Disk) :
    ((beginArray c size).run (b, d)).state.1.stack =
      match b.actionOf (.array c) with
      | .ok _ => c.uid :: b.stack
      | .error _ => b.stack := by
  unfold beginArray
  change ((Except.toCall (b.actionOf (.array c)) >>= _).run (b, d)).state.1.stack = _
  cases found : b.actionOf (.array c) with
  | error f => rfl
  | ok entry =>
    obtain ⟨key, a⟩ := entry
    rw [run_toCall_ok_bind]
    dsimp only
    refine stack_push_bind ?_ b d
    intro ⟨b', d'⟩
    refine keeps_get_bind ?_
    dsimp only
    -- each way of positioning the array ends by setting the action, which leaves the stack
    have settle : ∀ (a' : Action) (r : Int), KeepsStackFrom (b', d')
        (set (b'.setAction key a', d') >>= fun _ => (pure r : SerializeCall Int)) :=
      fun _ r => KeepsStackFrom.bind (keeps_set rfl) fun _ u _ => keeps_pure r u
    split
    · split
      · exact settle _ _
      · exact keeps_toCall_bind fun a' _ => settle a' size
    · exact keeps_toCall_bind fun p _ => settle p.2 p.1

theorem stack_endAction (ctx : Context) (b : SerializeBackend) (d : Disk) :
    ((endAction ctx).run (b, d)).state.1.stack =
      match b.stack with
      | top :: rest => if top = ctx.uid then rest else b.stack
      | [] => [] := by
  unfold endAction
  rw [run_get_bind]
  dsimp only
  cases stacked : b.stack with
  | nil => exact stacked
  | cons top rest =>
    dsimp only
    by_cases same : top = ctx.uid
    · rw [if_neg (not_not.2 same), if_pos same]
      refine stack_set_bind ?_ (b, d)
      -- past the pop, ending the array or the operation leaves the stack, even when it fails
      cases ctx with
      | entry e => exact keeps_pure _ _
      | array c => exact keeps_toCall_bind fun _ _ => keeps_toCall_bind fun _ _ => keeps_set rfl
      | operation o =>
        refine keeps_toCall_bind fun _ _ => KeepsStackFrom.bind (keeps_set rfl) fun _ u _ => ?_
        split
        · exact keeps_pure _ u
        split
        · exact keeps_onDisk _ u
        · exact keeps_onDisk _ u
    · rw [if_pos same, if_neg same]
      exact stacked

/-! ## The first checks -/

/-- A slice or time-range operation is refused before anything is pushed. -/
theorem beginAction_run_of_ne_global {op : Operation} (timed : op.range ≠ .global)
    (b : SerializeBackend) (d : Disk) :
    (beginAction op).run (b, d) =
      .error (.failure (.backend "Serialize Backend does not support slice mode")) (b, d) := by
  unfold beginAction
  rw [if_pos timed]
  rfl

/-- An array whose operation has no action is refused before anything is pushed. -/
theorem beginArray_run_of_error {c : ArrayContext} {b : SerializeBackend} {f : Failure}
    (missing : b.actionOf (.array c) = .error f) (size : Int) (d : Disk) :
    (beginArray c size).run (b, d) = .error (.failure f) (b, d) := by
  unfold beginArray
  rw [run_get_bind]
  dsimp only
  rw [missing]
  rfl

/-- Ending with no context open is refused. -/
theorem endAction_run_of_nil {b : SerializeBackend} (empty : b.stack = []) (ctx : Context) (d : Disk) :
    (endAction ctx).run (b, d) = .error (.failure (.backend ("Unexpected nesting of contexts: ending " ++
      toString ctx.uid ++ " with no open context"))) (b, d) := by
  unfold endAction
  rw [run_get_bind]
  dsimp only
  rw [empty]
  rfl

/-- Ending a context that is not on top is refused, and the message names the one on top. -/
theorem endAction_run_of_top_ne {b : SerializeBackend} {top : Nat} {rest : List Nat}
    (stacked : b.stack = top :: rest) {ctx : Context} (other : top ≠ ctx.uid) (d : Disk) :
    (endAction ctx).run (b, d) = .error (.failure (.backend ("Unexpected nesting of contexts: ending " ++
      toString ctx.uid ++ " top context is " ++ toString top))) (b, d) := by
  unfold endAction
  rw [run_get_bind]
  dsimp only
  rw [stacked]
  dsimp only
  rw [if_pos other]
  rfl

end SerializeBackend

namespace SerializeOp

open SerializeBackend

/-- Every call leaves the stack as `stackAfter` says, whether it answers or fails. -/
theorem stack_perform (op : SerializeOp) (b : SerializeBackend) (d : Disk) :
    (op.perform.run (b, d)).state.1.stack = op.stackAfter b := by
  cases op with
  | openPulse e mode => exact stack_openPulse e mode b d
  | closePulse mode => exact keeps_closePulse mode (b, d)
  | beginAction op => exact stack_beginAction op b d
  | beginArray c size =>
    rw [perform, state_run_map]
    exact stack_beginArray c size b d
  | endAction ctx => exact stack_endAction ctx b d
  | writeData ctx field timebase data => exact keeps_writeData ctx field timebase data (b, d)
  | readData ctx field =>
    rw [perform, state_run_map]
    exact keeps_readData ctx field (b, d)

theorem stackAfter_endAction_of_top {b : SerializeBackend} {top : Nat} {rest : List Nat}
    (stacked : b.stack = top :: rest) (ctx : Context) :
    (endAction ctx).stackAfter b = if top = ctx.uid then rest else top :: rest := by
  rw [stackAfter, stacked]

/-- A call that answers got past its first check, so it left the stack as the nesting
discipline says. -/
theorem stackAfter_of_ok {op : SerializeOp} {b : SerializeBackend} {d : Disk}
    {s : SerializeBackend × Disk} (answered : op.perform.run (b, d) = .ok () s) :
    op.stackAfter b = op.onAnswer b.stack := by
  cases op with
  | beginAction op =>
    by_cases global : op.range = .global
    · rw [stackAfter, if_pos global, onAnswer]
    · rw [perform, beginAction_run_of_ne_global global] at answered
      cases answered
  | beginArray c size =>
    cases found : b.actionOf (.array c) with
    | ok entry => rw [stackAfter, found, onAnswer]
    | error f =>
      rw [perform, EStateM.run_map, beginArray_run_of_error found] at answered
      cases answered
  | endAction ctx =>
    cases stacked : b.stack with
    | nil =>
      rw [perform, endAction_run_of_nil stacked] at answered
      cases answered
    | cons top rest =>
      by_cases same : top = ctx.uid
      · rw [stackAfter_endAction_of_top stacked, if_pos same, onAnswer, same, List.erase_cons_head]
      · rw [perform, endAction_run_of_top_ne stacked same] at answered
        cases answered
  | openPulse | closePulse | writeData | readData => rfl

/-- A call that answers leaves the stack as the nesting discipline says. -/
theorem stack_of_ok {op : SerializeOp} {b : SerializeBackend} {d : Disk}
    {s : SerializeBackend × Disk} (answered : op.perform.run (b, d) = .ok () s) :
    s.1.stack = op.onAnswer b.stack := by
  have law := stack_perform op b d
  rw [answered] at law
  exact law.trans (stackAfter_of_ok answered)

/-- Every call leaves the stack as it was or as an answer would. -/
theorem stackAfter_cases (op : SerializeOp) (b : SerializeBackend) :
    op.stackAfter b = b.stack ∨ op.stackAfter b = op.onAnswer b.stack := by
  cases op with
  | beginAction op =>
    by_cases global : op.range = .global
    · exact .inr (by rw [stackAfter, if_pos global, onAnswer])
    · exact .inl (by rw [stackAfter, if_neg global])
  | beginArray c size =>
    cases found : b.actionOf (.array c) with
    | ok entry => exact .inr (by rw [stackAfter, found, onAnswer])
    | error f => exact .inl (by rw [stackAfter, found])
  | endAction ctx =>
    cases stacked : b.stack with
    | nil => exact .inl (by rw [stackAfter, stacked])
    | cons top rest =>
      by_cases same : top = ctx.uid
      · exact .inr (by rw [stackAfter_endAction_of_top stacked, if_pos same, onAnswer, same,
          List.erase_cons_head])
      · exact .inl (by rw [stackAfter_endAction_of_top stacked, if_neg same])
  | openPulse | closePulse | writeData | readData => exact .inr rfl

/-! ## Runs -/

/-- Runs calls one after another on one backend, each from the state the last one left, whether
it answered or failed. -/
def runAll : List SerializeOp → SerializeBackend × Disk → SerializeBackend × Disk
  | [], s => s
  | op :: rest, s => runAll rest (op.perform.run s).state

/-- The stack the nesting discipline promises after a run: each call that answers changes it as
`onAnswer` says, and a call that fails changes nothing. -/
def promised : List SerializeOp → SerializeBackend × Disk → List Nat → List Nat
  | [], _, stack => stack
  | op :: rest, s, stack =>
    match op.perform.run s with
    | .ok _ t => promised rest t (op.onAnswer stack)
    | .error _ t => promised rest t stack

/-- Every call of a run that fails leaves the stack it found. -/
def FailsEarly : List SerializeOp → SerializeBackend × Disk → Prop
  | [], _ => True
  | op :: rest, s =>
    (∀ e t, op.perform.run s = .error e t → t.1.stack = s.1.stack) ∧
      FailsEarly rest (op.perform.run s).state

/-- Along a run in which every call that fails leaves the stack, the stack is the one the nesting
discipline promises. The induction is on the run; each answered call is the step law. -/
theorem stack_runAll (ops : List SerializeOp) (s : SerializeBackend × Disk)
    (early : FailsEarly ops s) : (runAll ops s).1.stack = promised ops s s.1.stack := by
  induction ops generalizing s with
  | nil => rfl
  | cons op rest ih =>
    obtain ⟨b, d⟩ := s
    obtain ⟨leaves, later⟩ := early
    rw [runAll, promised]
    cases ran : op.perform.run (b, d) with
    | ok a t =>
      rw [ran] at later
      have answered : op.perform.run (b, d) = .ok () t := by
        cases a
        exact ran
      rw [EStateM.Result.state_ok, ih t later, stack_of_ok answered]
    | error e t =>
      rw [ran] at later
      rw [EStateM.Result.state_error, ih t later, leaves e t ran]


/-- The nesting stack of a serialized backend after any call from any state: it is the stack
`stackAfter` gives, whether the call answers or fails; a call that answers leaves it as the
nesting discipline says, a begin putting its context on top and an end taking its context off;
and a call that fails leaves it either as it was or as an answer would have, its context pushed
or popped all the same. -/
theorem serialize_stack_discipline (op : SerializeOp) (b : SerializeBackend) (d : Disk) :
    (op.perform.run (b, d)).state.1.stack = op.stackAfter b ∧
      (∀ s, op.perform.run (b, d) = .ok () s → s.1.stack = op.onAnswer b.stack) ∧
      ((op.perform.run (b, d)).state.1.stack = b.stack ∨
        (op.perform.run (b, d)).state.1.stack = op.onAnswer b.stack) := by
  have law := stack_perform op b d
  exact ⟨law, fun _ answered => stack_of_ok answered, law ▸ stackAfter_cases op b⟩

end SerializeOp

/-- Through a session: reading an object whose file holds no frame fails after the backend has
pushed the operation, so the data entry begun before it can no longer be ended. -/
theorem unreadable_object_blocks_entry_end :
    let opened := (Session.Call.beginDataEntry "imas:serialize?path=d" .openEntry).perform.run
      ({ env := {}, medium := { disk := { entries :=
        [("d", .directory), ("d/x.alser", .file [106, 117, 110, 107])] } } } : Session)
    let failed := (Session.Call.beginGlobal 1 "x" "" .read).perform.run opened.state
    let ended := (Session.Call.endAction 1).perform.run failed.state
    opened.answer = some 1 ∧ (failed matches .error _ _) ∧
      (ended matches .error (.failure (.backend
        "Unexpected nesting of contexts: ending 1 top context is 2")) _) := by
  decide +kernel

end AccessLayer
