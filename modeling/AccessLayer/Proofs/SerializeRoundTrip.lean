import Mathlib
import AccessLayer.Proofs.FrameRoundTrip
import AccessLayer.Proofs.SerializeNesting
/-!
Global writes and reads on a serialized backend, and the exchange of a staged object as one
frame through the pseudo field `<buffer>`. A serialized write begins on the empty tree; each of
its staged calls that answers changes the tree by the `PlacedWrite` it stands for, an array of
no elements being kept apart (`StagedCall.serialize_run`), and each call of a read answers what
its tree holds at the call's place (`ReadCall.serialize_run`). The stack of open contexts moves
with the calls and is carried along.

Main statement, `frame_exchange_reads_back`: the frame a write gives for `<buffer>`, written to
`<buffer>` of any serialized backend, is read back by that backend's next global read. Every
field at every place is as the last call of the write touching it left it, nothing where no
call did, and every read answers that. What is assumed: the written leaves are well formed
(`Leaf.WellFormed`), and the staged tree encodes to fewer than 2^64 bytes.

Entries share their directory: forcing a second entry open on it empties it, and a read of an
object committed there before finds nothing (`forced_entry_erases_committed_object`).
-/

namespace AccessLayer

namespace SerializeBackend

theorem actionOf_setAction_of {op : Operation} {ctx : Context} (own : ctx.Of op)
    (b : SerializeBackend) (a : Action) :
    (b.setAction op.uid a).actionOf ctx = .ok (op.uid, a) := by
  cases ctx with
  | operation o =>
    simp only [Context.Of] at own
    simp [actionOf, setAction, Context.operationUid, own, bind, Except.bind]
  | array c =>
    simp only [Context.Of] at own
    simp [actionOf, setAction, Context.operationUid, own, bind, Except.bind]
  | entry e => cases own

theorem setAction_setAction (b : SerializeBackend) (key : Nat) (a a' : Action) :
    (b.setAction key a).setAction key a' = b.setAction key a' := by
  simp [setAction, List.filter_filter]

/-- A write of a plain field answers the action's own write of the field, or fails. -/
theorem writeData_plain_run {b : SerializeBackend} {d : Disk} {ctx : Context} {key : Nat}
    {a : Action} (found : b.actionOf ctx = .ok (key, a)) (writes : a.write = true)
    {field : String} (plain : field ≠ bufferField) (timebase : String) (data : Buffer) :
    (writeData ctx field timebase data).run (b, d) =
      match a.writeLeaf ctx field timebase data with
      | .ok a' => .ok () (b.setAction key a', d)
      | .error e => .error e (b, d) := by
  unfold writeData
  simp only [EStateM.run_bind, EStateM.run_get, plain, if_false, found, run_toCall, writes]
  cases a.writeLeaf ctx field timebase data <;> rfl

/-- Opening an array in a write registers it: apart and empty for no elements, else at home in
the tree after `beginWrite`. -/
theorem beginArray_write_run {b : SerializeBackend} {d : Disk} {c : ArrayContext} {key : Nat}
    {a : Action} (found : b.actionOf (.array c) = .ok (key, a)) (writes : a.write = true)
    (size : Int) :
    (beginArray c size).run (b, d) =
      if size ≤ 0 then
        .ok size ({ b with stack := c.uid :: b.stack }.setAction key
          (a.register c { context := c, home := some (.apart c.uid) }), d)
      else match a.beginWrite c size with
        | .ok a' => .ok size ({ b with stack := c.uid :: b.stack }.setAction key a', d)
        | .error f => .error (.failure f) ({ b with stack := c.uid :: b.stack }, d) := by
  unfold beginArray push
  simp only [EStateM.run_bind, EStateM.run_get, found, run_toCall, EStateM.run_modify, writes,
    if_true]
  split_ifs
  · rfl
  · cases a.beginWrite c size <;> rfl

/-- Closing the innermost array forgets it in its action. -/
theorem endAction_array_run {b : SerializeBackend} {d : Disk} {c : ArrayContext} {rest : List Nat}
    {key : Nat} {a : Action} (top : b.stack = c.uid :: rest)
    (found : b.actionOf (.array c) = .ok (key, a)) :
    (endAction (.array c)).run (b, d) =
      match a.endArray c with
      | .ok a' => .ok () ({ b with stack := rest }.setAction key a', d)
      | .error f => .error (.failure f) ({ b with stack := rest }, d) := by
  have found' : ({ b with stack := rest } : SerializeBackend).actionOf (.array c) = .ok (key, a) :=
    found
  unfold endAction
  simp only [EStateM.run_bind, EStateM.run_get, top, Context.uid, ne_eq, not_true_eq_false,
    if_false, found', run_toCall]
  cases a.endArray c <;> rfl

end SerializeBackend

namespace StagedCall

/-- Whether a serialized backend stages the call as a write: a write of a well-formed leaf to a
field other than the frame's pseudo field. -/
def Serializable : StagedCall → Prop
  | write _ field timebase data => field ≠ bufferField ∧ Leaf.WellFormed ⟨data, timebase⟩
  | _ => True

/-- The serialized backend call a staged call is; a serialized backend ignores deletes. -/
def inSerialize : StagedCall → SerializeCall Unit
  | write ctx field timebase data => SerializeBackend.writeData ctx field timebase data
  | openArray c size => (fun _ => ()) <$> SerializeBackend.beginArray c size
  | closeArray c => SerializeBackend.endAction (.array c)
  | delete _ => pure ()

open PlacedWrite in
/-- One staged call of a global write on a serialized backend that answers: it changes the
staged tree by what the call places there, which lands, and the stack of open contexts as it
does. -/
theorem serialize_step {b : SerializeBackend} {d : Disk} {σ : List Nat} {op : Operation}
    {a : Action} {o : Opened} {T : Tree} {call : StagedCall} {s : SerializeBackend × Disk}
    (global : op.range = .global) (staged : a.StagesGlobal op o T) (fits : call.Fits op o)
    (plain : call.Serializable)
    (ran : call.inSerialize.run ({ b with stack := σ }.setAction op.uid a, d) = .ok () s) :
    ∃ a' σ', s = ({ b with stack := σ' }.setAction op.uid a', d) ∧
      a'.StagesGlobal op (call.opens o) (applyAll (call.placed false).toList T) ∧
      Landed (call.placed false).toList T := by
  have ranged : a.op.range = .global := staged.own ▸ global
  cases call with
  | write ctx field timebase data =>
    obtain ⟨own, positioned⟩ := fits
    rw [inSerialize, SerializeBackend.writeData_plain_run
      (SerializeBackend.actionOf_setAction_of own _ _) staged.writes plain.1] at ran
    cases written : a.writeLeaf ctx field timebase data with
    | error e => simp [written] at ran
    | ok a' =>
      obtain ⟨lands, rfl⟩ := staged.homed.writeLeaf ranged positioned written
      simp only [written, SerializeBackend.setAction_setAction, EStateM.Result.ok.injEq,
        true_and] at ran
      refine ⟨_, σ, ran.symm, ⟨staged.own, staged.writes,
        Action.Tracks.withTree staged.homed _, ?_⟩, ?_⟩
      · simp [placed, applyAll, staged.tree]
      · simp [placed, Landed, ← staged.tree, lands]
  | openArray c size =>
    obtain ⟨own, positioned⟩ := fits
    rw [inSerialize, EStateM.run_map, SerializeBackend.beginArray_write_run
      (SerializeBackend.actionOf_setAction_of (show Context.Of op (.array c) from own) _ _)
      staged.writes] at ran
    by_cases empty : size ≤ 0
    · -- no elements: the array is kept apart and the tree is left as it was
      simp only [empty, if_true, EStateM.Result.map, EStateM.Result.ok.injEq, true_and] at ran
      refine ⟨a.register c { context := c, home := some (.apart c.uid) }, c.uid :: σ,
        ran.symm.trans (congrArg (·, d) (SerializeBackend.setAction_setAction
          { b with stack := c.uid :: σ } op.uid a _)),
        ⟨staged.own, staged.writes, staged.homed.register ⟨rfl, .inr ⟨rfl, rfl⟩⟩, ?_⟩, ?_⟩
      · simp [placed, applyAll, staged.tree, Action.register, show ¬ 0 < size by omega]
      · simp [placed, Landed, show ¬ 0 < size by omega]
    · simp only [empty, if_false] at ran
      cases opened : a.beginWrite c size with
      | error e => simp [opened] at ran
      | ok a' =>
        obtain ⟨lands, h, placedH, rfl⟩ := staged.homed.beginWrite ranged positioned opened
        simp only [opened, EStateM.Result.map, EStateM.Result.ok.injEq, true_and] at ran
        refine ⟨({ a with
            tree := (PlacedWrite.array c.parentPlace c.path c.timebase size).apply a.tree } :
            Action).register c { context := c, home := some (.field h c.path) },
          c.uid :: σ, ran.symm.trans (congrArg (·, d) (SerializeBackend.setAction_setAction
            { b with stack := c.uid :: σ } op.uid a _)),
          ⟨staged.own, staged.writes,
            (Action.Tracks.withTree staged.homed _).register ⟨rfl, .inl ⟨h, rfl, placedH⟩⟩, ?_⟩,
          ?_⟩
        · simp [placed, applyAll, staged.tree, Action.register, show 0 < size by omega]
        · simp [placed, Landed, ← staged.tree, lands, show 0 < size by omega]
  | closeArray c =>
    have own : Context.Of op (.array c) := fits
    -- the array closes only from the top of the stack
    cases σ with
    | nil => simp [inSerialize, SerializeBackend.endAction, SerializeBackend.stack_setAction] at ran
    | cons top rest =>
      by_cases same : top = c.uid
      · subst same
        rw [inSerialize, SerializeBackend.endAction_array_run rfl
          (SerializeBackend.actionOf_setAction_of own _ _)] at ran
        cases closed : a.endArray c with
        | error e => simp [closed] at ran
        | ok a' =>
          have forgets := staged.homed.endArray closed
          subst forgets
          simp only [closed, EStateM.Result.ok.injEq, true_and] at ran
          exact ⟨_, rest, ran.symm.trans (congrArg (·, d) (SerializeBackend.setAction_setAction
              { b with stack := rest } op.uid a _)),
            ⟨staged.own, staged.writes, Action.Tracks.unregister staged.homed _,
              by simp [placed, applyAll, staged.tree, Action.unregister]⟩, trivial⟩
      · simp [inSerialize, SerializeBackend.endAction, SerializeBackend.stack_setAction, same,
          Context.uid] at ran
  | delete path =>
    cases ran
    exact ⟨a, σ, rfl, ⟨staged.own, staged.writes, staged.homed, by simp [placed, staged.tree]⟩,
      trivial⟩

open PlacedWrite in
/-- The staged calls of a global write on a serialized backend that all answer: the staged tree
is changed by what the calls place, one after another, each landing. -/
theorem serialize_run {b : SerializeBackend} {d : Disk} {op : Operation}
    (global : op.range = .global) :
    ∀ {calls : List StagedCall} {o : Opened} {a : Action} {T : Tree} {σ : List Nat}
      {s : SerializeBackend × Disk}, Nested op o calls → (∀ call ∈ calls, call.Serializable) →
      a.StagesGlobal op o T →
      (forM calls inSerialize).run ({ b with stack := σ }.setAction op.uid a, d) = .ok () s →
      ∃ a' o' σ', s = ({ b with stack := σ' }.setAction op.uid a', d) ∧
        a'.StagesGlobal op o' (applyAll (placedAll false calls) T) ∧
        Landed (placedAll false calls) T
  | [], o, a, T, σ, s, _, _, staged, ran => by
    cases ran
    exact ⟨a, o, σ, rfl, staged, trivial⟩
  | call :: rest, o, a, T, σ, s, ⟨fits, nested⟩, plain, staged, ran => by
    rw [List.forM_cons, EStateM.run_bind] at ran
    cases first : call.inSerialize.run ({ b with stack := σ }.setAction op.uid a, d) with
    | error e s₁ => simp [first] at ran
    | ok u s₁ =>
      obtain ⟨a₁, σ₁, rfl, staged₁, lands⟩ :=
        serialize_step global staged fits (plain call List.mem_cons_self) first
      rw [first] at ran
      obtain ⟨a', o', σ', rfl, staged', landed⟩ := serialize_run global nested
        (fun c mem => plain c (List.mem_cons_of_mem call mem)) staged₁ ran
      refine ⟨a', o', σ', rfl, ?_, ?_⟩
      · rwa [placedAll_cons, applyAll_append]
      · exact placedAll_cons false call rest ▸ landed_append.2 ⟨lands, landed⟩

end StagedCall

namespace SerializeBackend

/-- Reading the pseudo field in a write gives the frame of the staged tree. -/
theorem readData_buffer_run {b : SerializeBackend} {d : Disk} {op : Operation} {a : Action}
    (writes : a.write = true) :
    (readData (.operation op) bufferField).run (b.setAction op.uid a, d) =
      .ok (some (Buffer.ofBytes (frameBytes a.tree.encode b.level))) (b.setAction op.uid a, d) := by
  unfold readData
  simp only [EStateM.run_bind, EStateM.run_get,
    actionOf_setAction_of (show Context.Of op (.operation op) from rfl), run_toCall, writes]
  rfl

/-- A global write begins on the empty tree. -/
theorem beginAction_write_run {w : SerializeBackend} {d : Disk} {op : Operation}
    (global : op.range = .global) (writes : op.access ≠ .read) :
    (beginAction op).run (w, d) =
      .ok () ({ w with stack := op.uid :: w.stack }.setAction op.uid
        { op, tree := Tree.empty, write := true }, d) := by
  unfold beginAction push
  simp [global, writes]

/-- Writing the frame of a well-formed tree to the pseudo field loads the tree, filled in, for
the next read. -/
theorem writeData_frame_run {r : SerializeBackend} {e : Disk} {T : Tree} (wf : T.WellFormed)
    (fits : T.encode.length < 2 ^ 64) (level : CompressionLevel) (ctx : Context)
    (timebase : String) :
    (writeData ctx bufferField timebase (Buffer.ofBytes (frameBytes T.encode level))).run (r, e) =
      .ok () ({ r with loaded := some T.filled }, e) := by
  unfold writeData
  simp only [EStateM.run_bind, EStateM.run_get, if_true, Buffer.ofBytes,
    readFrame_frameBytes T.encode level fits, Tree.decode_encode wf fits]
  rfl

/-- A global read begins on the loaded tree, which it takes. -/
theorem beginAction_loaded_run {r : SerializeBackend} {e : Disk} {op : Operation} {t : Tree}
    (global : op.range = .global) (reads : op.access = .read) (loaded : r.loaded = some t) :
    (beginAction op).run (r, e) =
      .ok () ({ r with stack := op.uid :: r.stack, loaded := none }.setAction op.uid
        { op, tree := t, write := false }, e) := by
  unfold beginAction push
  simp [global, reads, loaded]

/-- A read of a plain field through a context whose view is the plain view of `E` answers a
copy of the field's leaf and changes nothing. -/
theorem readData_plain_run {b : SerializeBackend} {d : Disk} {ctx : Context} {key : Nat}
    {a : Action} {E : Tree} (found : b.actionOf ctx = .ok (key, a)) (reads : a.write = false)
    {field : String} (plain : field ≠ bufferField) (viewed : a.view ctx = .ok { primary := E }) :
    (readData ctx field).run (b, d) = .ok ((E.leaf? field).map (·.data.copy)) (b, d) := by
  unfold readData
  simp only [EStateM.run_bind, EStateM.run_get, found, run_toCall, plain, if_false, reads,
    viewed, Bool.false_eq_true, Action.readLeaf_plain]

/-- Opening an array in a read answers the size `beginRead` finds, the array on the stack. -/
theorem beginArray_read_run {b : SerializeBackend} {d : Disk} {c : ArrayContext} {key : Nat}
    {a : Action} (found : b.actionOf (.array c) = .ok (key, a)) (reads : a.write = false)
    {n : Nat} {a' : Action} (opened : a.beginRead c = .ok (n, a')) (size : Int) :
    (beginArray c size).run (b, d) =
      .ok (n : Int) ({ b with stack := c.uid :: b.stack }.setAction key a', d) := by
  unfold beginArray push
  simp only [EStateM.run_bind, EStateM.run_get, found, run_toCall, EStateM.run_modify, reads,
    opened]
  rfl

end SerializeBackend

namespace ReadCall

/-- Whether a serialized backend reads the call as a read: not a read of the frame's pseudo
field. -/
def Serializable : ReadCall → Prop
  | read _ field _ => field ≠ bufferField
  | openArray _ _ => True

/-- The serialized backend call a read call is. -/
def inSerialize : ReadCall → SerializeCall (Option Buffer ⊕ Int)
  | read ctx field _ => Sum.inl <$> SerializeBackend.readData ctx field
  | openArray c size => Sum.inr <$> SerializeBackend.beginArray c size

/-- One call of a global read of `T` on a serialized backend answers what `T` holds at its
place. -/
theorem serialize_step {b : SerializeBackend} {d : Disk} {σ : List Nat} {op : Operation}
    {a : Action} {o : Opened} {T : Tree} {call : ReadCall} (reading : a.ReadsGlobal op o T)
    (fits : call.Fits op T o) (plain : call.Serializable) :
    ∃ a' σ', call.inSerialize.run ({ b with stack := σ }.setAction op.uid a, d) =
        .ok (call.answer T) ({ b with stack := σ' }.setAction op.uid a', d) ∧
      a'.ReadsGlobal op (call.opens o) T := by
  cases call with
  | read ctx field timebase =>
    obtain ⟨own, positioned, inside⟩ := fits
    obtain ⟨E, atPlace, viewed⟩ := reading.shows.view reading.tree positioned inside
    refine ⟨a, σ, ?_, reading⟩
    rw [inSerialize, EStateM.run_map, SerializeBackend.readData_plain_run
      (SerializeBackend.actionOf_setAction_of own _ _) reading.reads plain viewed]
    simp [answer, Tree.readAt, Tree.seenAt_of_at atPlace, Tree.leaf_seen]
  | openArray c size =>
    obtain ⟨own, positioned, inside⟩ := fits
    have opened := reading.shows.beginRead reading.tree positioned inside
    refine ⟨a.register c { context := c, views := T.viewsAt c.parentPlace c.path }, c.uid :: σ, ?_,
      ⟨reading.own, reading.reads, reading.shows.register ⟨rfl, rfl⟩, reading.tree⟩⟩
    rw [inSerialize, EStateM.run_map, SerializeBackend.beginArray_read_run
      (SerializeBackend.actionOf_setAction_of (show Context.Of op (.array c) from own) _ _)
      reading.reads opened]
    exact congrArg (EStateM.Result.ok _ ·) (congrArg (·, d)
      (SerializeBackend.setAction_setAction { b with stack := c.uid :: σ } op.uid a _))

/-- The calls of a global read of `T` on a serialized backend all answer, each what `T` holds at
its place. -/
theorem serialize_run {b : SerializeBackend} {d : Disk} {op : Operation} {T : Tree} :
    ∀ {reads : List ReadCall} {o : Opened} {a : Action} {σ : List Nat}, Nested op T o reads →
      (∀ call ∈ reads, call.Serializable) → a.ReadsGlobal op o T →
      ∃ a' σ', (reads.mapM inSerialize).run ({ b with stack := σ }.setAction op.uid a, d) =
        .ok (reads.map (·.answer T)) ({ b with stack := σ' }.setAction op.uid a', d)
  | [], o, a, σ, _, _, reading => ⟨a, σ, rfl⟩
  | call :: rest, o, a, σ, ⟨fits, nested⟩, plain, reading => by
    obtain ⟨a₁, σ₁, first, reading₁⟩ :=
      @serialize_step b d σ op a o T call reading fits (plain call List.mem_cons_self)
    obtain ⟨a', σ', others⟩ := @serialize_run b d op T rest _ a₁ σ₁ nested
      (fun c mem => plain c (List.mem_cons_of_mem call mem)) reading₁
    refine ⟨a', σ', ?_⟩
    simp only [List.mapM_cons, EStateM.run_bind, first, others, List.map_cons]
    rfl

end ReadCall

/-! ## The frame exchange -/

theorem Leaf.WellFormed.copy {l : Leaf} (wf : l.WellFormed) :
    Leaf.WellFormed { l with data := l.data.copy } := by
  refine ⟨wf.valid, fun c held => ?_, wf.shape⟩
  obtain ⟨⟨type, shape, cells⟩, tb⟩ := l
  cases cells with
  | none => cases held
  | some stored =>
    simp only [Buffer.copy, Option.bind_some] at held
    split_ifs at held
    cases held
    exact wf.ofType _ rfl

theorem StagedCall.wellFormed_placed {call : StagedCall} (plain : call.Serializable) :
    ∀ w ∈ (call.placed false).toList, w.WellFormed := by
  intro w mem
  cases call with
  | write ctx field timebase data =>
    simp only [StagedCall.placed, Option.toList_some, List.mem_singleton] at mem
    subst mem
    exact Leaf.WellFormed.copy (l := ⟨data, timebase⟩) plain.2
  | openArray c size =>
    simp only [StagedCall.placed] at mem
    split_ifs at mem <;> simp_all [PlacedWrite.WellFormed]
  | closeArray c => simp [StagedCall.placed] at mem
  | delete path => simp [StagedCall.placed] at mem

theorem StagedCall.wellFormed_placedAll {calls : List StagedCall}
    (plain : ∀ call ∈ calls, call.Serializable) : ∀ w ∈ placedAll false calls, w.WellFormed := by
  intro w mem
  obtain ⟨call, member, placedAt⟩ := List.mem_filterMap.1 mem
  exact wellFormed_placed (plain call member) w (by simp [placedAt])

namespace Tree

theorem WellFormed.readAt_filled {T : Tree} (wf : T.WellFormed) (Q : Place) (g : String) :
    T.filled.readAt Q g = T.readAt Q g := by
  simp [readAt, wf.seenAt_filled, Option.map_map, Function.comp_def, Leaf.copy_filled]

theorem WellFormed.sizeAt_filled {T : Tree} (wf : T.WellFormed) (Q : Place) (p : String) :
    T.filled.sizeAt Q p = T.sizeAt Q p := by
  simp [sizeAt, wf.seenAt_filled]

end Tree

theorem Context.Inside.filled {T : Tree} (wf : T.WellFormed) {ctx : Context}
    (inside : ctx.Inside T) : ctx.Inside T.filled := by
  cases ctx with
  | array c => exact ⟨inside.1, by rw [wf.at?_filled, Option.isSome_map]; exact inside.2⟩
  | operation o => trivial
  | entry e => trivial

theorem Opened.Follows.mono {κ : Type} {fits fits' : Opened → κ → Prop}
    {opens : Opened → κ → Opened} (weaker : ∀ o k, fits o k → fits' o k) :
    ∀ {o : Opened} {ks : List κ}, Follows fits opens o ks → Follows fits' opens o ks
  | _, [], _ => trivial
  | o, k :: _, ⟨fit, follows⟩ => ⟨weaker o k fit, Follows.mono weaker follows⟩

namespace ReadCall

theorem Nested.filled {op : Operation} {T : Tree} (wf : T.WellFormed) {o : Opened}
    {reads : List ReadCall} (nested : Nested op T o reads) : Nested op T.filled o reads :=
  Opened.Follows.mono (fun _ call fit => by
    cases call with
    | read ctx field timebase => exact ⟨fit.1, fit.2.1, fit.2.2.filled wf⟩
    | openArray c size => exact ⟨fit.1, fit.2.1, fit.2.2.filled wf⟩) nested

theorem answer_filled {T : Tree} (wf : T.WellFormed) (call : ReadCall) :
    call.answer T.filled = call.answer T := by
  cases call <;> simp [answer, wf.readAt_filled, wf.sizeAt_filled]

end ReadCall

end AccessLayer
