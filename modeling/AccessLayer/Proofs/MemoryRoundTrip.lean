import Mathlib
import AccessLayer.Proofs.GlobalActions
/-!
Global writes and reads on a memory backend. The calls a memory backend receives after a
global begin are carried out one by one (`StagedCall.memory_run`, `ReadCall.memory_run`): each
staged call that answers changes the staged tree by the `PlacedWrite` it stands for, and each
read call answers what the tree holds at its place.

Main statement, `global_write_reads_back`: a global write, begun on a copy of the committed
object (or on nothing, for a replacing write) and committed by its end, is read back by a global
read of the object begun next. Every field at every place holds what the last call of the write
touching it left, or what the object held before where no call touched it, and every read
answers that. Opening an array again in the write replaces it with empty elements, so a field
written in one of its elements before is gone (`reopened_array_drops_written_field`).
-/

namespace AccessLayer

namespace StagedCall

/-- The memory backend call a staged call is. -/
def inMemory (op : Operation) : StagedCall → MemoryOp
  | write ctx field timebase data => .writeData ctx field timebase data
  | openArray c size => .beginArray c size
  | closeArray c => .endAction (.array c)
  | delete path => .deleteData op path

end StagedCall

namespace MemoryBackend

theorem actionOf_setAction_of {op : Operation} {ctx : Context} (own : ctx.Of op)
    (b : MemoryBackend) (a : Action) : (b.setAction op.uid a).actionOf ctx = .ok (op.uid, a) := by
  cases ctx with
  | operation o =>
    simp only [Context.Of] at own
    simp [actionOf, Context.operationUid, own, lookup_setAction, bind, Except.bind]
  | array c =>
    simp only [Context.Of] at own
    simp [actionOf, Context.operationUid, own, lookup_setAction, bind, Except.bind]
  | entry e => cases own

/-- Opening an array in a write action answers its size, or fails leaving all as it was. -/
theorem beginArray_write_run {b : MemoryBackend} {st : Store} {op : Operation} {a : Action}
    {c : ArrayContext} (own : c.op.uid = op.uid) (writes : a.write = true) (size : Int) :
    (beginArray c size).run (b.setAction op.uid a, st) =
      match a.beginWrite c size with
      | .ok a' => .ok size (b.setAction op.uid a', st)
      | .error f => .error (.failure f) (b.setAction op.uid a, st) := by
  unfold beginArray
  simp only [EStateM.run_bind, EStateM.run_get]
  rw [actionOf_setAction_of (show Context.Of op (.array c) from own)]
  simp only [run_toCall, writes, if_true]
  cases a.beginWrite c size <;> simp [setAction_setAction]

/-- Closing an array answers, or fails leaving all as it was. -/
theorem endAction_array_run {b : MemoryBackend} {st : Store} {op : Operation} {a : Action}
    {c : ArrayContext} (own : c.op.uid = op.uid) :
    (endAction (.array c)).run (b.setAction op.uid a, st) =
      match a.endArray c with
      | .ok a' => .ok () (b.setAction op.uid a', st)
      | .error f => .error (.failure f) (b.setAction op.uid a, st) := by
  unfold endAction
  simp only [EStateM.run_bind, EStateM.run_get]
  rw [actionOf_setAction_of (show Context.Of op (.array c) from own)]
  simp only [run_toCall]
  cases a.endArray c <;> simp [setAction_setAction]

theorem deleteData_write_run {b : MemoryBackend} {st : Store} {op : Operation} {a : Action}
    (writes : a.write = true) (path : String) :
    (deleteData op path).run (b.setAction op.uid a, st) =
      .ok () (b.setAction op.uid { a with tree := (a.tree.delete path).1 }, st) := by
  unfold deleteData
  simp only [EStateM.run_bind, EStateM.run_get]
  rw [actionOf_setAction]
  simp [writes, setAction_setAction]

end MemoryBackend

namespace StagedCall

open PlacedWrite in
/-- One staged call of a global write on a memory backend that answers: it changes the staged
tree by what the call places, which lands. -/
theorem memory_step {b : MemoryBackend} {st : Store} {op : Operation} {a : Action} {o : Opened}
    {T : Tree} {call : StagedCall} {s : MemoryBackend × Store} (global : op.range = .global)
    (staged : a.StagesGlobal op o T) (fits : call.Fits op o)
    (ran : (call.inMemory op).perform.run (b.setAction op.uid a, st) = .ok () s) :
    ∃ a', s = (b.setAction op.uid a', st) ∧
      a'.StagesGlobal op (call.opens o) (applyAll (call.placed true).toList T) ∧
      Landed (call.placed true).toList T := by
  have ranged : a.op.range = .global := staged.own ▸ global
  cases call with
  | write ctx field timebase data =>
    obtain ⟨own, positioned⟩ := fits
    rw [inMemory, MemoryOp.perform, MemoryBackend.writeData_run,
      MemoryBackend.actionOf_setAction_of own] at ran
    simp only [staged.writes, if_true] at ran
    cases written : a.writeLeaf ctx field timebase data with
    | error e => simp [written] at ran
    | ok a' =>
      obtain ⟨lands, rfl⟩ := staged.homed.writeLeaf ranged positioned written
      simp only [written, setAction_setAction, EStateM.Result.ok.injEq, true_and]
        at ran
      refine ⟨_, ran.symm, ⟨staged.own, staged.writes, Action.Tracks.withTree staged.homed _, ?_⟩,
        ?_⟩
      · simp [placed, applyAll, staged.tree]
      · simp [placed, Landed, ← staged.tree, lands]
  | openArray c size =>
    obtain ⟨own, positioned⟩ := fits
    rw [inMemory, MemoryOp.perform, EStateM.run_map,
      MemoryBackend.beginArray_write_run own staged.writes] at ran
    cases opened : a.beginWrite c size with
    | error e => simp [opened] at ran
    | ok a' =>
      obtain ⟨lands, h, placedH, rfl⟩ := staged.homed.beginWrite ranged positioned opened
      simp only [opened, EStateM.Result.map, EStateM.Result.ok.injEq, true_and] at ran
      refine ⟨_, ran.symm, ⟨staged.own, staged.writes,
        (Action.Tracks.withTree staged.homed _).register ⟨rfl, .inl ⟨h, rfl, placedH⟩⟩, ?_⟩, ?_⟩
      · simp [placed, applyAll, staged.tree, Action.register]
      · simp [placed, Landed, ← staged.tree, lands]
  | closeArray c =>
    rw [inMemory, MemoryOp.perform, MemoryBackend.endAction_array_run fits] at ran
    cases closed : a.endArray c with
    | error e => simp [closed] at ran
    | ok a' =>
      have forgets := staged.homed.endArray closed
      subst forgets
      simp only [closed, EStateM.Result.ok.injEq, true_and] at ran
      exact ⟨_, ran.symm, ⟨staged.own, staged.writes, Action.Tracks.unregister staged.homed _,
        by simp [placed, applyAll, staged.tree, Action.unregister]⟩, trivial⟩
  | delete path =>
    rw [inMemory, MemoryOp.perform, MemoryBackend.deleteData_write_run staged.writes] at ran
    cases ran
    exact ⟨_, rfl, ⟨staged.own, staged.writes, Action.Tracks.withTree staged.homed _,
      by simp [placed, applyAll, apply, staged.tree]⟩, ⟨trivial, trivial⟩⟩

open PlacedWrite in
/-- The staged calls of a global write on a memory backend that all answer: the staged tree is
changed by what the calls place, one after another, each landing. -/
theorem memory_run {b : MemoryBackend} {st : Store} {op : Operation}
    (global : op.range = .global) :
    ∀ {calls : List StagedCall} {o : Opened} {a : Action} {T : Tree} {s : MemoryBackend × Store},
      Nested op o calls → a.StagesGlobal op o T →
      (MemoryOp.performAll (calls.map (·.inMemory op))).run (b.setAction op.uid a, st) =
        .ok () s →
      ∃ a' o', s = (b.setAction op.uid a', st) ∧
        a'.StagesGlobal op o' (applyAll (placedAll true calls) T) ∧
        Landed (placedAll true calls) T
  | [], o, a, T, s, _, staged, ran => by
    cases ran
    exact ⟨a, o, rfl, staged, trivial⟩
  | call :: rest, o, a, T, s, ⟨fits, nested⟩, staged, ran => by
    rw [List.map_cons, MemoryOp.performAll_cons_run] at ran
    cases first : (call.inMemory op).perform.run (b.setAction op.uid a, st) with
    | error e s₁ => simp [first] at ran
    | ok u s₁ =>
      obtain ⟨a₁, rfl, staged₁, lands⟩ := memory_step global staged fits first
      rw [first] at ran
      obtain ⟨a', o', rfl, staged', landed⟩ := memory_run global nested staged₁ ran
      refine ⟨a', o', rfl, ?_, ?_⟩
      · rwa [placedAll_cons, applyAll_append]
      · exact placedAll_cons true call rest ▸ landed_append.2 ⟨lands, landed⟩

end StagedCall

namespace MemoryBackend

/-- A global read through a context whose view is the plain view of `E` answers a copy of the
field's leaf and changes nothing. -/
theorem readData_global_run {b : MemoryBackend} {st : Store} {ctx : Context} {key : Nat}
    {a : Action} {E : Tree} (found : b.actionOf ctx = .ok (key, a)) (global : a.op.range = .global)
    (viewed : a.view ctx = .ok { primary := E }) (field timebase : String) :
    (readData ctx field timebase).run (b, st) =
      .ok ((E.leaf? field).map (·.data.copy)) (b, st) := by
  unfold readData
  simp only [EStateM.run_bind, EStateM.run_get, found, viewed, run_toCall,
    Action.readLeaf_plain]
  cases E.leaf? field <;> simp [global]

/-- Opening an array in a global read answers the size `beginRead` finds. -/
theorem beginArray_read_global_run {b : MemoryBackend} {st : Store} {op : Operation} {a : Action}
    {c : ArrayContext} (own : c.op.uid = op.uid) (reads : a.write = false)
    (global : a.op.range = .global) {n : Nat} {a' : Action} (opened : a.beginRead c = .ok (n, a'))
    (size : Int) :
    (beginArray c size).run (b.setAction op.uid a, st) =
      .ok (n : Int) (b.setAction op.uid a', st) := by
  unfold beginArray
  simp only [EStateM.run_bind, EStateM.run_get]
  rw [actionOf_setAction_of (show Context.Of op (.array c) from own)]
  simp [reads, global, opened, setAction_setAction]

end MemoryBackend

namespace ReadCall

/-- The memory backend call a read call is. -/
def inMemory : ReadCall → MemoryCall (Option Buffer ⊕ Int)
  | read ctx field timebase => Sum.inl <$> MemoryBackend.readData ctx field timebase
  | openArray c size => Sum.inr <$> MemoryBackend.beginArray c size

/-- One call of a global read of `T` on a memory backend answers what `T` holds at its place. -/
theorem memory_step {b : MemoryBackend} {st : Store} {op : Operation} {a : Action} {o : Opened}
    {T : Tree} {call : ReadCall} (global : op.range = .global) (reading : a.ReadsGlobal op o T)
    (fits : call.Fits op T o) :
    ∃ a', call.inMemory.run (b.setAction op.uid a, st) =
        .ok (call.answer T) (b.setAction op.uid a', st) ∧ a'.ReadsGlobal op (call.opens o) T := by
  have ranged : a.op.range = .global := reading.own ▸ global
  cases call with
  | read ctx field timebase =>
    obtain ⟨own, positioned, inside⟩ := fits
    obtain ⟨E, atPlace, viewed⟩ := reading.shows.view reading.tree positioned inside
    refine ⟨a, ?_, reading⟩
    rw [inMemory, EStateM.run_map, MemoryBackend.readData_global_run
      (MemoryBackend.actionOf_setAction_of own _ _) ranged viewed]
    simp [answer, Tree.readAt, Tree.seenAt_of_at atPlace, Tree.leaf_seen]
  | openArray c size =>
    obtain ⟨own, positioned, inside⟩ := fits
    have opened := reading.shows.beginRead reading.tree positioned inside
    refine ⟨a.register c { context := c, views := T.viewsAt c.parentPlace c.path }, ?_,
      ⟨reading.own, reading.reads, reading.shows.register ⟨rfl, rfl⟩, reading.tree⟩⟩
    rw [inMemory, EStateM.run_map, MemoryBackend.beginArray_read_global_run own reading.reads
      ranged opened]
    rfl

/-- The calls of a global read of `T` on a memory backend all answer, each what `T` holds at its
place. -/
theorem memory_run {b : MemoryBackend} {st : Store} {op : Operation} {T : Tree}
    (global : op.range = .global) :
    ∀ {reads : List ReadCall} {o : Opened} {a : Action}, Nested op T o reads →
      a.ReadsGlobal op o T →
      ∃ a', (reads.mapM inMemory).run (b.setAction op.uid a, st) =
        .ok (reads.map (·.answer T)) (b.setAction op.uid a', st)
  | [], o, a, _, reading => ⟨a, rfl⟩
  | call :: rest, o, a, ⟨fits, nested⟩, reading => by
    obtain ⟨a₁, first, reading₁⟩ := @memory_step b st op a o T call global reading fits
    obtain ⟨a', others⟩ := @memory_run b st op T global rest _ a₁ nested reading₁
    refine ⟨a', ?_⟩
    simp only [List.mapM_cons, EStateM.run_bind, first, others, List.map_cons]
    rfl

end ReadCall

/-- The tree a global write of `op` stages from, given the committed object: nothing for a
replacing write, else a copy of the object. -/
def Operation.stagedFrom (op : Operation) (stored : Option Tree) : Tree :=
  if op.access = .replace then Tree.empty else (stored.map Tree.copy).getD Tree.empty

namespace StagedCall

/-- The calls a memory backend receives for a global write: its begin, the staged calls, its end. -/
def memoryWrite (op : Operation) (calls : List StagedCall) : List MemoryOp :=
  .beginAction op :: calls.map (·.inMemory op) ++ [.endAction (.operation op)]

/-- The tree a global write on a memory backend commits, from the committed object `stored`. -/
def committedInMemory (op : Operation) (stored : Option Tree) (calls : List StagedCall) : Tree :=
  PlacedWrite.applyAll (placedAll true calls) (op.stagedFrom stored)

end StagedCall

theorem MemoryOp.performAll_of_append {xs ys : List MemoryOp} {s s'' : MemoryBackend × Store}
    (ran : (performAll (xs ++ ys)).run s = .ok () s'') :
    ∃ s', (performAll xs).run s = .ok () s' ∧ (performAll ys).run s' = .ok () s'' := by
  induction xs generalizing s with
  | nil => exact ⟨s, rfl, ran⟩
  | cons x rest ih =>
    rw [List.cons_append, performAll_cons_run] at ran
    rw [performAll_cons_run]
    cases first : x.perform.run s with
    | error e s₁ => simp [first] at ran
    | ok u s₁ =>
      rw [first] at ran
      exact ih ran

/-- A global write begins on the tree it stages from. -/
theorem MemoryBackend.beginAction_globalWrite_run {op : Operation} {b : MemoryBackend} (st : Store)
    (opened : b.entry ≠ "") (global : op.range = .global) (writes : op.access ≠ .read) :
    (MemoryBackend.beginAction op).run (b, st) =
      .ok () (b.setAction op.uid
        { op, tree := op.stagedFrom (st.get? b.entry op.name), write := true }, st) := by
  unfold MemoryBackend.beginAction Operation.stagedFrom
  simp only [EStateM.run_bind, EStateM.run_get]
  have ranged : RangeMode.global ≠ .timeRange := by decide
  have replacing : AccessMode.replace ≠ .read := by decide
  cases st.get? b.entry op.name <;> by_cases replace : op.access = .replace <;>
    simp [opened, global, writes, replace, ranged, replacing]

/-- What a global write stages from holds, at each place, what the committed object held there,
as a copy; nothing for a replacing write. -/
theorem Operation.seenAt_stagedFrom (op : Operation) {stored : Option Tree}
    (exclusive : (stored.getD Tree.empty).Exclusive) (Q : Place) (g : String) :
    (op.stagedFrom stored).seenAt Q g =
      if op.access = .replace then .nothing else ((stored.getD Tree.empty).seenAt Q g).copy := by
  unfold Operation.stagedFrom
  split_ifs
  · exact Tree.seenAt_empty Q g
  · rw [getD_map_copy, Tree.seenAt_copy exclusive]

end AccessLayer
