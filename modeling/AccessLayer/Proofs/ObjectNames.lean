import Mathlib
import AccessLayer.Proofs.SliceReads
/-!
Data objects by name. The memory backend keys each data object by its exact name within its
entry of the store: committing a write on one object leaves every other object as it was, so a
read begun afterwards on another object, through any memory backend, starts from the tree that
object had before (`commit_keeps_other_objects`).

The serialized backend keeps each data object in a file named after it, with every slash made an
underscore. Two names share a file exactly when they agree once slashes are made underscores
(`fileName_eq_iff`), and then a write on one replaces what a read of the other finds:
`slashed_name_overwrites_underscored_name` commits `a/b` over `a_b`.
-/

namespace AccessLayer

/-! ## Memory: one object per name -/

namespace MemoryBackend

/-- Ending an operation changes no object of the store but the operation's own. -/
theorem get?_of_endAction {o : Operation} {b : MemoryBackend} {st : Store}
    {after : MemoryBackend × Store} (wf : st.WF)
    (ended : (endAction (.operation o)).run (b, st) = .ok () after) {key name : String}
    (other : key ≠ b.entry ∨ name ≠ o.name) : after.2.get? key name = st.get? key name := by
  have state : ((endAction (.operation o)).run (b, st)).state = after := by rw [ended]; rfl
  rcases endAction_operation_run o b st with kept | ⟨key', a, _, _, kept | ⟨_, put⟩⟩
  · rw [← state, kept]
  · rw [← state, kept]
  · rw [← state, Store.get?_of_put wf put, if_neg]
    rintro ⟨sameKey, sameName⟩
    rcases other with differs | differs
    · exact differs sameKey
    · exact differs sameName

end MemoryBackend

/-- Committing a write on one data object leaves every other object as it was: a read of
another object, or of an object of another entry, begun after the commit on any memory backend
starts from the tree that object had before the commit. -/
theorem commit_keeps_other_objects {b reader : MemoryBackend} {st : Store} {o r : Operation}
    {after : MemoryBackend × Store} (wf : st.WF)
    (ended : (MemoryBackend.endAction (.operation o)).run (b, st) = .ok () after)
    (reads : r.access = .read) (opened : reader.entry ≠ "")
    (other : reader.entry ≠ b.entry ∨ r.name ≠ o.name) :
    (MemoryBackend.beginAction r).run (reader, after.2) =
      .ok () (reader.setAction r.uid
        { op := r, tree := (st.get? reader.entry r.name).getD Tree.empty, write := false },
        after.2) := by
  rw [beginAction_read_run after.2 opened reads, MemoryBackend.get?_of_endAction wf ended other]

theorem commit_keeps_other_objects_sibling :
    let writing : Operation :=
      { uid := 1, entry := default, name := "x", access := .write, range := .global }
    let reading : Operation :=
      { uid := 2, entry := default, name := "y", access := .read, range := .global }
    let b : MemoryBackend := { entry := "e", actions := [(1,
      { op := writing, tree := Tree.empty.setLeaf "f" ⟨Buffer.ofDoubles [1], ""⟩, write := true })] }
    let st := (({} : Store).create "e" false).2
    ∃ after, st.WF ∧ (MemoryBackend.endAction (.operation writing)).run (b, st) = .ok () after ∧
      reading.access = .read ∧ b.entry ≠ "" ∧ (b.entry ≠ b.entry ∨ reading.name ≠ writing.name) ∧
      (MemoryBackend.beginAction reading).run (b, after.2) =
        .ok () (b.setAction reading.uid
          { op := reading, tree := (st.get? b.entry reading.name).getD Tree.empty, write := false },
          after.2) := by
  intro writing reading b st
  have wf : st.WF := Store.wf_empty.create "e" false
  obtain ⟨_, after, ended, -⟩ := exists_ok_of_check (p := fun _ => true)
    (r := (MemoryBackend.endAction (.operation writing)).run (b, st)) (by decide +kernel)
  have other : b.entry ≠ b.entry ∨ reading.name ≠ writing.name := .inr (by decide)
  exact ⟨after, wf, ended, rfl, by decide, other,
    commit_keeps_other_objects wf ended rfl (by decide) other⟩

/-! ## Serialized files: one file per name with slashes made underscores -/

/-- The character a file name has for a character of an object name. -/
def fileChar (c : Char) : Char := if c = '/' then '_' else c

/-- Two data objects share a file exactly when their names agree once slashes are made
underscores. -/
theorem fileName_eq_iff (x y : String) :
    SerializeBackend.fileName x = SerializeBackend.fileName y ↔
      x.toList.map fileChar = y.toList.map fileChar := by
  unfold SerializeBackend.fileName
  constructor
  · intro same
    have lists := congrArg String.toList same
    simp only [String.toList_append, String.toList_ofList] at lists
    exact List.append_cancel_right lists
  · intro same
    exact congrArg (fun l => String.ofList l ++ ".alser") same

/-- Data objects `a_b` and `a/b` of one serialized entry are one file: after a write of `a/b`
commits, a read of `a_b` finds what `a/b` wrote, not what `a_b` wrote before. -/
theorem slashed_name_overwrites_underscored_name :
    let session := [Session.Call.beginDataEntry "imas:serialize?path=d" .create,
        .beginGlobal 1 "a_b" "" .write, .writeData 2 "x" "" (Buffer.ofDoubles [1]), .endAction 2,
        .beginGlobal 1 "a/b" "" .write, .writeData 2 "x" "" (Buffer.ofDoubles [2]), .endAction 2,
        .beginGlobal 1 "a_b" "" .read].foldl (fun s c => (c.perform.run s).state)
      ({ env := {} } : Session)
    ∃ t, (Session.readData 2 "x" "" .double 1).run session = .ok (Buffer.ofDoubles [2]) t := by
  intro session
  obtain ⟨b, t, read, holds⟩ := exists_ok_of_check (p := fun b => b.holdsDoubles [2])
    (r := (Session.readData 2 "x" "" .double 1).run session) (by decide +kernel)
  exact ⟨t, by rw [read, Buffer.eq_ofDoubles_of_holdsDoubles holds]⟩

end AccessLayer
