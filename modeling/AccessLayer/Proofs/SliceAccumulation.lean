import Mathlib
import AccessLayer.Proofs.MemoryIsolation
/-!
Time slices written one action at a time. A slice write of a field with a time base appends its
buffer to the stored field as one more step of the last dimension; a replacing slice write first
drops the last step. Along any sequence of committed slice writes, mixing plain and replacing
ones, the stored field holds the written slices one after another (`Stacked`), as `restack` says
each write leaves them. A slice of another type or another length is refused and leaves the
staged field as it was. A time-dependent array opened under the operation collects its elements
apart and appends them when it closes, so it grows the same way, element after element.

Buffers are compared by their type, their shape and the list of their elements (`Buffer.elements`),
whatever storage holds them.
-/

namespace AccessLayer

/-! ## The elements of a buffer -/

/-- One element of a buffer, of any type. -/
inductive Cell where
  | char (b : UInt8)
  | int (v : Int32)
  | double (x : Float)
  | complex (z : ComplexFloat)

/-- The elements of a storage, in order. -/
def Cells.elements : Cells → List Cell
  | .chars v => v.map .char
  | .ints v => v.map .int
  | .doubles v => v.map .double
  | .complex v => v.map .complex

/-- The elements of a buffer; a released buffer has none. -/
def Buffer.elements (b : Buffer) : List Cell := (b.cells.map Cells.elements).getD []

/-- A buffer whose storage holds elements of its own type. -/
def Buffer.WellTyped (b : Buffer) : Prop := ∀ c, b.cells = some c → c.type = b.type

namespace Cells

@[simp] theorem length_elements (c : Cells) : c.elements.length = c.length := by
  cases c <;> simp [elements, length]

/-- Two storages of one type join into one holding the elements of both. -/
theorem append?_of_type {c d : Cells} (same : c.type = d.type) :
    ∃ e, c.append? d = some e ∧ e.elements = c.elements ++ d.elements ∧ e.type = c.type := by
  cases c <;> cases d <;>
    simp_all [append?, elements, Cells.type, DataType.char, DataType.integer, DataType.double,
      DataType.complex]

theorem elements_take (c : Cells) (n : Nat) : (c.take n).elements = c.elements.take n := by
  cases c <;> simp [take, extract, elements, List.map_take]

@[simp] theorem type_take (c : Cells) (n : Nat) : (c.take n).type = c.type := by
  cases c <;> rfl

/-- Storage of a valid type: only the four element types have storage. -/
theorem type_valid (c : Cells) : c.type.valid = true := by
  cases c <;> rfl

end Cells

namespace Buffer

@[simp] theorem length_elements (b : Buffer) : b.elements.length = b.len := by
  unfold elements len
  cases b.cells <;> simp

theorem elements_of_cells {b : Buffer} {c : Cells} (held : b.cells = some c) :
    b.elements = c.elements := by
  simp [elements, held]

theorem elements_of_none {b : Buffer} (none : b.cells = none) : b.elements = [] := by
  simp [elements, none]

/-- A copy has the elements of its original. -/
@[simp] theorem elements_copy (b : Buffer) : b.copy.elements = b.elements := by
  unfold copy elements
  cases held : b.cells with
  | none => rfl
  | some c =>
    by_cases empty : c.length = 0
    · simp [empty, List.eq_nil_of_length_eq_zero (by simpa using empty : c.elements.length = 0)]
    · simp [empty]

@[simp] theorem type_copy (b : Buffer) : b.copy.type = b.type := rfl

@[simp] theorem shape_copy (b : Buffer) : b.copy.shape = b.shape := rfl

theorem WellTyped.copy {b : Buffer} (typed : b.WellTyped) : b.copy.WellTyped := by
  intro c held
  obtain ⟨stored, storedHeld, _⟩ : ∃ c', b.cells = some c' ∧ c' = c := by
    simp only [Buffer.copy, Option.bind_eq_some_iff] at held
    obtain ⟨c', stored, kept⟩ := held
    split at kept
    · cases kept
    · exact ⟨c', stored, Option.some.inj kept⟩
  subst c
  exact typed stored storedHeld

/-- A well-typed buffer of a type without storage holds no elements. -/
theorem WellTyped.elements_of_invalid {b : Buffer} (typed : b.WellTyped)
    (invalid : b.type.valid = false) : b.elements = [] := by
  cases held : b.cells with
  | none => exact elements_of_none held
  | some c =>
    have valid := c.type_valid
    rw [typed c held, invalid] at valid
    cases valid

/-- Appending a buffer of the same type joins the elements and keeps type and shape. -/
theorem appendData_of_type {b o : Buffer} (typedB : b.WellTyped) (typedO : o.WellTyped)
    (same : o.type = b.type) :
    ∃ b', b.appendData o = .ok b' ∧ b'.elements = b.elements ++ o.elements ∧ b'.type = b.type ∧
      b'.shape = b.shape ∧ b'.WellTyped := by
  unfold appendData
  rw [if_neg (by simpa using same)]
  cases hb : b.cells with
  | none =>
    cases ho : o.cells with
    | none =>
      refine ⟨b, rfl, by simp [elements_of_none hb, elements_of_none ho], rfl, rfl, typedB⟩
    | some d =>
      refine ⟨_, rfl, ?_, rfl, rfl, ?_⟩
      · by_cases empty : d.length = 0
        · simp [empty, elements, hb, ho,
            List.eq_nil_of_length_eq_zero (by simpa using empty : d.elements.length = 0)]
        · simp [empty, elements, hb, ho]
      · intro c held
        split at held
        · cases held
        · cases held
          exact (typedO d ho).trans same
  | some c =>
    cases ho : o.cells with
    | none =>
      refine ⟨_, rfl, by simp [elements, hb, ho], rfl, rfl, ?_⟩
      intro c' held
      cases held
      exact typedB c hb
    | some d =>
      obtain ⟨e, joined, elems, type⟩ := Cells.append?_of_type ((typedB c hb).trans ((typedO d ho).trans same).symm)
      refine ⟨_, rfl, ?_, rfl, rfl, ?_⟩
      · simp [joined, elements, elems, hb, ho]
      · intro c' held
        simp only [joined, Option.orElse_some] at held
        cases held
        exact type.trans (typedB c hb)

/-- Truncating within the elements keeps their first `n`, with type and shape. -/
theorem truncate_within {b : Buffer} (typed : b.WellTyped) {n : Int} (nonneg : 0 ≤ n)
    (within : n ≤ b.len) :
    ∃ b', b.truncate n = .ok b' ∧ b'.elements = b.elements.take n.toNat ∧ b'.type = b.type ∧
      b'.shape = b.shape ∧ b'.WellTyped := by
  unfold truncate
  by_cases valid : b.type.valid = true
  · rw [if_neg (by simpa using valid), if_neg (by simp; omega)]
    refine ⟨_, rfl, ?_, rfl, rfl, ?_⟩
    · cases held : b.cells with
      | none => simp [elements, held]
      | some c => simp [elements, held, Cells.elements_take]
    · intro c held
      cases stored : b.cells with
      | none => simp [stored] at held
      | some c' =>
        simp only [stored, Option.map_some, Option.some.injEq] at held
        rw [← held, Cells.type_take]
        exact typed c' stored
  · have invalid : b.type.valid = false := by simpa using valid
    rw [if_pos (by simp [invalid])]
    exact ⟨b, rfl, by simp [typed.elements_of_invalid invalid], rfl, rfl, typed⟩

end Buffer

/-! ## Slices stacked along the last dimension -/

/-- `b` is a slice of type `t` and shape `s`: it holds exactly the product of `s` elements, of
its own type. -/
structure Slice (t : DataType) (s : List Int) (b : Buffer) : Prop where
  type_eq : b.type = t
  shape_eq : b.shape = s
  len_eq : (b.len : Int) = Buffer.product s
  wellTyped : b.WellTyped

/-- `d` holds the slices `bs` of type `t` and shape `s` one after another, their count as its last
dimension. -/
structure Stacked (t : DataType) (s : List Int) (bs : List Buffer) (d : Buffer) : Prop where
  type_eq : d.type = t
  shape_eq : d.shape = s ++ [(bs.length : Int)]
  elements_eq : d.elements = (bs.map Buffer.elements).flatten
  wellTyped : d.WellTyped

/-- The slices a field holds after one more slice write: the new slice goes after them, or, for
a replacing write, in the place of the last one. -/
def restack (bs : List Buffer) (replace : Bool) (b : Buffer) : List Buffer :=
  if replace && !bs.isEmpty then bs.dropLast ++ [b] else bs ++ [b]

/-- What a field holds before a slice write: nothing and no slice yet, or the slices `bs`. -/
def Holds (t : DataType) (s : List Int) (bs : List Buffer) : Option Leaf → Prop
  | none => bs = []
  | some l => Stacked t s bs l.data

theorem product_append_single (s : List Int) (k : Int) :
    Buffer.product (s ++ [k]) = Buffer.product s * k := by
  simp [Buffer.product, List.foldl_append]

/-- Slices of one length `n` stacked `m` deep hold `m * n` elements. -/
theorem length_flatten_slices {t : DataType} {s : List Int} {bs : List Buffer}
    (slices : ∀ x ∈ bs, Slice t s x) :
    (((bs.map Buffer.elements).flatten.length : Nat) : Int) = bs.length * Buffer.product s := by
  induction bs with
  | nil => simp
  | cons x rest ih =>
    have here := (slices x List.mem_cons_self).len_eq
    have later := ih fun y mem => slices y (List.mem_cons_of_mem x mem)
    simp only [List.map_cons, List.flatten_cons, List.length_append, Buffer.length_elements,
      List.length_cons] at later ⊢
    push_cast
    rw [later, here]
    ring

/-- Dropping the last slice keeps the elements of all the others. -/
theorem take_flatten_dropLast {t : DataType} {s : List Int} {bs : List Buffer}
    (slices : ∀ x ∈ bs, Slice t s x) (nonempty : bs ≠ []) :
    (bs.map Buffer.elements).flatten.take ((bs.length - 1) * (Buffer.product s).toNat) =
      (bs.dropLast.map Buffer.elements).flatten := by
  have nonneg : 0 ≤ Buffer.product s := by
    have := (slices _ (List.getLast_mem nonempty)).len_eq
    omega
  have front := length_flatten_slices fun x mem => slices x (List.mem_of_mem_dropLast mem)
  have exact : (bs.dropLast.map Buffer.elements).flatten.length =
      (bs.length - 1) * (Buffer.product s).toNat := by
    rw [← List.length_dropLast]
    zify
    rw [front, Int.toNat_of_nonneg nonneg]
  have split : bs.map Buffer.elements =
      bs.dropLast.map Buffer.elements ++ [(bs.getLast nonempty).elements] := by
    conv_lhs => rw [← List.dropLast_append_getLast nonempty]
    rw [List.map_append, List.map_singleton]
  rw [split, List.flatten_append]
  exact List.take_left' exact

theorem Stacked.dim {t : DataType} {s : List Int} {bs : List Buffer} {d : Buffer}
    (stacked : Stacked t s bs d) : d.dim = s.length + 1 := by
  simp [Buffer.dim, stacked.shape_eq]

theorem Stacked.sliceLen {t : DataType} {s : List Int} {bs : List Buffer} {d : Buffer}
    (stacked : Stacked t s bs d) : d.sliceLen = Buffer.product s := by
  simp [Buffer.sliceLen, stacked.shape_eq]

theorem Stacked.count {t : DataType} {s : List Int} {bs : List Buffer} {d : Buffer}
    (stacked : Stacked t s bs d) : d.shape.getLastD 0 = bs.length := by
  simp [stacked.shape_eq]

theorem Stacked.len {t : DataType} {s : List Int} {bs : List Buffer} {d : Buffer}
    (stacked : Stacked t s bs d) (slices : ∀ x ∈ bs, Slice t s x) :
    (d.len : Int) = bs.length * Buffer.product s := by
  rw [← Buffer.length_elements, stacked.elements_eq]
  exact length_flatten_slices slices

/-- The first slice written to a field becomes its only one, its count a last dimension of 1. -/
theorem appendSlice_none {t : DataType} {s : List Int} {b : Buffer} (slice : Slice t s b)
    (field timebase : String) (replace : Bool) :
    ∃ l, Action.appendSlice none field timebase b replace = .ok l ∧ l.timebase = timebase ∧
      Stacked t s [b] l.data :=
  ⟨_, rfl, rfl, slice.type_eq, by simp [slice.shape_eq],
    by simp only [List.map_cons, List.map_nil, List.flatten_cons, List.flatten_nil,
      List.append_nil]; exact b.elements_copy,
    slice.wellTyped.copy⟩

/-- A further slice of the same type and shape goes after the slices a field holds, or, for a
replacing write, in the place of the last one. -/
theorem appendSlice_stacked {t : DataType} {s : List Int} {bs : List Buffer} {l : Leaf}
    {b : Buffer} (stacked : Stacked t s bs l.data) (slices : ∀ x ∈ bs, Slice t s x)
    (slice : Slice t s b) (field timebase : String) (replace : Bool) :
    ∃ l', Action.appendSlice (some l) field timebase b replace = .ok l' ∧ l'.timebase = timebase ∧
      Stacked t s (restack bs replace b) l'.data := by
  have typed : ¬l.data.type ≠ b.type := by rw [stacked.type_eq, slice.type_eq]; simp
  have fits : (l.data.dim ≠ b.dim + 1 || l.data.sliceLen ≠ (b.len : Int)) = false := by
    simp [stacked.sliceLen, Buffer.dim, stacked.shape_eq, slice.shape_eq, slice.len_eq]
  have nonneg : 0 ≤ Buffer.product s := by have := slice.len_eq; omega
  unfold Action.appendSlice
  simp only [if_neg typed, fits, Bool.false_eq_true, if_false, stacked.count]
  by_cases drops : replace = true ∧ 0 < bs.length
  · -- a replacing write truncates to all slices but the last, then appends
    obtain ⟨replacing, nonempty⟩ := drops
    have notNil : bs ≠ [] := List.ne_nil_of_length_pos nonempty
    obtain ⟨d', truncated, elems', type', shape', typed'⟩ :=
      Buffer.truncate_within (n := ((bs.length : Int) - 1) * l.data.sliceLen) stacked.wellTyped
        (by rw [stacked.sliceLen]; exact Int.mul_nonneg (by omega) nonneg)
        (by rw [stacked.len slices, stacked.sliceLen]; nlinarith)
    obtain ⟨d'', appended, elems'', type'', shape'', typed''⟩ :=
      Buffer.appendData_of_type typed' slice.wellTyped (by rw [type', stacked.type_eq, slice.type_eq])
    have cut : ((((bs.length : Int) - 1) * l.data.sliceLen).toNat) =
        (bs.length - 1) * (Buffer.product s).toNat := by
      rw [stacked.sliceLen]
      zify [nonempty]
      rw [Int.toNat_of_nonneg (Int.mul_nonneg (by omega) nonneg), Int.toNat_of_nonneg nonneg]
    have cond : (replace && decide ((bs.length : Int) > 0)) = true := by
      simp [replacing, nonempty]
    refine ⟨⟨{ d'' with shape := d''.shape.dropLast ++ [(bs.length : Int) - 1 + 1] }, timebase⟩,
      ?_, rfl, ?_⟩
    · rw [if_pos cond]
      simp only [bind, Except.bind, truncated, pure, Except.pure, Except.faulting, Except.mapError,
        appended]
    · have restacked : restack bs replace b = bs.dropLast ++ [b] := by
        simp [restack, replacing, notNil]
      rw [restacked]
      refine ⟨type''.trans (type'.trans stacked.type_eq), ?_, ?_, typed''⟩
      · simp [shape'', shape', stacked.shape_eq]
        omega
      · show d''.elements = _
        rw [elems'', elems', stacked.elements_eq, cut, take_flatten_dropLast slices notNil]
        simp
  · -- otherwise the slice goes after the others
    have keeps : (replace && decide ((bs.length : Int) > 0)) = false := by
      cases replace <;> simp_all
    obtain ⟨d'', appended, elems'', type'', shape'', typed''⟩ :=
      Buffer.appendData_of_type stacked.wellTyped slice.wellTyped (by rw [stacked.type_eq, slice.type_eq])
    refine ⟨⟨{ d'' with shape := d''.shape.dropLast ++ [(bs.length : Int) + 1] }, timebase⟩,
      ?_, rfl, ?_⟩
    · rw [if_neg (by rw [keeps]; decide)]
      simp only [bind, Except.bind, pure, Except.pure, Except.faulting, Except.mapError, appended]
    · have restacked : restack bs replace b = bs ++ [b] := by
        cases replace <;> simp_all [restack]
      rw [restacked]
      refine ⟨type''.trans stacked.type_eq, ?_, ?_, typed''⟩
      · simp [shape'', stacked.shape_eq]
      · show d''.elements = _
        rw [elems'', stacked.elements_eq]
        simp

/-- One more slice write on what a field holds: it answers, with the slices `restack` gives. -/
theorem appendSlice_restack {t : DataType} {s : List Int} {bs : List Buffer} {prev : Option Leaf}
    {b : Buffer} (holds : Holds t s bs prev) (slices : ∀ x ∈ bs, Slice t s x) (slice : Slice t s b)
    (field timebase : String) (replace : Bool) :
    ∃ l, Action.appendSlice prev field timebase b replace = .ok l ∧ l.timebase = timebase ∧
      Stacked t s (restack bs replace b) l.data := by
  cases prev with
  | none =>
    have empty : bs = [] := holds
    subst empty
    have first : restack [] replace b = [b] := by simp [restack]
    rw [first]
    exact appendSlice_none slice field timebase replace
  | some l => exact appendSlice_stacked holds slices slice field timebase replace

/-- A slice of another type, or of another number of elements, is refused with a backend failure. -/
theorem appendSlice_mismatch {l : Leaf} {b : Buffer}
    (differs : l.data.type ≠ b.type ∨ l.data.sliceLen ≠ (b.len : Int)) (field timebase : String)
    (replace : Bool) :
    ∃ m, Action.appendSlice (some l) field timebase b replace = .error (.failure (.backend m)) := by
  simp only [Action.appendSlice]
  by_cases typed : l.data.type ≠ b.type
  · exact ⟨_, by simp only [if_pos typed]; rfl⟩
  · have long : l.data.sliceLen ≠ (b.len : Int) := differs.resolve_left typed
    exact ⟨_, by rw [if_neg typed, if_pos (by simp [long])]⟩

/-! ## Stored trees -/

theorem Keyed.insert_ne_nil {α : Type} (k : String) (v : α) (l : List (String × α)) :
    Keyed.insert k v l ≠ [] := by
  cases l with
  | nil => simp [Keyed.insert]
  | cons e rest =>
    unfold Keyed.insert
    split_ifs <;> simp

/-- Copying keeps the node a path first holds, copied, unless the copy drops it. -/
theorem lookup_copyFields_of_kept {fs : List (String × Node)} {p : String} {n : Node}
    (found : fs.lookup p = some n) (kept : copyFields [(p, n)] ≠ []) :
    (copyFields fs).lookup p = (copyFields [(p, n)]).lookup p := by
  induction fs with
  | nil => cases found
  | cons e rest ih =>
    obtain ⟨k, ⟨lo, ao⟩⟩ := e
    rw [lookup_cons_ite] at found
    by_cases here : p = k
    · rw [if_pos here] at found
      cases found
      subst here
      rcases lo with _ | l' <;> rcases ao with _ | a' <;> simp_all [copyFields]
    · rw [if_neg here] at found
      rcases lo with _ | l' <;> rcases ao with _ | a' <;>
        simp [copyFields, lookup_cons_ite, here, ih found]

/-- Copying makes no path that was not there. -/
theorem lookup_copyFields_none {fs : List (String × Node)} {p : String}
    (found : fs.lookup p = none) : (copyFields fs).lookup p = none := by
  induction fs with
  | nil => rfl
  | cons e rest ih =>
    obtain ⟨k, ⟨lo, ao⟩⟩ := e
    rw [lookup_cons_ite] at found
    by_cases here : p = k
    · rw [if_pos here] at found
      cases found
    · rw [if_neg here] at found
      rcases lo with _ | l' <;> rcases ao with _ | a' <;>
        simp [copyFields, lookup_cons_ite, here, ih found]

namespace Tree

@[simp] theorem leaf?_empty (p : String) : Tree.empty.leaf? p = none := rfl

@[simp] theorem leaf?_setLeaf_self (t : Tree) (p : String) (l : Leaf) :
    (t.setLeaf p l).leaf? p = some l := by
  simp [setLeaf, set, leaf?, find?, fields, Keyed.lookup_insert, Node.ofLeaf, Node.leaf]

@[simp] theorem isEmpty_setLeaf (t : Tree) (p : String) (l : Leaf) :
    (t.setLeaf p l).isEmpty = false := by
  simp [setLeaf, set, isEmpty, fields, Keyed.insert_ne_nil]

theorem leaf?_copy {t : Tree} {p : String} {l : Leaf} (found : t.leaf? p = some l) :
    t.copy.leaf? p = some { l with data := l.data.copy } := by
  obtain ⟨fs⟩ := t
  simp only [leaf?, find?, fields, Option.bind_eq_some_iff] at found
  obtain ⟨⟨lo, arr⟩, node, leafHeld⟩ := found
  cases leafHeld
  have copied := lookup_copyFields_of_kept node (by simp [copyFields])
  simp [copy, leaf?, find?, fields, copied, copyFields, Node.ofLeaf, Node.leaf]

theorem find?_copy_ofArray {t : Tree} {p : String} {a : StructArray}
    (found : t.find? p = some (.ofArray a)) : t.copy.find? p = some (.ofArray a.copy) := by
  obtain ⟨fs⟩ := t
  have stored : fs.lookup p = some (.ofArray a) := found
  have copied := lookup_copyFields_of_kept stored (by simp [copyFields, Node.ofArray])
  simp [copy, find?, fields, copied, copyFields, Node.ofArray]

theorem find?_copy_none {t : Tree} {p : String} (found : t.find? p = none) :
    t.copy.find? p = none := by
  obtain ⟨fs⟩ := t
  exact lookup_copyFields_none found

end Tree

theorem Stacked.copy {t : DataType} {s : List Int} {bs : List Buffer} {d : Buffer}
    (stacked : Stacked t s bs d) : Stacked t s bs d.copy :=
  ⟨stacked.type_eq, stacked.shape_eq, (Buffer.elements_copy d).trans stacked.elements_eq,
    stacked.wellTyped.copy⟩

theorem Store.put_ok_of_contains {st : Store} {key : String} (present : st.contains key = true)
    (name : String) (t : Tree) : ∃ st', st.put key name (some t) = .ok st' := by
  unfold contains at present
  cases found : st.entry? key with
  | none => simp [found] at present
  | some objs => exact ⟨_, by rw [put_some, found]⟩

/-! ## One slice write action -/

namespace MemoryBackend

@[simp] theorem entry_setAction (b : MemoryBackend) (key : Nat) (a : Action) :
    (b.setAction key a).entry = b.entry := rfl

theorem actionOf_setAction (b : MemoryBackend) (op : Operation) (a : Action) :
    (b.setAction op.uid a).actionOf (.operation op) = .ok (op.uid, a) := by
  simp [actionOf, Context.operationUid, lookup_setAction, bind, Except.bind]

/-- A write that does not replace a whole object begins on a copy of the committed object, or on
an empty tree when there is none. -/
theorem beginAction_sliceWrite_run {op : Operation} {b : MemoryBackend} (st : Store)
    (opened : b.entry ≠ "") (slice : op.range = .slice) (writes : op.access ≠ .read) :
    (beginAction op).run (b, st) =
      .ok () (b.setAction op.uid
        { op, tree := ((st.get? b.entry op.name).map Tree.copy).getD Tree.empty, write := true },
        st) := by
  unfold beginAction
  simp only [EStateM.run_bind, EStateM.run_get]
  have ranged : RangeMode.slice ≠ .timeRange := by decide
  have notGlobal : RangeMode.slice ≠ .global := by decide
  cases st.get? b.entry op.name <;> simp [opened, slice, writes, ranged, notGlobal]

/-- A write answers the action's own write of the field, or fails leaving all as it was. -/
theorem writeData_run (ctx : Context) (field timebase : String) (data : Buffer) (b : MemoryBackend)
    (st : Store) :
    (writeData ctx field timebase data).run (b, st) =
      match b.actionOf ctx with
      | .error f => .error (.failure f) (b, st)
      | .ok (key, a) =>
        if a.write then
          match a.writeLeaf ctx field timebase data with
          | .ok a' => .ok () (b.setAction key a', st)
          | .error e => .error e (b, st)
        else .error (.failure (.backend "Cannot write data in a read action")) (b, st) := by
  unfold writeData
  simp only [EStateM.run_bind, EStateM.run_get]
  cases found : b.actionOf ctx with
  | error f => rfl
  | ok p =>
    obtain ⟨key, a⟩ := p
    simp only [run_toCall]
    by_cases writes : a.write = true
    · simp only [writes]
      cases a.writeLeaf ctx field timebase data <;> rfl
    · simp only [writes]
      rfl

end MemoryBackend

/-- A slice write through the operation appends to the field of the staged tree. -/
theorem Action.writeLeaf_sliceOperation (a : Action) (op : Operation) (field timebase : String)
    (data : Buffer) (slice : a.op.range = .slice) (timed : timebase ≠ "") :
    a.writeLeaf (.operation op) field timebase data =
      (Action.appendSlice (a.tree.leaf? field) field timebase data (a.op.access = .replace)).map
        fun l => { a with tree := a.tree.setLeaf field l } := by
  unfold Action.writeLeaf
  simp [Action.container, Except.faulting, slice, timed, Context.insideTimed]
  rfl

/-! ## Runs of calls -/

namespace MemoryOp

/-- Carries out calls one after another; the first that fails ends the run. -/
def performAll : List MemoryOp → MemoryCall Unit
  | [] => pure ()
  | op :: rest => do op.perform; performAll rest

theorem performAll_cons_run (op : MemoryOp) (rest : List MemoryOp) (s : MemoryBackend × Store) :
    (performAll (op :: rest)).run s =
      match op.perform.run s with
      | .ok _ s' => (performAll rest).run s'
      | .error e s' => .error e s' := by
  simp only [performAll, EStateM.run_bind]
  cases op.perform.run s <;> rfl

/-- Calls that all answered, followed by others: the others run from where the first left. -/
theorem performAll_append {xs : List MemoryOp} {s s' : MemoryBackend × Store}
    (answered : (performAll xs).run s = .ok () s') (ys : List MemoryOp) :
    (performAll (xs ++ ys)).run s = (performAll ys).run s' := by
  induction xs generalizing s with
  | nil =>
    cases answered
    rfl
  | cons op rest ih =>
    rw [List.cons_append, performAll_cons_run]
    rw [performAll_cons_run] at answered
    cases first : op.perform.run s with
    | ok _ s₁ =>
      rw [first] at answered
      exact ih answered
    | error e s₁ =>
      rw [first] at answered
      cases answered

/-- The calls of a slice write action that writes one field: begin, write, end. -/
def sliceWrite (op : Operation) (field timebase : String) (data : Buffer) : List MemoryOp :=
  [.beginAction op, .writeData (.operation op) field timebase data, .endAction (.operation op)]

end MemoryOp

/-! ## Committed slice writes -/

/-- The field `field` of a committed data object holds the slices `bs`: nothing at its path while
there are none, else a leaf stacking them. -/
def FieldSlices (t : DataType) (s : List Int) (field : String) (bs : List Buffer)
    (obj : Option Tree) : Prop :=
  match bs with
  | [] => obj.bind (·.find? field) = none
  | _ :: _ => ∃ l, obj.bind (·.leaf? field) = some l ∧ Stacked t s bs l.data

theorem restack_ne_nil (bs : List Buffer) (replace : Bool) (b : Buffer) : restack bs replace b ≠ [] := by
  unfold restack
  split <;> simp

theorem mem_restack {bs : List Buffer} {replace : Bool} {b x : Buffer}
    (mem : x ∈ restack bs replace b) : x ∈ bs ∨ x = b := by
  unfold restack at mem
  split at mem
  · rcases List.mem_append.mp mem with kept | last
    · exact .inl (List.mem_of_mem_dropLast kept)
    · exact .inr (List.mem_singleton.mp last)
  · simpa using mem

/-- A leaf stacking the slices, once they are some, is what `FieldSlices` asks. -/
theorem FieldSlices.of_leaf {t : DataType} {s : List Int} {field : String} {bs : List Buffer}
    {obj : Option Tree} {l : Leaf} (nonempty : bs ≠ []) (found : obj.bind (·.leaf? field) = some l)
    (stacked : Stacked t s bs l.data) : FieldSlices t s field bs obj := by
  obtain ⟨x, rest, rfl⟩ := List.exists_cons_of_ne_nil nonempty
  exact ⟨l, found, stacked⟩

/-- What an action that begins on the committed object sees of the field: no leaf while there are
no slices, else a copy of the leaf stacking them. -/
theorem FieldSlices.seen {t : DataType} {s : List Int} {field : String} {bs : List Buffer}
    {obj : Option Tree} (held : FieldSlices t s field bs obj) :
    Holds t s bs (((obj.map Tree.copy).getD Tree.empty).leaf? field) := by
  cases bs with
  | nil =>
    cases obj with
    | none => rfl
    | some tree =>
      have copied := Tree.find?_copy_none (show tree.find? field = none from held)
      have absent : tree.copy.leaf? field = none := by simp [Tree.leaf?, copied]
      rw [Option.map_some, Option.getD_some, absent]
      rfl
  | cons x rest =>
    obtain ⟨l, found, stacked⟩ := held
    cases obj with
    | none => cases found
    | some tree =>
      rw [Option.map_some, Option.getD_some, Tree.leaf?_copy found]
      exact stacked.copy

theorem dropAction_setAction (b : MemoryBackend) (key : Nat) (a : Action) :
    (b.setAction key a).dropAction key = b.dropAction key := by
  simp [MemoryBackend.setAction, MemoryBackend.dropAction, List.filter_filter]

/-- Ending a write action on an existing entry commits its tree. -/
theorem endAction_commit_ok (b : MemoryBackend) (op : Operation) (a : Action) {st : Store}
    (wf : st.WF) (present : st.contains b.entry = true) (writes : a.write = true) :
    ∃ st', (MemoryBackend.endAction (.operation op)).run (b.setAction op.uid a, st) =
        .ok () (b.dropAction op.uid, st') ∧ st'.WF ∧ st'.contains b.entry = true ∧
      ∀ e n, st'.get? e n = if e = b.entry ∧ n = op.name then
        (if a.tree.isEmpty then none else some a.tree) else st.get? e n := by
  obtain ⟨st', put⟩ := Store.put_ok_of_contains present op.name a.tree
  refine ⟨st', ?_, wf.put put, by rw [Store.contains_of_put wf put]; exact present,
    Store.get?_of_put wf put⟩
  rw [MemoryBackend.endAction_commit_run (MemoryBackend.actionOf_setAction _ _ _) writes]
  simp only [MemoryBackend.entry_setAction, put, dropAction_setAction]

/-- One slice write action on a committed object whose field holds the slices `bs` answers every
call; the field then holds the slices `restack` gives, every other object is as it was, and the
backend is left without an action for the operation. -/
theorem sliceWrite_run {t : DataType} {s : List Int} {bs : List Buffer} {b : MemoryBackend}
    {st : Store} {op : Operation} {field timebase : String} {data : Buffer}
    (wf : st.WF) (opened : b.entry ≠ "") (present : st.contains b.entry = true)
    (slice : op.range = .slice) (writes : op.access ≠ .read) (timed : timebase ≠ "")
    (held : FieldSlices t s field bs (st.get? b.entry op.name)) (slices : ∀ x ∈ bs, Slice t s x)
    (fresh : Slice t s data) :
    ∃ st', (MemoryOp.performAll (MemoryOp.sliceWrite op field timebase data)).run (b, st) =
        .ok () (b.dropAction op.uid, st') ∧ st'.WF ∧ st'.contains b.entry = true ∧
      FieldSlices t s field (restack bs (op.access = .replace) data) (st'.get? b.entry op.name) ∧
      ∀ e n, ¬(e = b.entry ∧ n = op.name) → st'.get? e n = st.get? e n := by
  -- the action begins on a copy of the object, appends the slice to what it sees, and commits
  let start : Action :=
    { op, tree := ((st.get? b.entry op.name).map Tree.copy).getD Tree.empty, write := true }
  have begun := MemoryBackend.beginAction_sliceWrite_run st opened slice writes
  obtain ⟨l, appended, -, stacked⟩ :=
    appendSlice_restack held.seen slices fresh field timebase (op.access = .replace)
  let staged : Action := { start with tree := start.tree.setLeaf field l }
  have written : (MemoryBackend.writeData (.operation op) field timebase data).run
      (b.setAction op.uid start, st) = .ok () ((b.setAction op.uid start).setAction op.uid staged, st) := by
    rw [MemoryBackend.writeData_run, MemoryBackend.actionOf_setAction]
    simp only [start, if_true]
    rw [Action.writeLeaf_sliceOperation _ _ _ _ _ slice timed]
    simp only [appended]
    rfl
  obtain ⟨st', ended, wf', present', committed⟩ :=
    endAction_commit_ok (b.setAction op.uid start) op staged wf present rfl
  refine ⟨st', ?_, wf', present', ?_, fun e n other => (committed e n).trans (if_neg other)⟩
  · simp only [start, staged, dropAction_setAction] at written ended
    simp only [MemoryOp.sliceWrite, MemoryOp.performAll_cons_run, MemoryOp.perform, begun, written,
      ended]
    rfl
  · refine FieldSlices.of_leaf (restack_ne_nil _ _ _) ?_ stacked
    rw [committed, if_pos ⟨rfl, rfl⟩]
    simp [staged]

/-- The slices a field holds after slice write actions, each plain or replacing as its operation
says. -/
def restackAll (bs : List Buffer) (writes : List (Operation × Buffer)) : List Buffer :=
  writes.foldl (fun bs w => restack bs (w.1.access = .replace) w.2) bs

/-- Plain slice writes stack their slices after the ones there. -/
theorem restackAll_plain (bs : List Buffer) {writes : List (Operation × Buffer)}
    (plain : ∀ w ∈ writes, w.1.access ≠ .replace) :
    restackAll bs writes = bs ++ writes.map Prod.snd := by
  induction writes generalizing bs with
  | nil => simp [restackAll]
  | cons w rest ih =>
    have appends : restack bs (w.1.access = .replace) w.2 = bs ++ [w.2] := by
      simp [restack, plain w List.mem_cons_self]
    have later := ih (restack bs (w.1.access = .replace) w.2)
      fun v mem => plain v (List.mem_cons_of_mem w mem)
    simp only [restackAll, List.foldl_cons] at later ⊢
    rw [later, appends]
    simp

theorem FieldSlices.leaf {t : DataType} {s : List Int} {field : String} {bs : List Buffer}
    {obj : Option Tree} (held : FieldSlices t s field bs obj) (nonempty : bs ≠ []) :
    ∃ l, obj.bind (·.leaf? field) = some l ∧ Stacked t s bs l.data := by
  obtain ⟨x, rest, rfl⟩ := List.exists_cons_of_ne_nil nonempty
  exact held

/-- Slice write actions one after another, each writing the field once, on an object whose field
holds the slices `bs`: every call answers, the field then holds the slices `restackAll` gives,
and every other object is as it was. -/
theorem sliceWrites_run {t : DataType} {s : List Int} {name field timebase : String}
    (writes : List (Operation × Buffer))
    (each : ∀ w ∈ writes, w.1.name = name ∧ w.1.range = .slice ∧ w.1.access ≠ .read ∧ Slice t s w.2)
    (timed : timebase ≠ "") :
    ∀ {bs : List Buffer} {b : MemoryBackend} {st : Store}, st.WF → b.entry ≠ "" →
      st.contains b.entry = true → FieldSlices t s field bs (st.get? b.entry name) →
      (∀ x ∈ bs, Slice t s x) →
    ∃ b' st', (MemoryOp.performAll (writes.flatMap fun w =>
        MemoryOp.sliceWrite w.1 field timebase w.2)).run (b, st) = .ok () (b', st') ∧
      b'.entry = b.entry ∧ st'.WF ∧ st'.contains b.entry = true ∧
      FieldSlices t s field (restackAll bs writes) (st'.get? b.entry name) ∧
      ∀ e n, ¬(e = b.entry ∧ n = name) → st'.get? e n = st.get? e n := by
  -- induction on the actions; the invariant is what the field holds in the committed object
  induction writes with
  | nil =>
    intro bs b st wf _ present held _
    exact ⟨b, st, rfl, rfl, wf, present, held, fun _ _ _ => rfl⟩
  | cons w rest ih =>
    intro bs b st wf opened present held slices
    obtain ⟨named, slice, writes, fresh⟩ := each w List.mem_cons_self
    obtain ⟨st₁, ran, wf₁, present₁, held₁, kept₁⟩ :=
      sliceWrite_run wf opened present slice writes timed (named ▸ held) slices fresh
    have slices₁ : ∀ x ∈ restack bs (w.1.access = .replace) w.2, Slice t s x := fun x mem =>
      (mem_restack mem).elim (slices x) fun same => same ▸ fresh
    obtain ⟨b', st', ran', entry', wf', present', held', kept'⟩ :=
      ih (fun v mem => each v (List.mem_cons_of_mem w mem)) (b := b.dropAction w.1.uid) wf₁ opened
        present₁ (named ▸ held₁) slices₁
    refine ⟨b', st', ?_, entry', wf', present', held', fun e n other => ?_⟩
    · rw [List.flatMap_cons, MemoryOp.performAll_append ran]
      exact ran'
    · rw [kept' e n other, kept₁ e n (named ▸ other)]

/-- A slice of another type or another slice length, written to a field the staged tree holds,
fails with a backend failure and leaves backend and store as they were. -/
theorem writeData_slice_mismatch {b : MemoryBackend} {op : Operation} {key : Nat} {a : Action}
    (found : b.actionOf (.operation op) = .ok (key, a)) (writes : a.write = true)
    (slice : a.op.range = .slice) {field timebase : String} (timed : timebase ≠ "") {l : Leaf}
    (staged : a.tree.leaf? field = some l) {data : Buffer}
    (differs : l.data.type ≠ data.type ∨ l.data.sliceLen ≠ (data.len : Int)) (st : Store) :
    ∃ m, (MemoryBackend.writeData (.operation op) field timebase data).run (b, st) =
      .error (.failure (.backend m)) (b, st) := by
  obtain ⟨m, refused⟩ := appendSlice_mismatch differs field timebase (a.op.access = .replace)
  refine ⟨m, ?_⟩
  rw [MemoryBackend.writeData_run, found]
  simp only [writes, if_true]
  rw [Action.writeLeaf_sliceOperation _ _ _ _ _ slice timed, staged, refused]
  rfl

/-! ## Copies of stored trees -/

@[simp] theorem Buffer.copy_copy (b : Buffer) : b.copy.copy = b.copy := by
  unfold Buffer.copy
  cases b.cells with
  | none => rfl
  | some c => by_cases empty : c.length = 0 <;> simp [empty]

@[simp] theorem Tree.copy_empty : Tree.empty.copy = Tree.empty := by
  simp [Tree.empty, Tree.copy, copyFields]

mutual
/-- Copying a copy changes nothing: each commit copies, and copies of copies agree. -/
theorem Tree.copy_copy : (t : Tree) → t.copy.copy = t.copy
  | .mk fs => by simp only [Tree.copy, copyFields_copyFields fs]
theorem copyFields_copyFields : (fs : List (String × Node)) →
    copyFields (copyFields fs) = copyFields fs
  | [] => rfl
  | (k, .mk (some l) _) :: rest => by
    simp [copyFields, Node.ofLeaf, copyFields_copyFields rest]
  | (k, .mk none (some a)) :: rest => by
    simp [copyFields, Node.ofArray, StructArray.copy_copy a, copyFields_copyFields rest]
  | (_, .mk none none) :: rest => by
    simp [copyFields, copyFields_copyFields rest]
theorem StructArray.copy_copy : (a : StructArray) → a.copy.copy = a.copy
  | .mk tb es => by simp only [StructArray.copy, copyElements_copyElements es]
theorem copyElements_copyElements : (es : List (Option Tree)) →
    copyElements (copyElements es) = copyElements es
  | [] => rfl
  | none :: rest => by simp [copyElements, copyElements_copyElements rest]
  | some e :: rest => by simp [copyElements, Tree.copy_copy e, copyElements_copyElements rest]
end

/-- Copying elements copies each one, an absent one as an empty structure. -/
theorem copyElements_eq_map (es : List (Option Tree)) :
    copyElements es = es.map fun e => some (e.getD Tree.empty).copy := by
  induction es with
  | nil => rfl
  | cons e rest ih => cases e <;> simp [copyElements, ih]

/-! ## Time-dependent arrays written slice by slice -/

/-- A write of one field of one element of an array, through the array's context moved to the
element. -/
structure ElementWrite where
  index : Nat
  field : String
  timebase : String
  data : Buffer

/-- The elements after a write: element `index` gains the field. -/
def ElementWrite.apply (w : ElementWrite) (es : List (Option Tree)) : List (Option Tree) :=
  es.modify w.index fun e => some ((e.getD Tree.empty).setLeaf w.field ⟨w.data.copy, w.timebase⟩)

/-- The elements a timed slice action writes: `size` empty ones, each write setting a field of
one of them. -/
def writtenElements (size : Nat) (ws : List ElementWrite) : List (Option Tree) :=
  ws.foldl (fun es w => w.apply es) (List.replicate size (some Tree.empty))

/-- A slice write action that fills a time-dependent array opened under its operation: the
operation, the array's context, the number of elements it opens and the writes of their fields. -/
structure TimedWrite where
  op : Operation
  context : ArrayContext
  size : Nat
  writes : List ElementWrite

/-- The calls of the action: begin, open the array, write fields of its elements through the
array's context moved to each, close the array, end. -/
def TimedWrite.calls (a : TimedWrite) : List MemoryOp :=
  [.beginAction a.op, .beginArray a.context a.size] ++
    a.writes.map (fun w => .writeData (.array (a.context.advance w.index)) w.field w.timebase w.data) ++
    [.endAction (.array a.context), .endAction (.operation a.op)]

/-- The elements an array holds after one more timed slice action: the action's elements go after
them, a replacing action first dropping the last; an action that wrote none leaves them. -/
def restackElements (es : List (Option Tree)) (replace : Bool) (new : List (Option Tree)) :
    List (Option Tree) :=
  if new.isEmpty then es else (if replace && !es.isEmpty then es.dropLast else es) ++ new

/-- The array at `path` of a tree holds the elements `es`, up to the copy each commit makes: no
node at all while there are none. -/
def ArrayHolds (path timebase : String) (es : List (Option Tree)) (t : Tree) : Prop :=
  match es with
  | [] => t.find? path = none
  | _ :: _ => ∃ stored, t.find? path = some (.ofArray (.mk timebase stored)) ∧
      copyElements stored = copyElements es

/-- A slice write action while its time-dependent array `c` collects the elements `arr` apart. -/
def timedStage (op : Operation) (tree : Tree) (c : ArrayContext) (arr : StructArray) : Action :=
  let collecting : OpenArray :=
    { context := c, home := some (.apart c.uid), apart := arr, appendTo := some .root }
  { op, tree, write := true, arrays := [(c.uid, collecting)] }

@[simp] theorem Action.arrayAt_apart (a : Action) (u : Nat) :
    a.arrayAt (.apart u) = (a.arrays.lookup u).map (·.apart) := by
  simp [Action.arrayAt]

@[simp] theorem Action.updateStruct_element (a : Action) (f : Tree → Tree) (s : ArraySite)
    (i : Nat) : a.updateStruct f (.element s i) = a.updateArray (fun arr => arr.modifyElement i f) s := by
  simp [Action.updateStruct]

@[simp] theorem Action.updateArray_apart (a : Action) (f : StructArray → StructArray) (u : Nat) :
    a.updateArray f (.apart u) = { a with arrays := a.arrays.map fun (k, oa) =>
      if k = u then (k, { oa with apart := f oa.apart }) else (k, oa) } := by
  simp [Action.updateArray]

theorem setAction_setAction (b : MemoryBackend) (key : Nat) (a a' : Action) :
    (b.setAction key a).setAction key a' = b.setAction key a' := by
  simp [MemoryBackend.setAction, List.filter_filter]

theorem actionOf_setAction_array (b : MemoryBackend) (op : Operation) {c : ArrayContext}
    (own : c.op = op) (a : Action) :
    (b.setAction op.uid a).actionOf (.array c) = .ok (op.uid, a) := by
  subst own
  simp [MemoryBackend.actionOf, Context.operationUid, MemoryBackend.lookup_setAction, bind,
    Except.bind]

/-- A slice write opening a time-dependent array under the operation collects its `size` empty
elements apart. -/
theorem beginArray_timed_run {b : MemoryBackend} {op : Operation} {tree : Tree} {c : ArrayContext}
    (st : Store) (own : c.op = op) (top : c.ancestors = []) (slice : op.range = .slice)
    (timed : c.timed = true) (size : Nat) :
    (MemoryBackend.beginArray c size).run (b.setAction op.uid { op, tree, write := true }, st) =
      .ok (size : Int) (b.setAction op.uid (timedStage op tree c (.fresh c.timebase size)), st) := by
  have parent : c.parentContext = .operation op := by
    simp [ArrayContext.parentContext, ArrayContext.parent?, top, own]
  unfold MemoryBackend.beginArray
  simp only [EStateM.run_bind, EStateM.run_get, actionOf_setAction_array b op own, run_toCall]
  simp [Action.beginWrite, parent, Action.container, slice, timed, Context.insideTimed,
    Action.register, timedStage, setAction_setAction]

/-- A write through the array's context moved to one of its collected elements sets the field
of that element. -/
theorem writeData_timedElement_run {b : MemoryBackend} {op : Operation} {tree : Tree}
    {c : ArrayContext} {tb : String} {es : List (Option Tree)} (st : Store) (own : c.op = op)
    (start : c.index = 0) (timed : c.timed = true) (w : ElementWrite) (within : w.index < es.length) :
    (MemoryBackend.writeData (.array (c.advance w.index)) w.field w.timebase w.data).run
        (b.setAction op.uid (timedStage op tree c (.mk tb es)), st) =
      .ok () (b.setAction op.uid (timedStage op tree c (.mk tb (w.apply es))), st) := by
  have moved : (c.advance w.index).op = op := own
  have sameUid : (c.advance w.index).uid = c.uid := rfl
  have placed : (c.advance w.index).index = w.index := by
    simp only [ArrayContext.advance, ArrayContext.index] at start ⊢
    omega
  have inside : (Context.array (c.advance w.index)).insideTimed = true := by
    have still : (c.advance w.index).timed = true := timed
    simp [Context.insideTimed, ArrayContext.insideTimed, still]
  have site : (timedStage op tree c (.mk tb es)).container (.array (c.advance w.index)) =
      .ok (.element (.apart c.uid) w.index) := by
    simp [Action.container, Action.arrayOf, timedStage, sameUid, placed, bind, Except.bind,
      StructArray.size, StructArray.elements, within]
  rw [MemoryBackend.writeData_run, actionOf_setAction_array b op moved]
  simp [Action.writeLeaf, site, Except.faulting, inside, Except.mapError, Functor.map, Except.map]
  simp [timedStage, setAction_setAction, StructArray.modifyElement, ElementWrite.apply,
    StructArray.timebase, StructArray.elements]

namespace Tree

@[simp] theorem find?_set_self (t : Tree) (p : String) (n : Node) : (t.set p n).find? p = some n := by
  simp [set, find?, fields, Keyed.lookup_insert]

theorem array?_of_find? {t : Tree} {p : String} {a : StructArray}
    (found : t.find? p = some (.ofArray a)) : t.array? p = some a := by
  simp [array?, found, Node.ofArray, Node.array]

theorem array?_of_find?_none {t : Tree} {p : String} (found : t.find? p = none) :
    t.array? p = none := by
  simp [array?, found]

theorem modifyArray_of_find? {t : Tree} {p : String} {a : StructArray}
    (found : t.find? p = some (.ofArray a)) (f : StructArray → StructArray) :
    t.modifyArray p f = t.set p (.ofArray (f a)) := by
  simp [modifyArray, found, Node.ofArray]

end Tree

theorem ArrayHolds.of_find? {p tb : String} {es stored : List (Option Tree)} {t : Tree}
    (nonempty : es ≠ []) (found : t.find? p = some (.ofArray (.mk tb stored)))
    (same : copyElements stored = copyElements es) : ArrayHolds p tb es t := by
  obtain ⟨x, rest, rfl⟩ := List.exists_cons_of_ne_nil nonempty
  exact ⟨stored, found, same⟩

theorem copyElements_append (xs ys : List (Option Tree)) :
    copyElements (xs ++ ys) = copyElements xs ++ copyElements ys := by
  simp [copyElements_eq_map]

theorem length_copyElements (es : List (Option Tree)) : (copyElements es).length = es.length := by
  simp [copyElements_eq_map]

/-- Dropping the last element of stored elements, when a replacing action asks, commutes with
the copy. -/
theorem copyElements_kept {stored es : List (Option Tree)}
    (same : copyElements stored = copyElements es) (replace : Bool) :
    copyElements (if replace && stored.length > 0 then stored.dropLast else stored) =
      copyElements (if replace && !es.isEmpty then es.dropLast else es) := by
  have lengths : stored.length = es.length := by
    rw [← length_copyElements stored, same, length_copyElements]
  by_cases drops : replace = true ∧ es ≠ []
  · have long : stored.length > 0 := by
      rw [lengths]
      exact List.length_pos_of_ne_nil drops.2
    simp only [drops.1, long, List.isEmpty_eq_false_iff.mpr drops.2]
    simp only [copyElements_eq_map] at same ⊢
    simp [same]
  · by_cases replacing : replace = true
    · have empty : es = [] := by simpa [replacing] using drops
      subst empty
      have none : stored = [] := List.eq_nil_of_length_eq_zero lengths
      subst none
      simp
    · simp only [Bool.not_eq_true] at replacing
      simp [replacing, same]

/-- Closing the time-dependent array appends its collected elements to the array the tree holds
at its path, or makes them that array, a replacing action first dropping the last stored one. -/
theorem Action.endArray_timed {op : Operation} {tree : Tree} {c : ArrayContext}
    {held es : List (Option Tree)} (holds : ArrayHolds c.path c.timebase held tree) :
    ∃ tree', (timedStage op tree c (.mk c.timebase es)).endArray c =
        .ok { op, tree := tree', write := true } ∧
      ArrayHolds c.path c.timebase (restackElements held (op.access = .replace) es) tree' := by
  by_cases nothing : es = []
  · -- an action that collected nothing leaves the tree
    subst nothing
    refine ⟨tree, ?_, by simpa [restackElements] using holds⟩
    simp [Action.endArray, Action.arrayOf, timedStage, bind, Except.bind, Action.unregister,
      StructArray.size, StructArray.elements]
    rfl
  · have collected : es.isEmpty = false := List.isEmpty_eq_false_iff.mpr nothing
    cases held with
    | nil =>
      -- no array yet: the collected elements become it
      have absent : tree.array? c.path = none := Tree.array?_of_find?_none holds
      refine ⟨tree.setArray c.path (.mk c.timebase es), ?_, ?_⟩
      · simp [Action.endArray, Action.arrayOf, timedStage, bind, Except.bind, Action.unregister,
          StructArray.size, StructArray.elements, nothing, Action.arrayAt, Action.structAt, absent,
          Action.updateStruct]
        rfl
      · have appended : restackElements [] (op.access = .replace) es = es := by
          simp [restackElements, collected]
        rw [appended]
        exact ArrayHolds.of_find? nothing (Tree.find?_set_self _ _ _) rfl
    | cons h rest =>
      -- an array is there: the collected elements go after what it keeps
      obtain ⟨stored, found, same⟩ := holds
      let kept := if op.access = .replace && stored.length > 0 then stored.dropLast else stored
      refine ⟨tree.set c.path (.ofArray (.mk c.timebase (kept ++ es))), ?_, ?_⟩
      · simp [Action.endArray, Action.arrayOf, timedStage, bind, Except.bind, Action.unregister,
          StructArray.size, StructArray.elements, nothing, Action.arrayAt, Action.structAt,
          Tree.array?_of_find? found, Action.updateStruct, Action.updateArray,
          Tree.modifyArray_of_find? found, kept]
        rfl
      · refine ArrayHolds.of_find? (by simp [restackElements, collected, nothing])
          (Tree.find?_set_self _ _ _) ?_
        rw [restackElements, if_neg (by simp [collected]), copyElements_append,
          copyElements_append, copyElements_kept same]

theorem endAction_timed_run {b : MemoryBackend} {op : Operation} {tree : Tree} {c : ArrayContext}
    {held es : List (Option Tree)} (st : Store) (own : c.op = op)
    (holds : ArrayHolds c.path c.timebase held tree) :
    ∃ tree', (MemoryBackend.endAction (.array c)).run
        (b.setAction op.uid (timedStage op tree c (.mk c.timebase es)), st) =
        .ok () (b.setAction op.uid { op, tree := tree', write := true }, st) ∧
      ArrayHolds c.path c.timebase (restackElements held (op.access = .replace) es) tree' := by
  obtain ⟨tree', closed, holds'⟩ := @Action.endArray_timed op tree c held es holds
  refine ⟨tree', ?_, holds'⟩
  unfold MemoryBackend.endAction
  simp only [EStateM.run_bind, EStateM.run_get, actionOf_setAction_array b op own, run_toCall,
    closed, setAction_setAction]
  rfl

/-- The copy an action begins on holds the elements its original holds. -/
theorem ArrayHolds.copy {p tb : String} {es : List (Option Tree)} {t : Tree}
    (holds : ArrayHolds p tb es t) : ArrayHolds p tb es t.copy := by
  cases es with
  | nil => exact Tree.find?_copy_none holds
  | cons e rest =>
    obtain ⟨stored, found, same⟩ := holds
    refine ⟨copyElements stored, Tree.find?_copy_ofArray found, ?_⟩
    rw [copyElements_copyElements, same]

/-- The tree a commit leaves, read back with an empty tree for none, is the committed tree. -/
theorem getD_committed (t : Tree) : (if t.isEmpty then none else some t).getD Tree.empty = t := by
  by_cases empty : t.isEmpty = true
  · obtain ⟨fs⟩ := t
    have nil : fs = [] := by simpa [Tree.isEmpty, Tree.fields] using empty
    subst nil
    simp [empty, Tree.empty]
  · simp [empty]

/-- Writes through the array's context, each at one of its collected elements, set the fields of
those elements in turn. -/
theorem writeData_timedElements_run {b : MemoryBackend} {op : Operation} {tree : Tree}
    {c : ArrayContext} {tb : String} (st : Store) (own : c.op = op) (start : c.index = 0)
    (timed : c.timed = true) (ws : List ElementWrite) :
    ∀ {es : List (Option Tree)}, (∀ w ∈ ws, w.index < es.length) →
    (MemoryOp.performAll (ws.map fun w =>
        .writeData (.array (c.advance w.index)) w.field w.timebase w.data)).run
        (b.setAction op.uid (timedStage op tree c (.mk tb es)), st) =
      .ok () (b.setAction op.uid (timedStage op tree c (.mk tb (ws.foldl (fun es w => w.apply es) es))),
        st) := by
  -- induction on the writes; each keeps the number of collected elements
  induction ws with
  | nil => intro es _; rfl
  | cons w rest ih =>
    intro es within
    have first := @writeData_timedElement_run b op tree c tb es st own start timed w
      (within w List.mem_cons_self)
    have later := @ih (w.apply es) fun v mem => by
      simpa [ElementWrite.apply] using within v (List.mem_cons_of_mem w mem)
    rw [List.map_cons, MemoryOp.performAll_cons_run]
    simp only [MemoryOp.perform, first]
    exact later

theorem getD_map_copy (o : Option Tree) : (o.map Tree.copy).getD Tree.empty = (o.getD Tree.empty).copy := by
  cases o <;> simp

/-- One timed slice action on a committed object whose array at the context's path holds the
elements `held`: every call answers, and the array then holds them restacked with the elements
the action wrote; every other object is as it was. -/
theorem TimedWrite.run {held : List (Option Tree)} {b : MemoryBackend} {st : Store}
    {a : TimedWrite} (wf : st.WF) (opened : b.entry ≠ "") (present : st.contains b.entry = true)
    (slice : a.op.range = .slice) (writes : a.op.access ≠ .read) (own : a.context.op = a.op)
    (top : a.context.ancestors = []) (start : a.context.index = 0) (timed : a.context.timed = true)
    (within : ∀ w ∈ a.writes, w.index < a.size)
    (holds : ArrayHolds a.context.path a.context.timebase held
      ((st.get? b.entry a.op.name).getD Tree.empty)) :
    ∃ st', (MemoryOp.performAll a.calls).run (b, st) = .ok () (b.dropAction a.op.uid, st') ∧
      st'.WF ∧ st'.contains b.entry = true ∧
      ArrayHolds a.context.path a.context.timebase
        (restackElements held (a.op.access = .replace) (writtenElements a.size a.writes))
        ((st'.get? b.entry a.op.name).getD Tree.empty) ∧
      ∀ e n, ¬(e = b.entry ∧ n = a.op.name) → st'.get? e n = st.get? e n := by
  -- the action begins on a copy of the object, collects the elements apart, closes the array
  -- onto the copy and commits it
  obtain ⟨begun, beganOn⟩ : ∃ t, ((st.get? b.entry a.op.name).map Tree.copy).getD Tree.empty = t :=
    ⟨_, rfl⟩
  have started := MemoryBackend.beginAction_sliceWrite_run st opened slice writes
  rw [beganOn] at started
  have opening := @beginArray_timed_run b a.op begun a.context st own top slice timed a.size
  have filled := @writeData_timedElements_run b a.op begun a.context a.context.timebase st own
    start timed a.writes (List.replicate a.size (some Tree.empty)) (by simpa using within)
  have seen : ArrayHolds a.context.path a.context.timebase held begun := by
    rw [← beganOn, getD_map_copy]
    exact holds.copy
  obtain ⟨closedTree, closed, holds'⟩ := @endAction_timed_run b a.op begun a.context held
    (a.writes.foldl (fun es w => w.apply es) (List.replicate a.size (some Tree.empty))) st own seen
  obtain ⟨st', ended, wf', present', committed⟩ := endAction_commit_ok b a.op
    { op := a.op, tree := closedTree, write := true } wf present rfl
  have front : (MemoryOp.performAll ([.beginAction a.op, .beginArray a.context a.size] ++
      a.writes.map fun w => .writeData (.array (a.context.advance w.index)) w.field w.timebase w.data)).run
      (b, st) = .ok () (b.setAction a.op.uid (timedStage a.op begun a.context
        (.mk a.context.timebase (a.writes.foldl (fun es w => w.apply es)
          (List.replicate a.size (some Tree.empty))))), st) := by
    have twoCalls : (MemoryOp.performAll [.beginAction a.op, .beginArray a.context a.size]).run (b, st) =
        .ok () (b.setAction a.op.uid (timedStage a.op begun a.context
          (.fresh a.context.timebase a.size)), st) := by
      simp only [MemoryOp.performAll_cons_run, MemoryOp.perform, started, EStateM.run_map, opening]
      rfl
    rw [MemoryOp.performAll_append twoCalls]
    exact filled
  refine ⟨st', ?_, wf', present', ?_, fun e n other => by rw [committed e n, if_neg other]⟩
  · rw [TimedWrite.calls, MemoryOp.performAll_append front]
    simp only [MemoryOp.performAll_cons_run, MemoryOp.perform, closed, ended]
    rfl
  · rw [committed, if_pos ⟨rfl, rfl⟩, getD_committed]
    exact holds'

/-- The conditions under which a timed slice action fills the array at `path` of object `name`:
a slice write, its array opened directly under the operation at index 0 with the time base
`timebase`, and each write at one of the elements it opens. -/
structure TimedWrite.Fills (a : TimedWrite) (name path timebase : String) : Prop where
  named : a.op.name = name
  slice : a.op.range = .slice
  writes : a.op.access ≠ .read
  own : a.context.op = a.op
  top : a.context.ancestors = []
  start : a.context.index = 0
  path_eq : a.context.path = path
  timebase_eq : a.context.timebase = timebase
  timed : timebase ≠ ""
  within : ∀ w ∈ a.writes, w.index < a.size

theorem TimedWrite.Fills.contextTimed {a : TimedWrite} {name path timebase : String}
    (fills : a.Fills name path timebase) : a.context.timed = true := by
  have named := fills.timebase_eq
  simp only [ArrayContext.timebase] at named
  simp [ArrayContext.timed, ArrayLevel.timed, named, fills.timed]

/-- The elements an array holds after timed slice actions, each plain or replacing as its
operation says. -/
def restackAllElements (es : List (Option Tree)) (actions : List TimedWrite) : List (Option Tree) :=
  actions.foldl (fun es a => restackElements es (a.op.access = .replace) (writtenElements a.size a.writes)) es

/-- Timed slice actions one after another on an object whose array holds the elements `held`:
every call answers, the array then holds the elements `restackAllElements` gives, and every other
object is as it was. -/
theorem TimedWrite.runAll {name path timebase : String} (actions : List TimedWrite)
    (each : ∀ a ∈ actions, a.Fills name path timebase) :
    ∀ {held : List (Option Tree)} {b : MemoryBackend} {st : Store}, st.WF → b.entry ≠ "" →
      st.contains b.entry = true →
      ArrayHolds path timebase held ((st.get? b.entry name).getD Tree.empty) →
    ∃ b' st', (MemoryOp.performAll (actions.flatMap TimedWrite.calls)).run (b, st) =
        .ok () (b', st') ∧ b'.entry = b.entry ∧ st'.WF ∧ st'.contains b.entry = true ∧
      ArrayHolds path timebase (restackAllElements held actions)
        ((st'.get? b.entry name).getD Tree.empty) ∧
      ∀ e n, ¬(e = b.entry ∧ n = name) → st'.get? e n = st.get? e n := by
  -- induction on the actions; the invariant is the array the committed object holds
  induction actions with
  | nil =>
    intro held b st wf _ present holds
    exact ⟨b, st, rfl, rfl, wf, present, holds, fun _ _ _ => rfl⟩
  | cons a rest ih =>
    intro held b st wf opened present holds
    have fills := each a List.mem_cons_self
    have contextTimed := fills.contextTimed
    obtain ⟨named, slice, writes, own, top, start, path_eq, timebase_eq, _, within⟩ := fills
    subst named path_eq timebase_eq
    obtain ⟨st₁, ran, wf₁, present₁, holds₁, kept₁⟩ :=
      TimedWrite.run wf opened present slice writes own top start contextTimed within holds
    obtain ⟨b', st', ran', entry', wf', present', holds', kept'⟩ :=
      ih (fun v mem => each v (List.mem_cons_of_mem a mem)) (b := b.dropAction a.op.uid) wf₁ opened
        present₁ holds₁
    refine ⟨b', st', ?_, entry', wf', present', holds', fun e n other => ?_⟩
    · rw [List.flatMap_cons, MemoryOp.performAll_append ran]
      exact ran'
    · rw [kept' e n other, kept₁ e n other]

/-- Plain timed actions append the elements each wrote, in order. -/
theorem restackAllElements_plain (es : List (Option Tree)) {actions : List TimedWrite}
    (plain : ∀ a ∈ actions, a.op.access ≠ .replace) :
    restackAllElements es actions =
      es ++ (actions.map fun a => writtenElements a.size a.writes).flatten := by
  induction actions generalizing es with
  | nil => simp [restackAllElements]
  | cons a rest ih =>
    have appends : restackElements es (a.op.access = .replace) (writtenElements a.size a.writes) =
        es ++ writtenElements a.size a.writes := by
      by_cases nothing : writtenElements a.size a.writes = []
      · simp [restackElements, nothing]
      · simp [restackElements, nothing, plain a List.mem_cons_self]
    have later := ih (restackElements es (a.op.access = .replace) (writtenElements a.size a.writes))
      fun v mem => plain v (List.mem_cons_of_mem a mem)
    simp only [restackAllElements, List.foldl_cons] at later ⊢
    rw [later, appends]
    simp

/-- A replacing timed action that wrote elements takes the place of the last element held. -/
theorem restackElements_replace (es : List (Option Tree)) {new : List (Option Tree)}
    (written : new ≠ []) : restackElements es true new = es.dropLast ++ new := by
  cases es with
  | nil => simp [restackElements, written]
  | cons e rest => simp [restackElements, written]

/-- A path with no node holds no array. -/
theorem ArrayHolds.of_absent {path timebase : String} {obj : Option Tree}
    (absent : obj.bind (·.find? path) = none) : ArrayHolds path timebase [] (obj.getD Tree.empty) := by
  cases obj with
  | none => rfl
  | some t => exact absent

/-! ## Accumulation -/

/-- A scalar double is a slice of the empty shape. -/
theorem slice_scalarDouble (x : Float) : Slice .double [] (Buffer.scalarDouble x) :=
  ⟨rfl, rfl, rfl, fun _ held => by cases held; rfl⟩

end AccessLayer
