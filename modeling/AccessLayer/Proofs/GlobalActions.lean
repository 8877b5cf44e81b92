import Mathlib
import AccessLayer.Proofs.TreePlaces
import AccessLayer.Proofs.FailedBackendCalls
import AccessLayer.Proofs.SliceReads
/-!
Where the calls of a global action land. Every structure a context of an operation reads or
writes has a place in the staged tree (`Context.place`): the levels of its enclosing arrays,
each the path of the array and the index of the element. An action tracks the arrays its
contexts opened (`Action.Tracks`); for a write each such array keeps its elements in the tree at
its parent's place (`Action.Homed`), for a read it shows the elements of the tree there
(`OpenArray.ShowsIn`).

Step lemmas, one per call: a write through a positioned context sets the leaf at its place
(`Action.Homed.writeLeaf`), opening an array sets an array of empty elements at the parent's place
(`Action.Homed.beginWrite`), closing it only forgets it; a read sees the structure at the
context's place (`Action.Tracks.view`) and opening an array for a read finds its size there
(`Action.Tracks.beginRead`). The calls a backend receives after a global begin are given as
data (`StagedCall`, `ReadCall`) with the discipline they follow (`StagedCall.Nested`,
`ReadCall.Nested`): what each call changes in the staged tree is a `PlacedWrite`, and what each
read answers is read off the tree at its place.
-/

namespace AccessLayer

mutual
/-- The place of a structure of the staged tree, when every array on the way is a field of the
tree itself. -/
def StructSite.place? : StructSite → Option Place
  | .root => some []
  | .element s i => s.elementPlace? i
/-- The place of element `i` of an array, when the array is a field of the tree. -/
def ArraySite.elementPlace? : ArraySite → Nat → Option Place
  | .field h p, i => h.place?.map (· ++ [(p, i)])
  | .apart _, _ => none
end

namespace Action

theorem structAt_of_place {a : Action} : ∀ {s : StructSite} {P : Place}, s.place? = some P →
    a.structAt s = a.tree.at? P
  | .root, P, placed => by
    cases placed
    rfl
  | .element (.field h p) i, P, placed => by
    obtain ⟨Ph, placedH, rfl⟩ : ∃ Ph, h.place? = some Ph ∧ Ph ++ [(p, i)] = P := by
      simpa [StructSite.place?, ArraySite.elementPlace?] using placed
    rw [Tree.at?_concat, ← structAt_of_place placedH]
    simp only [structAt, arrayAt, Option.bind_assoc]
    congr 1
    funext E
    cases found : E.array? p <;> simp [Tree.element?, found]
  | .element (.apart _) _, _, placed => by cases placed

theorem updateStruct_of_place (a : Action) (f : Tree → Tree) : ∀ {s : StructSite} {P : Place},
    s.place? = some P → a.updateStruct f s = { a with tree := a.tree.modifyAt P f }
  | .root, P, placed => by
    cases placed
    rfl
  | .element (.field h p) i, P, placed => by
    obtain ⟨Ph, placedH, rfl⟩ : ∃ Ph, h.place? = some Ph ∧ Ph ++ [(p, i)] = P := by
      simpa [StructSite.place?, ArraySite.elementPlace?] using placed
    rw [Tree.modifyAt_concat]
    simp only [updateStruct, updateArray]
    exact updateStruct_of_place a _ placedH
  | .element (.apart _) _, _, placed => by cases placed

end Action

/-- One level of a place: the path of the array and the index of the element. -/
def ArrayLevel.step (l : ArrayLevel) : String × Nat := (l.path, l.index.toNat)

namespace ArrayContext

/-- The place of the structure the array is a field of: the levels of the enclosing arrays, from
the outermost. -/
def parentPlace (c : ArrayContext) : Place := c.ancestors.reverse.map ArrayLevel.step

/-- The place of the element the context is on. -/
def place (c : ArrayContext) : Place := c.parentPlace ++ [c.level.step]

end ArrayContext

/-- The place of the structure a context reads and writes: the root for an operation. -/
def Context.place : Context → Place
  | .array c => c.place
  | _ => []

theorem ArrayContext.place_parentContext (c : ArrayContext) :
    c.parentContext.place = c.parentPlace := by
  unfold ArrayContext.parentContext ArrayContext.parent?
  cases h : c.ancestors with
  | nil => simp [Context.place, ArrayContext.parentPlace, h]
  | cons l rest => simp [Context.place, ArrayContext.place, ArrayContext.parentPlace, h]

/-- The open arrays of an action as their contexts opened them, by identifier. -/
abbrev Opened := List (Nat × ArrayContext)

/-- Whether a context is the operation, or one of the open arrays as it was opened, at any index. -/
def Opened.Positions (o : Opened) : Context → Prop
  | .array c =>
    ∃ c₀, o.lookup c.uid = some c₀ ∧ c₀.ancestors = c.ancestors ∧ c₀.path = c.path
  | _ => True

/-- Where a write array opened by `c` keeps its elements: in the field of its path in the
structure at its parent's place, or, for a serialized write of no elements, apart and empty. -/
def OpenArray.HomedAt (oa : OpenArray) (c : ArrayContext) : Prop :=
  oa.appendTo = none ∧
    ((∃ h, oa.home = some (.field h c.path) ∧ h.place? = some c.parentPlace) ∨
      (oa.home = some (.apart c.uid) ∧ oa.apart.size = 0))

/-- The open arrays of an action are those `o` opened, each as `fits` says of it and the
context that opened it. -/
structure Action.Tracks (a : Action) (o : Opened) (fits : OpenArray → ArrayContext → Prop) :
    Prop where
  keyed : ∀ u c, o.lookup u = some c → c.uid = u
  same : ∀ u, (a.arrays.lookup u).isSome = (o.lookup u).isSome
  each : ∀ u oa c, a.arrays.lookup u = some oa → o.lookup u = some c → fits oa c

/-- The open arrays of a staged write are those `o` opened, each at home as its context says. -/
def Action.Homed (a : Action) (o : Opened) : Prop := a.Tracks o OpenArray.HomedAt


namespace Action

theorem arrayOf_of_lookup {a : Action} {c : ArrayContext} {oa : OpenArray}
    (found : a.arrays.lookup c.uid = some oa) : a.arrayOf c = .ok oa := by
  simp [arrayOf, found]

/-- The open array a positioned context goes through, with the context it was opened by. -/
theorem Tracks.opened {a : Action} {o : Opened} {fits : OpenArray → ArrayContext → Prop}
    (tracks : a.Tracks o fits) {c : ArrayContext} (positioned : o.Positions (.array c)) :
    ∃ oa c₀, a.arrays.lookup c.uid = some oa ∧ o.lookup c.uid = some c₀ ∧
      c₀.uid = c.uid ∧ c₀.ancestors = c.ancestors ∧ c₀.path = c.path ∧ fits oa c₀ := by
  obtain ⟨c₀, tracked, ancestors, path⟩ := positioned
  have held := tracks.same c.uid
  rw [tracked, Option.isSome_some, Option.isSome_iff_exists] at held
  obtain ⟨oa, found⟩ := held
  exact ⟨oa, c₀, found, tracked, tracks.keyed _ _ tracked, ancestors, path,
    tracks.each _ _ _ found tracked⟩

/-- The parent's place of the context an array was opened by, for a context positioned in it. -/
theorem parentPlace_of_ancestors {c₀ c : ArrayContext}
    (ancestors : c₀.ancestors = c.ancestors) :
    c₀.parentPlace = c.parentPlace := by
  simp [ArrayContext.parentPlace, ancestors]

/-- Writes through a positioned context land in the structure at its place, which is there. -/
theorem Homed.container_place {a : Action} {o : Opened} (homed : a.Homed o) {ctx : Context}
    (positioned : o.Positions ctx) {s : StructSite} (contained : a.container ctx = .ok s) :
    s.place? = some ctx.place ∧ (a.tree.at? ctx.place).isSome := by
  cases ctx with
  | array c =>
    obtain ⟨oa, c₀, found, -, uid, ancestors, path, -, home⟩ := Tracks.opened homed positioned
    have parent := parentPlace_of_ancestors ancestors
    simp only [Action.container, arrayOf_of_lookup found, bind, Except.bind] at contained
    rcases home with ⟨h, homeField, placed⟩ | ⟨homeApart, empty⟩
    · rw [homeField, Option.getD_some] at contained
      simp only [arrayAt, structAt_of_place placed, path] at contained
      split_ifs at contained with outside
      cases contained
      have inside : 0 ≤ c.index ∧ c.index.toNat < (((a.tree.at? c₀.parentPlace).bind
          (·.array? c.path)).map StructArray.size).getD 0 := by
        simp only [Bool.or_eq_true, decide_eq_true_eq, not_or, not_le, not_lt] at outside
        omega
      refine ⟨by simp [StructSite.place?, ArraySite.elementPlace?, placed, parent,
        Context.place, ArrayContext.place, ArrayLevel.step, ArrayContext.path,
        ArrayContext.index], ?_⟩
      show (a.tree.at? (c.parentPlace ++ [c.level.step])).isSome
      rw [← parent, Tree.at?_concat]
      cases atParent : a.tree.at? c₀.parentPlace with
      | none => simp [atParent] at inside
      | some E =>
        rw [atParent, Option.bind_some] at inside
        simpa [Tree.element?_isSome, ArrayLevel.step, ArrayContext.path, ArrayContext.index]
          using inside.2
    · rw [homeApart, Option.getD_some] at contained
      simp only [arrayAt, uid, found, Option.map_some, empty, Option.getD_some,
        Nat.cast_zero] at contained
      split_ifs at contained with outside
      simp only [Bool.or_eq_true, decide_eq_true_eq, not_or] at outside
      omega
  | operation o =>
    cases contained
    exact ⟨rfl, rfl⟩
  | entry e =>
    cases contained
    exact ⟨rfl, rfl⟩


/-- An action with no open array tracks none. -/
theorem Tracks.nil {a : Action} {fits : OpenArray → ArrayContext → Prop}
    (closed : a.arrays = []) : a.Tracks [] fits := by
  refine ⟨fun u c tracked => ?_, fun u => ?_, fun u oa c found => ?_⟩
  · cases tracked
  · simp [closed]
  · simp [closed] at found

theorem lookup_register (a : Action) (c : ArrayContext) (oa : OpenArray) (u : Nat) :
    (a.register c oa).arrays.lookup u = if u = c.uid then some oa else a.arrays.lookup u := by
  simp only [register]
  rw [lookup_cons_ite, lookup_filter_ne]
  by_cases same : u = c.uid <;> simp [same]

theorem lookup_unregister (a : Action) (k u : Nat) :
    (a.unregister k).arrays.lookup u = if u = k then none else a.arrays.lookup u := by
  simp only [unregister]
  rw [lookup_filter_ne]

theorem Tracks.withTree {a : Action} {o : Opened} {fits : OpenArray → ArrayContext → Prop}
    (tracks : a.Tracks o fits) (t : Tree) : ({ a with tree := t } : Action).Tracks o fits :=
  ⟨tracks.keyed, tracks.same, tracks.each⟩

/-- Registering an array opened by `c` keeps the open arrays tracked, `c` with them. -/
theorem Tracks.register {a : Action} {o : Opened} {fits : OpenArray → ArrayContext → Prop}
    (tracks : a.Tracks o fits) {c : ArrayContext} {oa : OpenArray} (fitting : fits oa c) :
    (a.register c oa).Tracks ((c.uid, c) :: o.filter (·.1 ≠ c.uid)) fits := by
  refine ⟨fun u c' tracked => ?_, fun u => ?_, fun u oa' c' found tracked => ?_⟩
  · rw [lookup_cons_ite, lookup_filter_ne] at tracked
    by_cases same : u = c.uid
    · rw [if_pos same] at tracked
      cases tracked
      exact same.symm
    · rw [if_neg same, if_neg same] at tracked
      exact tracks.keyed u c' tracked
  · rw [lookup_register, lookup_cons_ite, lookup_filter_ne]
    by_cases same : u = c.uid
    · simp [same]
    · simp [same, tracks.same u]
  · rw [lookup_register] at found
    rw [lookup_cons_ite, lookup_filter_ne] at tracked
    by_cases same : u = c.uid
    · rw [if_pos same] at found tracked
      cases found
      cases tracked
      exact fitting
    · rw [if_neg same] at found
      rw [if_neg same, if_neg same] at tracked
      exact tracks.each u oa' c' found tracked

/-- Closing an array keeps the other open arrays tracked. -/
theorem Tracks.unregister {a : Action} {o : Opened} {fits : OpenArray → ArrayContext → Prop}
    (tracks : a.Tracks o fits) (k : Nat) :
    (a.unregister k).Tracks (o.filter (·.1 ≠ k)) fits := by
  refine ⟨fun u c' tracked => ?_, fun u => ?_, fun u oa' c' found tracked => ?_⟩
  · rw [lookup_filter_ne] at tracked
    split_ifs at tracked
    exact tracks.keyed u c' tracked
  · rw [lookup_unregister, lookup_filter_ne]
    split_ifs
    · rfl
    · exact tracks.same u
  · rw [lookup_unregister] at found
    rw [lookup_filter_ne] at tracked
    split_ifs at found tracked
    exact tracks.each u oa' c' found tracked

/-- A staged write of a global operation through a positioned context sets the leaf at the
context's place, which is there. -/
theorem Homed.writeLeaf {a a' : Action} {o : Opened} (homed : a.Homed o)
    (global : a.op.range = .global) {ctx : Context} (positioned : o.Positions ctx)
    {field timebase : String} {data : Buffer}
    (written : a.writeLeaf ctx field timebase data = .ok a') :
    (PlacedWrite.leaf ctx.place field ⟨data.copy, timebase⟩).Lands a.tree ∧
      a' = { a with
        tree := (PlacedWrite.leaf ctx.place field ⟨data.copy, timebase⟩).apply a.tree } := by
  unfold Action.writeLeaf at written
  cases contained : a.container ctx with
  | error f => simp [contained, Except.faulting, Except.mapError, bind, Except.bind] at written
  | ok s =>
    obtain ⟨placed, lands⟩ := homed.container_place positioned contained
    simp only [contained, Except.faulting, Except.mapError, bind, Except.bind, global,
      show RangeMode.global ≠ .slice by decide, decide_false, Bool.false_and, Bool.false_eq_true,
      if_false, pure, Except.pure, Except.ok.injEq] at written
    subst written
    exact ⟨lands, updateStruct_of_place a _ placed⟩

/-- Opening an array in a global write sets, at the parent's place, an array of `size` empty
elements, and registers the array at home there. -/
theorem Homed.beginWrite {a a' : Action} {o : Opened} (homed : a.Homed o)
    (global : a.op.range = .global) {c : ArrayContext} (positioned : o.Positions c.parentContext)
    {size : Int} (opened : a.beginWrite c size = .ok a') :
    (PlacedWrite.array c.parentPlace c.path c.timebase size).Lands a.tree ∧
      ∃ h, h.place? = some c.parentPlace ∧
        a' = ({ a with
            tree := (PlacedWrite.array c.parentPlace c.path c.timebase size).apply a.tree } :
          Action).register c { context := c, home := some (.field h c.path) } := by
  unfold Action.beginWrite at opened
  cases contained : a.container c.parentContext with
  | error f => simp [contained, bind, Except.bind] at opened
  | ok s =>
    obtain ⟨placed, lands⟩ := homed.container_place positioned contained
    rw [ArrayContext.place_parentContext] at placed lands
    simp only [contained, bind, Except.bind, global, show RangeMode.global ≠ .slice by decide,
      decide_false, Bool.false_and, Bool.false_eq_true, if_false, pure, Except.pure,
      Except.ok.injEq] at opened
    subst opened
    exact ⟨lands, s, placed, by rw [updateStruct_of_place a _ placed]; rfl⟩

/-- Closing an array of a staged write only forgets it. -/
theorem Homed.endArray {a a' : Action} {o : Opened} (homed : a.Homed o) {c : ArrayContext}
    (closed : a.endArray c = .ok a') : a' = a.unregister c.uid := by
  unfold Action.endArray at closed
  cases found : a.arrays.lookup c.uid with
  | none => simp [arrayOf, found, bind, Except.bind] at closed
  | some oa =>
    have tracked := Tracks.same homed c.uid
    rw [found, Option.isSome_some, eq_comm, Option.isSome_iff_exists] at tracked
    obtain ⟨c₀, tracked⟩ := tracked
    have appendTo := (homed.each _ _ _ found tracked).1
    simp only [arrayOf_of_lookup found, bind, Except.bind, appendTo, pure, Except.pure,
      Except.ok.injEq] at closed
    exact closed.symm

end Action

/-! ## Reads at places -/

namespace Tree

/-- What a read of the field `g` of the structure at `Q` answers: a copy of its leaf's data. -/
def readAt (T : Tree) (Q : Place) (g : String) : Option Buffer :=
  (T.seenAt Q g).leaf.map (·.data.copy)

/-- The size a read finds for the array at `p` in the structure at `Q`: none counts as zero. -/
def sizeAt (T : Tree) (Q : Place) (p : String) : Nat := (T.seenAt Q p).size.getD 0

/-- The views of the elements of the array at `p` in the structure at `P`. -/
def viewsAt (T : Tree) (P : Place) (p : String) : List View :=
  ((T.at? P).map fun E => (Action.elementViews { primary := E } p).2).getD []

theorem seenAt_of_at {T E : Tree} {Q : Place} (found : T.at? Q = some E) (g : String) :
    T.seenAt Q g = E.seen g := by
  simp [seenAt, found]

theorem leaf_seen (E : Tree) (g : String) : (E.seen g).leaf = E.leaf? g := by
  unfold seen leaf?
  cases E.find? g <;> rfl

theorem size_seen (E : Tree) (p : String) :
    (E.seen p).size = (E.array? p).map StructArray.size := by
  unfold seen array?
  cases E.find? p <;> rfl

end Tree

/-- A read array opened by `c` shows the elements of its array in `T`, at its parent's place. -/
def OpenArray.ShowsIn (T : Tree) (oa : OpenArray) (c : ArrayContext) : Prop :=
  oa.home = none ∧ oa.views = T.viewsAt c.parentPlace c.path

/-- Whether the structure at a context's place is in `T`, its index not negative. -/
def Context.Inside (T : Tree) : Context → Prop
  | .array c => 0 ≤ c.index ∧ (T.at? c.place).isSome
  | _ => True

namespace Action

/-- The plain view of a structure reads a copy of each leaf. -/
theorem readLeaf_plain (E : Tree) (g : String) (blending : Bool) :
    readLeaf { primary := E } g blending = .ok ((E.leaf? g).map (·.data.copy)) := by
  cases held : E.leaf? g with
  | none => simp [readLeaf, held]
  | some l => exact readLeaf_primary blending held

theorem length_elementViews (E : Tree) (p : String) :
    (elementViews { primary := E } p).2.length = ((E.array? p).map StructArray.size).getD 0 := by
  cases found : E.array? p with
  | none => simp [elementViews, found]
  | some arr => simp [elementViews_primary found, StructArray.size]

/-- A read through a positioned context inside `T` sees the structure at the context's place. -/
theorem Tracks.view {a : Action} {o : Opened} {T : Tree}
    (tracks : a.Tracks o (OpenArray.ShowsIn T)) (tree : a.tree = T) {ctx : Context}
    (positioned : o.Positions ctx) (inside : ctx.Inside T) :
    ∃ E, T.at? ctx.place = some E ∧ a.view ctx = .ok { primary := E } := by
  cases ctx with
  | array c =>
    obtain ⟨oa, c₀, found, -, -, ancestors, path, home, views⟩ := tracks.opened positioned
    obtain ⟨nonneg, present⟩ := inside
    obtain ⟨E, atPlace⟩ := Option.isSome_iff_exists.1 present
    have atPlace' : (T.at? (c.parentPlace ++ [(c.path, c.index.toNat)])) = some E := atPlace
    rw [Tree.at?_concat] at atPlace'
    obtain ⟨E', atParent, element⟩ := Option.bind_eq_some_iff.1 atPlace'
    rw [Tree.element?, Option.map_eq_some_iff] at element
    obtain ⟨e, held, rfl⟩ := element
    obtain ⟨arr, arrayFound, elementFound⟩ := Option.bind_eq_some_iff.1 held
    refine ⟨_, atPlace, ?_⟩
    have shown : oa.views = arr.elements.map fun e => { primary := e.getD Tree.empty } := by
      rw [views, parentPlace_of_ancestors ancestors, path, Tree.viewsAt, atParent, Option.map_some,
        Option.getD_some, elementViews_primary arrayFound]
    simp [Action.view, arrayOf_of_lookup found, home, shown, elementFound, bind, Except.bind, pure,
      Except.pure, show ¬ c.index < 0 by omega]
  | operation op =>
    exact ⟨T, rfl, by rw [← tree]; rfl⟩
  | entry e =>
    exact ⟨T, rfl, by rw [← tree]; rfl⟩

/-- Opening an array for a read below a positioned context inside `T` finds the size of the
array there, and registers its elements' views. -/
theorem Tracks.beginRead {a : Action} {o : Opened} {T : Tree}
    (tracks : a.Tracks o (OpenArray.ShowsIn T)) (tree : a.tree = T) {c : ArrayContext}
    (positioned : o.Positions c.parentContext) (inside : c.parentContext.Inside T) :
    a.beginRead c = .ok (T.sizeAt c.parentPlace c.path,
      a.register c { context := c, views := T.viewsAt c.parentPlace c.path }) := by
  obtain ⟨E, atParent, viewed⟩ := tracks.view tree positioned inside
  rw [ArrayContext.place_parentContext] at atParent
  simp [Action.beginRead, viewed, bind, Except.bind, pure, Except.pure, Tree.viewsAt, atParent,
    Tree.sizeAt, Tree.seenAt_of_at atParent, Tree.size_seen, length_elementViews]

end Action

/-! ## Calls of a global write and of a global read -/

/-- The action of a global write of `op` staging `T`, with the open arrays `o` at home. -/
structure Action.StagesGlobal (a : Action) (op : Operation) (o : Opened) (T : Tree) : Prop where
  own : a.op = op
  writes : a.write = true
  homed : a.Homed o
  tree : a.tree = T

/-- The action of a global read of `op` on `T`, with the open arrays `o` showing `T`. -/
structure Action.ReadsGlobal (a : Action) (op : Operation) (o : Opened) (T : Tree) : Prop where
  own : a.op = op
  reads : a.write = false
  shows : a.Tracks o (OpenArray.ShowsIn T)
  tree : a.tree = T

/-- Whether a context belongs to an operation: the operation itself, or one of its arrays. -/
def Context.Of (op : Operation) : Context → Prop
  | .operation o => o.uid = op.uid
  | .array c => c.op.uid = op.uid
  | .entry _ => False

/-- Whether each of a sequence of calls fits the open arrays that the calls before it left,
starting from `o`: `fits` says when a call fits, `opens` what it leaves open. -/
def Opened.Follows {κ : Type} (fits : Opened → κ → Prop) (opens : Opened → κ → Opened) :
    Opened → List κ → Prop
  | _, [] => True
  | o, k :: rest => fits o k ∧ Follows fits opens (opens o k) rest

/-- A call of a global write after its begin, as a backend receives it. -/
inductive StagedCall where
  | write (ctx : Context) (field timebase : String) (data : Buffer)
  | openArray (c : ArrayContext) (size : Int)
  | closeArray (c : ArrayContext)
  | delete (path : String)

namespace StagedCall

/-- The open arrays after the call. -/
def opens (o : Opened) : StagedCall → Opened
  | openArray c _ => (c.uid, c) :: o.filter (·.1 ≠ c.uid)
  | closeArray c => o.filter (·.1 ≠ c.uid)
  | _ => o

/-- Whether the call goes through the operation `op`, and through its open arrays as they were
opened. -/
def Fits (op : Operation) (o : Opened) : StagedCall → Prop
  | write ctx _ _ _ => ctx.Of op ∧ o.Positions ctx
  | openArray c _ => c.op.uid = op.uid ∧ o.Positions c.parentContext
  | closeArray c => c.op.uid = op.uid
  | delete _ => True

/-- Whether every call of a global write of `op` goes through its open arrays as they were
opened. -/
def Nested (op : Operation) : Opened → List StagedCall → Prop :=
  Opened.Follows (fun o call => call.Fits op o) opens

/-- The change a call makes to the staged tree. A memory backend places an array of no elements
and deletes paths; a serialized backend leaves the tree as it is for both. -/
def placed (memory : Bool) : StagedCall → Option PlacedWrite
  | write ctx field timebase data => some (.leaf ctx.place field ⟨data.copy, timebase⟩)
  | openArray c size =>
    if memory || 0 < size then some (.array c.parentPlace c.path c.timebase size) else none
  | closeArray _ => none
  | delete path => if memory then some (.delete path) else none

/-- The changes a sequence of calls makes to the staged tree. -/
def placedAll (memory : Bool) (calls : List StagedCall) : List PlacedWrite :=
  calls.filterMap (placed memory)

theorem placedAll_cons (memory : Bool) (call : StagedCall) (rest : List StagedCall) :
    placedAll memory (call :: rest) = (call.placed memory).toList ++ placedAll memory rest := by
  simp only [placedAll, List.filterMap_cons]
  cases call.placed memory <;> rfl


end StagedCall

/-- A call of a global read after its begin: a field read, or an array opened. -/
inductive ReadCall where
  | read (ctx : Context) (field timebase : String)
  | openArray (c : ArrayContext) (size : Int)

namespace ReadCall

/-- The open arrays after the call. -/
def opens (o : Opened) : ReadCall → Opened
  | read _ _ _ => o
  | openArray c _ => (c.uid, c) :: o.filter (·.1 ≠ c.uid)

/-- Whether the call goes through the read `op` and its open arrays as they were opened, at a
place that `T` holds. -/
def Fits (op : Operation) (T : Tree) (o : Opened) : ReadCall → Prop
  | read ctx _ _ => ctx.Of op ∧ o.Positions ctx ∧ ctx.Inside T
  | openArray c _ => c.op.uid = op.uid ∧ o.Positions c.parentContext ∧ c.parentContext.Inside T

/-- Whether every call of a global read of `T` fits the arrays open before it. -/
def Nested (op : Operation) (T : Tree) : Opened → List ReadCall → Prop :=
  Opened.Follows (fun o call => call.Fits op T o) opens

/-- What a call answers, read off `T`: a field's data, or an array's size. -/
def answer (T : Tree) : ReadCall → Option Buffer ⊕ Int
  | read ctx field _ => .inl (T.readAt ctx.place field)
  | openArray c _ => .inr (T.sizeAt c.parentPlace c.path)

end ReadCall

end AccessLayer
