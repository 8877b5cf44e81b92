import Mathlib
import AccessLayer.Proofs.SliceAccumulation
/-!
Places in a data object tree. A place is the way down from the root: at each level the path of
an array of structures and the index of one of its elements. `Tree.at?` is the structure at a
place and `Tree.modifyAt` changes it; `Tree.seenAt` is what reads see of one field of that
structure (`Seen`): whether it is there, its leaf, and the number of elements of its array.

A staged write sets the whole node of one field of the structure at a place, to a leaf or to an
array of empty elements, or removes the fields of the root under a path (`PlacedWrite`). Main
statement, `PlacedWrite.seenAt_applyAll`: along a sequence of writes that land, every field is
as the last write touching it left it (`PlacedWrite.effect`, `PlacedWrite.seenAfter_eq_last`). A
write at the field itself leaves its leaf or its array; a write at the field of an enclosing
array, or a deletion of a path above, leaves nothing; a field that no write touches is as it was.
Trees whose fields each hold exactly one of a leaf and an array (`Tree.Exclusive`) stay so under
such writes, and read the same after a copy (`Tree.seenAt_copy`).
-/

namespace AccessLayer

/-- A position in a tree: from the root down, the path of an array of structures and the index
of one of its elements, level by level. -/
abbrev Place := List (String × Nat)

/-- What reads see of one field of a structure: whether the field is there, its leaf, and the
number of elements of its array of structures. -/
structure Seen where
  held : Bool
  leaf : Option Leaf
  size : Option Nat

namespace Seen

/-- A field that is not there. -/
def nothing : Seen := ⟨false, none, none⟩

/-- The field as a copy of the tree holds it. -/
def copy (s : Seen) : Seen := { s with leaf := s.leaf.map fun l => { l with data := l.data.copy } }

/-- Whether the field, where it is there, holds exactly one of a leaf and an array. -/
def Exclusive (s : Seen) : Prop :=
  s.held = (s.leaf.isSome || s.size.isSome) ∧ (s.leaf = none ∨ s.size = none)

@[simp] theorem copy_nothing : nothing.copy = nothing := rfl

theorem exclusive_nothing : nothing.Exclusive := ⟨rfl, .inl rfl⟩

end Seen

/-- What reads see of a field held by a node. -/
def Node.seen (n : Node) : Seen := ⟨true, n.leaf, n.array.map StructArray.size⟩

/-- The node a copy keeps: the leaf copied, or else the array copied; a node holding neither is
dropped. -/
def Node.copy? : Node → Option Node
  | .mk (some l) _ => some (.ofLeaf { l with data := l.data.copy })
  | .mk none (some a) => some (.ofArray a.copy)
  | .mk none none => none

namespace Tree

/-- Element `i` of the array at `p`, an absent element as an empty structure. -/
def element? (t : Tree) (p : String) (i : Nat) : Option Tree :=
  ((t.array? p).bind fun arr => arr.elements[i]?).map (·.getD empty)

/-- The structure at a place, if every array on the way holds the element. -/
def at? : Tree → Place → Option Tree
  | t, [] => some t
  | t, (p, i) :: rest => (t.element? p i).bind (·.at? rest)

/-- The tree with the structure at a place changed by `f`; where the place is missing nothing
changes. -/
def modifyAt : Tree → Place → (Tree → Tree) → Tree
  | t, [], f => f t
  | t, (p, i) :: rest, f => t.modifyArray p fun arr => arr.modifyElement i fun e => e.modifyAt rest f

/-- What reads see of the field `g` of a structure. -/
def seen (t : Tree) (g : String) : Seen := ((t.find? g).map Node.seen).getD .nothing

/-- What reads see of the field `g` of the structure at a place; nothing where the place is
missing. -/
def seenAt (t : Tree) (P : Place) (g : String) : Seen := ((t.at? P).map (·.seen g)).getD .nothing

/-- Whether deleting `path` removes the root field `k`: the empty path clears the tree. -/
def removes (path k : String) : Bool := path = "" || isUnder path k

/-- Every field of every structure holds exactly one of a leaf and an array. -/
def Exclusive (t : Tree) : Prop := ∀ P g, (t.seenAt P g).Exclusive

end Tree

/-! ## Writes at places -/

/-- Where the field `g` of the structure at `Q` stands from the field `f` of the structure at
`P`: it is that field, it lies within that field's array, or it is apart from it. -/
inductive Reach where
  | same
  | within
  | apart

/-- What a write that leaves `s` at a field leaves at a field in the given standing from it:
`s` at the field itself, nothing within its array, and no change apart from it. -/
def Reach.leaves : Reach → Seen → Option Seen
  | .same, s => some s
  | .within, _ => some .nothing
  | .apart, _ => none

/-- The standing of the field `g` at `Q` from the field `f` at `P`. -/
def Place.reach : Place → String → Place → String → Reach
  | [], f, [], g => if g = f then .same else .apart
  | [], f, (h, _) :: _, _ => if h = f then .within else .apart
  | _ :: _, _, [], _ => .apart
  | x :: P, f, y :: Q, g => if y = x then Place.reach P f Q g else .apart

/-- The root field that the field `g` at `Q` lies under. -/
def Place.rootField : Place → String → String
  | [], g => g
  | (h, _) :: _, _ => h

/-- A change of a staged tree: a leaf set at a field of the structure at a place, an array of
`size` empty elements set there, or the root fields under a path deleted. -/
inductive PlacedWrite where
  | leaf (place : Place) (field : String) (l : Leaf)
  | array (place : Place) (path timebase : String) (size : Int)
  | delete (path : String)

namespace PlacedWrite

/-- The staged tree after the write. -/
def apply : PlacedWrite → Tree → Tree
  | leaf P f l, t => t.modifyAt P (·.setLeaf f l)
  | array P p tb size, t => t.modifyAt P (·.setArray p (.fresh tb size))
  | delete p, t => (t.delete p).1

/-- Whether the write lands: the structure it sets a field of is there. -/
def Lands : PlacedWrite → Tree → Prop
  | leaf P _ _, t | array P _ _ _, t => (t.at? P).isSome
  | delete _, _ => True

/-- What the write leaves at the field `g` of the structure at `Q`, if it touches that field. -/
def effect : PlacedWrite → Place → String → Option Seen
  | leaf P f l, Q, g => (Place.reach P f Q g).leaves ⟨true, some l, none⟩
  | array P p _ size, Q, g => (Place.reach P p Q g).leaves ⟨true, none, some size.toNat⟩
  | delete p, Q, g => if Tree.removes p (Place.rootField Q g) then some .nothing else none

/-- Whether each write of a sequence lands on the tree the writes before it left. -/
def Landed : List PlacedWrite → Tree → Prop
  | [], _ => True
  | w :: ws, t => w.Lands t ∧ Landed ws (w.apply t)

/-- The staged tree after a sequence of writes. -/
def applyAll (ws : List PlacedWrite) (t : Tree) : Tree := ws.foldl (fun t w => w.apply t) t

/-- What the field `g` of the structure at `Q` holds after the writes `ws`, from `s`: each write
that touches it sets it. -/
def seenAfter (ws : List PlacedWrite) (Q : Place) (g : String) (s : Seen) : Seen :=
  ws.foldl (fun s w => (w.effect Q g).getD s) s

end PlacedWrite

namespace StructArray

@[simp] theorem elements_modifyElement (arr : StructArray) (i : Nat) (f : Tree → Tree) :
    (arr.modifyElement i f).elements = arr.elements.modify i fun e => some (f (e.getD Tree.empty)) :=
  rfl

@[simp] theorem size_modifyElement (arr : StructArray) (i : Nat) (f : Tree → Tree) :
    (arr.modifyElement i f).size = arr.size := by
  simp [size]

@[simp] theorem elements_fresh (timebase : String) (size : Int) :
    (fresh timebase size).elements = List.replicate size.toNat (some Tree.empty) := rfl

@[simp] theorem size_fresh (timebase : String) (size : Int) :
    (fresh timebase size).size = size.toNat := by
  simp [StructArray.size]

theorem size_copy (arr : StructArray) : arr.copy.size = arr.size := by
  obtain ⟨tb, es⟩ := arr
  simp [copy, size, elements, length_copyElements]

end StructArray

namespace Tree

/-! ## Fields of a node -/

theorem find?_set (t : Tree) (p : String) (n : Node) (q : String) :
    (t.set p n).find? q = if q = p then some n else t.find? q := by
  simp [set, find?, fields, Keyed.lookup_insert]

theorem seen_set (t : Tree) (p : String) (n : Node) (q : String) :
    (t.set p n).seen q = if q = p then n.seen else t.seen q := by
  by_cases same : q = p <;> simp [seen, find?_set, same]

theorem array?_set_ne (t : Tree) {p q : String} (n : Node) (other : q ≠ p) :
    (t.set p n).array? q = t.array? q := by
  simp [array?, find?_set, other]

theorem array?_modifyArray (t : Tree) (p : String) (f : StructArray → StructArray) (q : String) :
    (t.modifyArray p f).array? q = if q = p then (t.array? p).map f else t.array? q := by
  unfold modifyArray
  split
  · rename_i l arr found
    by_cases same : q = p
    · subst same
      simp [array?, found, Node.array]
    · simp [array?, find?_set, same]
  · rename_i unarrayed
    by_cases same : q = p
    · subst same
      -- the path holds no array, so there is nothing to change
      cases found : t.find? q with
      | none => simp [array?, found]
      | some n =>
        obtain ⟨l, arr⟩ := n
        cases arr with
        | none => simp [array?, found, Node.array]
        | some arr => exact absurd found (unarrayed l arr)
    · simp [same]

/-- Changing the elements of an array keeps every field there, with its leaf and its size. -/
theorem seen_modifyArray (t : Tree) (p : String) (i : Nat) (f : Tree → Tree) (g : String) :
    (t.modifyArray p fun arr => arr.modifyElement i f).seen g = t.seen g := by
  unfold modifyArray
  split
  · rename_i l arr found
    by_cases same : g = p
    · subst same
      simp [seen, found, Node.seen, Node.leaf, Node.array]
    · simp [seen, find?_set, same]
  · rfl

/-! ## Elements and places -/

@[simp] theorem at?_nil (t : Tree) : t.at? [] = some t := rfl

theorem at?_cons (t : Tree) (p : String) (i : Nat) (rest : Place) :
    t.at? ((p, i) :: rest) = (t.element? p i).bind (·.at? rest) := rfl

theorem at?_append (t : Tree) (P Q : Place) : t.at? (P ++ Q) = (t.at? P).bind (·.at? Q) := by
  induction P generalizing t with
  | nil => rfl
  | cons x rest ih =>
    obtain ⟨p, i⟩ := x
    simp only [List.cons_append, at?_cons, Option.bind_assoc, ih]

theorem at?_concat (t : Tree) (P : Place) (p : String) (i : Nat) :
    t.at? (P ++ [(p, i)]) = (t.at? P).bind (·.element? p i) := by
  rw [at?_append]
  congr 1
  funext s
  simp [at?_cons]

/-- An element is there exactly when its index is below the size of the array. -/
theorem element?_isSome (t : Tree) (p : String) (i : Nat) :
    (t.element? p i).isSome ↔ i < ((t.array? p).map StructArray.size).getD 0 := by
  cases found : t.array? p with
  | none => simp [element?, found]
  | some arr => simp [element?, found, StructArray.size]

theorem element?_modifyArray (t : Tree) (p : String) (i : Nat) (f : Tree → Tree) (q : String)
    (j : Nat) :
    (t.modifyArray p fun arr => arr.modifyElement i f).element? q j =
      if q = p ∧ j = i then (t.element? p i).map f else t.element? q j := by
  by_cases onPath : q = p
  · subst onPath
    by_cases onIndex : j = i
    · subst onIndex
      cases found : t.array? q <;> simp [element?, array?_modifyArray, found, Function.comp_def]
    · cases found : t.array? q <;> simp [element?, array?_modifyArray, found, Ne.symm onIndex, onIndex]
  · simp [element?, array?_modifyArray, onPath]

theorem modifyAt_append (t : Tree) (P Q : Place) (f : Tree → Tree) :
    t.modifyAt (P ++ Q) f = t.modifyAt P (·.modifyAt Q f) := by
  induction P generalizing t with
  | nil => rfl
  | cons x rest ih =>
    obtain ⟨p, i⟩ := x
    simp only [List.cons_append, modifyAt, ih]

theorem modifyAt_concat (t : Tree) (P : Place) (p : String) (i : Nat) (f : Tree → Tree) :
    t.modifyAt (P ++ [(p, i)]) f = t.modifyAt P (·.modifyArray p (·.modifyElement i f)) := by
  rw [modifyAt_append]
  rfl

/-! ## What reads see -/

@[simp] theorem seenAt_nil (t : Tree) (g : String) : t.seenAt [] g = t.seen g := rfl

theorem seenAt_cons (t : Tree) (p : String) (i : Nat) (rest : Place) (g : String) :
    t.seenAt ((p, i) :: rest) g = ((t.element? p i).map (·.seenAt rest g)).getD .nothing := by
  unfold seenAt
  rw [at?_cons]
  cases t.element? p i <;> rfl

@[simp] theorem seenAt_empty (P : Place) (g : String) : empty.seenAt P g = .nothing := by
  cases P with
  | nil => rfl
  | cons x rest =>
    obtain ⟨p, i⟩ := x
    rfl

/-! ## Setting a field at a place -/

theorem element?_set_self (t : Tree) (p : String) (n : Node) (j : Nat) :
    (t.set p n).element? p j = ((n.array.bind fun arr => arr.elements[j]?)).map (·.getD empty) := by
  simp [element?, array?]

/-- Within a node whose array elements are all empty, nothing is seen. -/
theorem seenAt_set_within (t : Tree) (p : String) {n : Node}
    (hollow : ∀ arr, n.array = some arr → ∀ e ∈ arr.elements, e.getD empty = empty) (j : Nat)
    (R : Place) (g : String) : (t.set p n).seenAt ((p, j) :: R) g = .nothing := by
  rw [seenAt_cons, element?_set_self]
  cases held : n.array with
  | none => rfl
  | some arr =>
    cases found : arr.elements[j]? with
    | none => simp [found]
    | some e =>
      have empty : e.getD empty = empty := hollow arr held e (List.mem_of_getElem? found)
      simp [found, empty]

/-- Setting the node of the field `f` of the structure at `P`, a node whose array elements are
all empty: that field then holds the node, nothing is seen within its array, and every field
apart from it is as it was. -/
theorem seenAt_modifyAt_set {P : Place} {t : Tree} (lands : (t.at? P).isSome) (f : String)
    (n : Node) (hollow : ∀ arr, n.array = some arr → ∀ e ∈ arr.elements, e.getD empty = empty)
    (Q : Place) (g : String) :
    (t.modifyAt P (·.set f n)).seenAt Q g =
      ((Place.reach P f Q g).leaves n.seen).getD (t.seenAt Q g) := by
  -- down the place being changed, against the place being looked at
  induction P generalizing t Q with
  | nil =>
    cases Q with
    | nil =>
      by_cases same : g = f <;> simp [modifyAt, Place.reach, same, seen_set, Reach.leaves]
    | cons y R =>
      obtain ⟨h, j⟩ := y
      by_cases same : h = f
      · subst same
        simp [modifyAt, Place.reach, seenAt_set_within t h hollow, Reach.leaves]
      · simp [modifyAt, Place.reach, same, seenAt_cons, element?, array?_set_ne, Reach.leaves]
  | cons x P ih =>
    obtain ⟨p, i⟩ := x
    obtain ⟨E, found, landsE⟩ : ∃ E, t.element? p i = some E ∧ (E.at? P).isSome := by
      rw [at?_cons] at lands
      cases held : t.element? p i with
      | none => simp [held] at lands
      | some E => exact ⟨E, rfl, by simpa [held] using lands⟩
    cases Q with
    | nil => simp [modifyAt, Place.reach, seen_modifyArray, Reach.leaves]
    | cons y R =>
      obtain ⟨h, j⟩ := y
      rw [modifyAt, seenAt_cons, element?_modifyArray]
      by_cases here : h = p ∧ j = i
      · obtain ⟨rfl, rfl⟩ := here
        simp [found, ih landsE, Place.reach, seenAt_cons]
      · have differs : ¬(h, j) = (p, i) := by simpa using here
        simp only [here, if_false, Place.reach, differs, Reach.leaves, Option.getD_none]
        rw [seenAt_cons]

/-! ## Deleting under a path -/

theorem lookup_filter_not {α : Type} (drop : String → Bool) (l : List (String × α)) (k : String) :
    (l.filter fun e => !drop e.1).lookup k = if drop k then none else l.lookup k := by
  induction l with
  | nil => simp
  | cons e rest ih =>
    obtain ⟨k', v⟩ := e
    by_cases here : k = k'
    · subst here
      cases dropped : drop k <;> simp [dropped, ih]
    · cases dropped : drop k' <;> simp [dropped, lookup_cons_ite, here, ih]

theorem find?_delete (t : Tree) {path : String} (named : path ≠ "") (k : String) :
    (t.delete path).1.find? k = if isUnder path k then none else t.find? k := by
  simp only [delete, named, if_false, find?, fields]
  exact lookup_filter_not (isUnder path) t.fields k

/-- A deletion removes the fields under its path, and with them everything within their arrays;
the rest stays. -/
theorem seenAt_delete (t : Tree) (path : String) (Q : Place) (g : String) :
    (t.delete path).1.seenAt Q g =
      if removes path (Place.rootField Q g) then .nothing else t.seenAt Q g := by
  by_cases named : path = ""
  · simp [delete, named, removes]
  · have removing : removes path = isUnder path := by funext k; simp [removes, named]
    rw [removing]
    cases Q with
    | nil =>
      by_cases under : isUnder path g <;>
        simp [Place.rootField, seen, find?_delete t named, under]
    | cons y R =>
      obtain ⟨h, j⟩ := y
      by_cases under : isUnder path h <;>
        simp [Place.rootField, seenAt_cons, element?, array?, find?_delete t named, under]

/-! ## Copies -/

/-- A copy finds at a path the copy of the node found there, unless that node holds nothing. -/
theorem find?_copy_of_found {t : Tree} {p : String} {n : Node} (found : t.find? p = some n)
    (kept : n.copy?.isSome) : t.copy.find? p = n.copy? := by
  obtain ⟨fs⟩ := t
  have stored : fs.lookup p = some n := found
  obtain ⟨lo, ao⟩ := n
  rcases lo with _ | l <;> rcases ao with _ | a
  · simp [Node.copy?] at kept
  all_goals
    rw [copy, find?, fields, lookup_copyFields_of_kept stored (by simp [copyFields])]
    simp [copyFields, Node.copy?]

theorem seen_copy (t : Tree) (g : String) (exclusive : (t.seen g).Exclusive) :
    t.copy.seen g = (t.seen g).copy := by
  cases found : t.find? g with
  | none => simp [seen, found, find?_copy_none found]
  | some n =>
    obtain ⟨lo, ao⟩ := n
    simp only [seen, found] at exclusive
    rcases lo with _ | l <;> rcases ao with _ | a
    · simp [Node.seen, Seen.Exclusive, Node.leaf, Node.array] at exclusive
    · rw [seen, find?_copy_of_found found (by simp [Node.copy?])]
      simp [seen, found, Node.copy?, Node.seen, Node.ofArray, Node.leaf, Node.array, Seen.copy,
        StructArray.size_copy]
    · rw [seen, find?_copy_of_found found (by simp [Node.copy?])]
      simp [seen, found, Node.copy?, Node.seen, Node.ofLeaf, Node.leaf, Node.array, Seen.copy]
    · simp [Node.seen, Seen.Exclusive, Node.leaf, Node.array] at exclusive

theorem element?_copy (t : Tree) (p : String) (i : Nat) (exclusive : (t.seen p).Exclusive) :
    t.copy.element? p i = (t.element? p i).map copy := by
  cases found : t.find? p with
  | none => simp [element?, array?, found, find?_copy_none found]
  | some n =>
    obtain ⟨lo, ao⟩ := n
    simp only [seen, found] at exclusive
    rcases lo with _ | l <;> rcases ao with _ | a
    · simp [Node.seen, Seen.Exclusive, Node.leaf, Node.array] at exclusive
    · obtain ⟨tb, es⟩ := a
      rw [element?, array?, find?_copy_of_found found (by simp [Node.copy?])]
      simp [element?, array?, found, Node.copy?, Node.ofArray, Node.array, StructArray.copy,
        StructArray.elements, copyElements_eq_map, Function.comp_def]
    · rw [element?, array?, find?_copy_of_found found (by simp [Node.copy?])]
      simp [element?, array?, found, Node.copy?, Node.ofLeaf, Node.array]
    · simp [Node.seen, Seen.Exclusive, Node.leaf, Node.array] at exclusive

theorem Exclusive.element {t E : Tree} (exclusive : t.Exclusive) {p : String} {i : Nat}
    (found : t.element? p i = some E) : E.Exclusive := fun R g => by
  have single := exclusive ((p, i) :: R) g
  rwa [seenAt_cons, found] at single

theorem at?_copy {t : Tree} (exclusive : t.Exclusive) (P : Place) :
    t.copy.at? P = (t.at? P).map copy := by
  induction P generalizing t with
  | nil => rfl
  | cons x rest ih =>
    obtain ⟨p, i⟩ := x
    rw [at?_cons, at?_cons, element?_copy t p i (exclusive [] p)]
    cases found : t.element? p i with
    | none => rfl
    | some E => simpa using ih (exclusive.element found)

/-- A copy of an exclusive tree sees every field as the tree does, leaves copied. -/
theorem seenAt_copy {t : Tree} (exclusive : t.Exclusive) (P : Place) (g : String) :
    t.copy.seenAt P g = (t.seenAt P g).copy := by
  have single := exclusive P g
  unfold seenAt at single ⊢
  rw [at?_copy exclusive]
  cases found : t.at? P with
  | none => rfl
  | some S =>
    simp only [found, Option.map_some, Option.getD_some] at single ⊢
    exact seen_copy S g single

end Tree

theorem Reach.leaves_eq_some {r : Reach} {s s' : Seen} (left : r.leaves s = some s') :
    s' = s ∨ s' = .nothing := by
  cases r <;> simp [Reach.leaves] at left <;> simp [left]

namespace PlacedWrite

/-! ## The last write decides -/

/-- After a write that lands, a field the write touches holds what the write left there, and
every other field is as it was. -/
theorem seenAt_apply {w : PlacedWrite} {t : Tree} (lands : w.Lands t) (Q : Place) (g : String) :
    (w.apply t).seenAt Q g = (w.effect Q g).getD (t.seenAt Q g) := by
  cases w with
  | leaf P f l =>
    exact Tree.seenAt_modifyAt_set lands f (.ofLeaf l) (fun _ held => by cases held) Q g
  | array P p tb size =>
    -- the new array's elements are all empty
    have hollow : ∀ arr, (Node.ofArray (.fresh tb size)).array = some arr →
        ∀ e ∈ arr.elements, e.getD Tree.empty = Tree.empty := by
      intro arr held e mem
      cases held
      have fresh : 0 < size ∧ e = some Tree.empty := by simpa using mem
      rw [fresh.2]
      rfl
    have set := Tree.seenAt_modifyAt_set lands p (.ofArray (.fresh tb size)) hollow Q g
    simpa [apply, effect, Tree.setArray, Node.seen, Node.ofArray, Node.leaf, Node.array] using set
  | delete p =>
    rw [apply, Tree.seenAt_delete, effect]
    split <;> rfl

@[simp] theorem applyAll_nil (t : Tree) : applyAll [] t = t := rfl

theorem applyAll_append (xs ys : List PlacedWrite) (t : Tree) :
    applyAll (xs ++ ys) t = applyAll ys (applyAll xs t) :=
  List.foldl_append

theorem landed_append : ∀ {xs ys : List PlacedWrite} {t : Tree},
    Landed (xs ++ ys) t ↔ Landed xs t ∧ Landed ys (applyAll xs t)
  | [], _, _ => by simp [Landed]
  | x :: xs, ys, t => by
    simp only [List.cons_append, Landed, landed_append, applyAll, List.foldl_cons, and_assoc]

theorem seenAt_applyAll : ∀ {ws : List PlacedWrite} {t : Tree}, Landed ws t → ∀ Q g,
    (applyAll ws t).seenAt Q g = seenAfter ws Q g (t.seenAt Q g)
  | [], _, _, _, _ => rfl
  | w :: ws, t, ⟨lands, landed⟩, Q, g => by
    have rest := seenAt_applyAll landed Q g
    simp only [applyAll, seenAfter, List.foldl_cons] at rest ⊢
    rw [rest, seenAt_apply lands]

/-- The last write that touches a field decides what it holds; where none does, it holds what
it held before. -/
theorem seenAfter_eq_last (ws : List PlacedWrite) (Q : Place) (g : String) (s : Seen) :
    seenAfter ws Q g s = (ws.reverse.findSome? (·.effect Q g)).getD s := by
  induction ws generalizing s with
  | nil => rfl
  | cons w ws ih =>
    rw [seenAfter, List.foldl_cons, ← seenAfter, ih, List.reverse_cons, List.findSome?_append]
    cases ws.reverse.findSome? (·.effect Q g) with
    | some x => rfl
    | none =>
      simp only [Option.none_or, List.findSome?_cons, List.findSome?_nil]
      cases w.effect Q g <;> rfl

/-! ## Exclusive fields -/

theorem exclusive_effect {w : PlacedWrite} {Q : Place} {g : String} {s : Seen}
    (touched : w.effect Q g = some s) : s.Exclusive := by
  cases w with
  | leaf P f l =>
    rcases Reach.leaves_eq_some touched with rfl | rfl
    · exact ⟨rfl, .inr rfl⟩
    · exact Seen.exclusive_nothing
  | array P p tb size =>
    rcases Reach.leaves_eq_some touched with rfl | rfl
    · exact ⟨rfl, .inl rfl⟩
    · exact Seen.exclusive_nothing
  | delete p =>
    simp only [effect] at touched
    split at touched
    · cases touched
      exact Seen.exclusive_nothing
    · cases touched

theorem exclusive_seenAfter (ws : List PlacedWrite) (Q : Place) (g : String) {s : Seen}
    (exclusive : s.Exclusive) : (seenAfter ws Q g s).Exclusive := by
  induction ws generalizing s with
  | nil => exact exclusive
  | cons w ws ih =>
    rw [seenAfter, List.foldl_cons, ← seenAfter]
    apply ih
    cases touched : w.effect Q g with
    | none => exact exclusive
    | some s' => exact exclusive_effect touched

/-- Writes that land keep every field holding exactly one of a leaf and an array. -/
theorem exclusive_applyAll {ws : List PlacedWrite} {t : Tree} (landed : Landed ws t)
    (exclusive : t.Exclusive) : (applyAll ws t).Exclusive := fun Q g => by
  rw [seenAt_applyAll landed]
  exact exclusive_seenAfter ws Q g (exclusive Q g)

end PlacedWrite

end AccessLayer
