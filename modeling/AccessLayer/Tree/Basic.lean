import AccessLayer.Buffer.Basic
import AccessLayer.Keyed
/-!
Data object trees. A tree maps field paths (`a/b/c`, structures that are not arrays flattened
into the path) to nodes; a node holds a leaf (a buffer and the path of its time base), an array
of structures (a time base and elements that are trees), or, as read from outside, both or
neither. Paths are kept in ascending order, each at most once. An array with a time base is time
dependent: its element `i` is time slice `i`.
-/
namespace AccessLayer

/-- A stored field: its data and the path of its time base, empty when it has none. -/
structure Leaf where
  data : Buffer
  timebase : String := ""
  deriving Inhabited

mutual
/-- A tree of fields, in ascending path order. -/
inductive Tree where
  | mk (fields : List (String × Node))
/-- What a path holds. -/
inductive Node where
  | mk (leaf : Option Leaf) (array : Option StructArray)
/-- An array of structures; an absent element is a structure never given. -/
inductive StructArray where
  | mk (timebase : String) (elements : List (Option Tree))
end

instance : Inhabited Tree := ⟨.mk []⟩
instance : Inhabited StructArray := ⟨.mk "" []⟩

namespace Node
def leaf : Node → Option Leaf
  | .mk l _ => l
def array : Node → Option StructArray
  | .mk _ a => a
def ofLeaf (l : Leaf) : Node := .mk (some l) none
def ofArray (a : StructArray) : Node := .mk none (some a)
end Node

namespace StructArray
def timebase : StructArray → String
  | .mk tb _ => tb
def elements : StructArray → List (Option Tree)
  | .mk _ es => es
def size (a : StructArray) : Nat := a.elements.length
end StructArray

namespace Tree

/-- The tree with no fields. -/
def empty : Tree := .mk []

/-- The fields in ascending path order. -/
def fields : Tree → List (String × Node)
  | .mk fs => fs

/-- Whether the tree has no field. -/
def isEmpty (t : Tree) : Bool := t.fields.isEmpty

/-- The paths, in ascending order. -/
def paths (t : Tree) : List String := t.fields.map Prod.fst

/-- The node at `path`. -/
def find? (t : Tree) (path : String) : Option Node := t.fields.lookup path

/-- The leaf at `path`, if the path holds one. -/
def leaf? (t : Tree) (path : String) : Option Leaf := (t.find? path).bind Node.leaf

/-- The array at `path`, if the path holds one. -/
def array? (t : Tree) (path : String) : Option StructArray := (t.find? path).bind Node.array

/-- The tree with `node` at `path`. -/
def set (t : Tree) (path : String) (node : Node) : Tree := .mk (Keyed.insert path node t.fields)

/-- The tree with the leaf `l` at `path`. -/
def setLeaf (t : Tree) (path : String) (l : Leaf) : Tree := t.set path (.ofLeaf l)

/-- The tree with the array `a` at `path`. -/
def setArray (t : Tree) (path : String) (a : StructArray) : Tree := t.set path (.ofArray a)

/-- Whether `k` is `path` or lies below it. -/
def isUnder (path k : String) : Bool := k = path || k.startsWith (path ++ "/")

/-- Removes `path` and every field below it; the empty path clears the tree. Gives the tree
and the number of removed fields. -/
def delete (t : Tree) (path : String) : Tree × Nat :=
  if path = "" then (empty, t.fields.length)
  else
    let kept := t.fields.filter fun (k, _) => !isUnder path k
    (.mk kept, t.fields.length - kept.length)

end Tree

mutual
/-- A deep copy as the store makes it: a node keeps its leaf, or else its array, and a node
with neither is dropped; an absent element becomes an empty structure; an empty buffer storage
becomes no storage. -/
def Tree.copy : Tree → Tree
  | .mk fs => .mk (copyFields fs)
/-- Copies a field list. -/
def copyFields : List (String × Node) → List (String × Node)
  | [] => []
  | (k, .mk (some l) _) :: rest => (k, .ofLeaf { l with data := l.data.copy }) :: copyFields rest
  | (k, .mk none (some a)) :: rest => (k, .ofArray a.copy) :: copyFields rest
  | (_, .mk none none) :: rest => copyFields rest
/-- Copies an array. -/
def StructArray.copy : StructArray → StructArray
  | .mk tb es => .mk tb (copyElements es)
/-- Copies array elements. -/
def copyElements : List (Option Tree) → List (Option Tree)
  | [] => []
  | none :: rest => some Tree.empty :: copyElements rest
  | some e :: rest => some e.copy :: copyElements rest
end

end AccessLayer
