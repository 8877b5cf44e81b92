import AccessLayer.Tree.Basic
import AccessLayer.Hash.Blake3
/-!
The in-memory store of data entries. Each data entry holds data objects (trees) by name. Entries
are spread over sixteen buckets by the first four bytes of the BLAKE3 digest of their key, read
big-endian; the bucket decides only where an entry is kept, never what is found. Names and keys
are listed in ascending order.
-/
namespace AccessLayer

/-- The data objects of one data entry, by name. -/
abbrev Objects := List (String × Tree)

/-- The number of buckets. -/
def bucketCount : Nat := 16

/-- The bucket of an entry key. -/
def bucketOf (key : String) : Nat :=
  let d := Blake3.digest key.toUTF8.toList
  (d.take 4).foldl (fun acc b => acc * 256 + b.toNat) 0 % bucketCount

/-- Sixteen buckets of data entries, each an ascending list of entry keys. -/
structure Store where
  buckets : List (List (String × Objects)) := List.replicate bucketCount []

namespace Store

/-- The entries of the bucket of `key`. -/
def bucket (s : Store) (key : String) : List (String × Objects) := s.buckets.getD (bucketOf key) []

/-- The store with the bucket of `key` changed by `f`. -/
def modifyBucket (s : Store) (key : String)
    (f : List (String × Objects) → List (String × Objects)) : Store :=
  { buckets := s.buckets.modify (bucketOf key) f }

/-- The data objects of an entry, if it exists. -/
def entry? (s : Store) (key : String) : Option Objects := (s.bucket key).lookup key

/-- Whether the entry exists. -/
def contains (s : Store) (key : String) : Bool := (s.entry? key).isSome

/-- Makes the entry, keeping an existing one unless `truncate` is set, in which case its
objects are dropped. Also tells whether it existed. -/
def create (s : Store) (key : String) (truncate : Bool) : Bool × Store :=
  let existed := s.contains key
  if !existed || truncate then (existed, s.modifyBucket key (Keyed.insert key []))
  else (existed, s)

/-- Drops the entry and its objects. Also tells whether it existed. -/
def remove (s : Store) (key : String) : Bool × Store :=
  (s.contains key, s.modifyBucket key (Keyed.erase key))

/-- The tree of a data object. -/
def get? (s : Store) (key object : String) : Option Tree :=
  (s.entry? key).bind fun objs => objs.lookup object

/-- Replaces the tree of a data object; an absent or empty tree removes the object. The entry
must exist. -/
def put (s : Store) (key object : String) (t : Option Tree) : Except String Store :=
  match s.entry? key with
  | none => .error ("data entry " ++ key ++ " not found")
  | some objs =>
    let objs := match t with
      | some tree => if tree.isEmpty then Keyed.erase object objs else Keyed.insert object tree objs
      | none => Keyed.erase object objs
    .ok (s.modifyBucket key (Keyed.insert key objs))

/-- The names of the data objects of an entry, ascending; none for a missing entry. -/
def objects (s : Store) (key : String) : List String :=
  ((s.entry? key).getD []).map Prod.fst

/-- The keys of all entries, ascending. -/
def keys (s : Store) : List String :=
  (s.buckets.flatMap fun b => b.map Prod.fst).mergeSort fun a b => decide (a ≤ b)

/-- The bucket holding an entry, if it exists. -/
def bucketHolding (s : Store) (key : String) : Option Nat :=
  if s.contains key then some (bucketOf key) else none

end Store

end AccessLayer
