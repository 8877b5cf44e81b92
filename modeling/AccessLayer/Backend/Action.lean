import AccessLayer.Tree.Basic
import AccessLayer.Context.Array
import AccessLayer.Sampling.Blend
/-!
The state of one read or write between its begin and its end. A read works on the committed tree
of its data object, a write on a staged copy that its end commits.

Arrays of structures opened inside an action are kept by the identifier of their context. A
write array knows where its elements are: a field of a structure of the staged tree, or, for the
time slices a slice write collects, apart in the open array itself until it ends and appends them.
Places are `StructSite`s and `ArraySite`s, resolved against the action when used; a nested
array's place is fixed when it opens, at the element its parent was on then. A read array holds
the elements as the read sees them (`View`): stored elements, time slices selected by time, or
pairs of slices to blend at a time between them.
-/
namespace AccessLayer

mutual
/-- Where a structure of the staged tree is: the data object root, or an element of an array. -/
inductive StructSite where
  | root
  | element (array : ArraySite) (index : Nat)
  deriving Inhabited
/-- Where an array of structures is: a field of a structure, or apart in the open array with
this identifier. -/
inductive ArraySite where
  | field (holder : StructSite) (path : String)
  | apart (uid : Nat)
  deriving Inhabited
end

/-- An element as a read sees it. A blended view stands for the combination of `primary` and
`secondary` at time `t`. When `timeLeaf` is set, that field reads as `time`. -/
structure View where
  primary : Tree
  secondary : Option Tree := none
  blend : Bool := false
  times : SliceTimes := ⟨0, 0⟩
  t : Float := 0
  timeLeaf : String := ""
  time : Float := 0
  deriving Inhabited

/-- An array of structures opened in an action. -/
structure OpenArray where
  context : ArrayContext
  /-- For a write: where its elements are. -/
  home : Option ArraySite := none
  /-- Time slices collected apart. -/
  apart : StructArray := .mk "" []
  /-- The structure whose array the collected slices extend when the array ends. -/
  appendTo : Option StructSite := none
  /-- For a read: the elements as seen. -/
  views : List View := []
  deriving Inhabited

/-- One read or write in progress. -/
structure Action where
  op : Operation
  tree : Tree
  write : Bool
  arrays : List (Nat × OpenArray) := []
  deriving Inhabited

/-- The array at `path` changed by `f`, the node's leaf kept; a missing array stays missing. -/
def Tree.modifyArray (t : Tree) (path : String) (f : StructArray → StructArray) : Tree :=
  match t.find? path with
  | some (.mk l (some arr)) => t.set path (.mk l (some (f arr)))
  | _ => t

namespace StructArray

/-- Element `i` changed by `f`; an absent element counts as empty. -/
def modifyElement (arr : StructArray) (i : Nat) (f : Tree → Tree) : StructArray :=
  .mk arr.timebase (arr.elements.modify i fun e => some (f (e.getD Tree.empty)))

/-- The array grown with empty elements to `size` elements. -/
def extendTo (arr : StructArray) (size : Int) : StructArray :=
  .mk arr.timebase (arr.elements ++ List.replicate (size.toNat - arr.size) (some Tree.empty))

/-- An array of `size` empty elements. -/
def fresh (timebase : String) (size : Int) : StructArray :=
  .mk timebase (List.replicate size.toNat (some Tree.empty))

end StructArray

/-- The failure for an index outside an array. -/
def elementOutOfRange (index : Int) (path : String) (size : Nat) : Failure :=
  .backend ("Element " ++ toString index ++ " out of range of " ++ path ++ " (size " ++
    toString size ++ ")")

/-- The context an array is opened below: its parent array, or its operation. -/
def ArrayContext.parentContext (c : ArrayContext) : Context :=
  match c.parent? with
  | some p => .array p
  | none => .operation c.op

/-- Whether a context is, or lies in, a time-dependent array. -/
def Context.insideTimed : Context → Bool
  | .array c => c.insideTimed
  | _ => false

namespace Action

/-- The action with the open array of `c` set to `arr`. -/
def register (a : Action) (c : ArrayContext) (arr : OpenArray) : Action :=
  { a with arrays := (c.uid, arr) :: a.arrays.filter (·.1 ≠ c.uid) }

/-- The action without the open array `uid`. -/
def unregister (a : Action) (uid : Nat) : Action :=
  { a with arrays := a.arrays.filter (·.1 ≠ uid) }

/-- The open array of `c`. -/
def arrayOf (a : Action) (c : ArrayContext) : Except Failure OpenArray :=
  match a.arrays.lookup c.uid with
  | some arr => .ok arr
  | none => .error (.backend ("Array of structures " ++ c.path ++ " (context " ++
      toString c.uid ++ ") was not started"))

mutual
/-- The structure at a site. -/
def structAt (a : Action) : StructSite → Option Tree
  | .root => some a.tree
  | .element s i => (a.arrayAt s).bind fun arr => (arr.elements[i]?).map (·.getD Tree.empty)
/-- The array at a site. -/
def arrayAt (a : Action) : ArraySite → Option StructArray
  | .field h p => (a.structAt h).bind (·.array? p)
  | .apart u => (a.arrays.lookup u).map (·.apart)
end

mutual
/-- The action with the structure at a site changed by `f`. -/
def updateStruct (a : Action) (f : Tree → Tree) : StructSite → Action
  | .root => { a with tree := f a.tree }
  | .element s i => a.updateArray (fun arr => arr.modifyElement i f) s
/-- The action with the array at a site changed by `f`. -/
def updateArray (a : Action) (f : StructArray → StructArray) : ArraySite → Action
  | .field h p => a.updateStruct (fun t => t.modifyArray p f) h
  | .apart u => { a with arrays := a.arrays.map fun (k, oa) =>
      if k = u then (k, { oa with apart := f oa.apart }) else (k, oa) }
end

/-- The structure writes through `ctx` land in: the root for an operation, the current element
for an array, which must exist. -/
def container (a : Action) : Context → Except Failure StructSite
  | .array c => do
    let arr ← a.arrayOf c
    let site := arr.home.getD (.apart c.uid)
    let size := ((a.arrayAt site).map StructArray.size).getD 0
    if c.index < 0 || c.index ≥ size then .error (elementOutOfRange c.index c.path size)
    else .ok (.element site c.index.toNat)
  | _ => .ok .root

/-- Opens an array for writing with `size` elements. A global write replaces the array. A slice
write of a time-dependent array outside other time-dependent arrays collects new slices apart,
appended when it ends; other slice writes extend the stored array in place. -/
def beginWrite (a : Action) (c : ArrayContext) (size : Int) : Except Failure Action := do
  let parent := c.parentContext
  let holder ← a.container parent
  if a.op.range = .slice && c.timed && !parent.insideTimed then
    let arr : OpenArray :=
      { context := c, home := some (.apart c.uid), apart := .fresh c.timebase size,
        appendTo := some holder }
    pure (a.register c arr)
  else if a.op.range = .slice then
    let site := ArraySite.field holder c.path
    let a1 := match a.arrayAt site with
      | some _ => a
      | none => a.updateStruct (fun t => t.setArray c.path (.mk c.timebase [])) holder
    pure ((a1.updateArray (fun arr => arr.extendTo size) site).register c
      { context := c, home := some site })
  else
    pure ((a.updateStruct (fun t => t.setArray c.path (.fresh c.timebase size)) holder).register c
      { context := c, home := some (.field holder c.path) })

/-- Closes an array; collected slices extend the stored array, whose last slice a replacing
write drops first, or become the array when there is none. -/
def endArray (a : Action) (c : ArrayContext) : Except Failure Action := do
  let arr ← a.arrayOf c
  let a := a.unregister c.uid
  match arr.appendTo with
  | none => pure a
  | some holder =>
    if arr.apart.size = 0 then pure a
    else
      let site := ArraySite.field holder c.path
      match a.arrayAt site with
      | none => pure (a.updateStruct (fun t => t.setArray c.path arr.apart) holder)
      | some stored =>
        let kept := if a.op.access = .replace && stored.size > 0 then stored.elements.dropLast
          else stored.elements
        pure (a.updateArray (fun _ => .mk c.timebase (kept ++ arr.apart.elements)) site)

/-- A time slice appended to the stored field, the time becoming its last dimension. A replacing
write first drops the last slice. -/
def appendSlice (prev : Option Leaf) (field timebase : String) (slice : Buffer) (replace : Bool) :
    Except Fault Leaf :=
  match prev with
  | none => .ok ⟨{ slice.copy with shape := slice.shape ++ [1] }, timebase⟩
  | some l =>
    let d := l.data
    if d.type ≠ slice.type then
      .error (Failure.backend ("Cannot append " ++ slice.type.name ++ " slice to " ++ d.type.name ++
        " field " ++ field))
    else if d.dim ≠ slice.dim + 1 || d.sliceLen ≠ slice.len then
      .error (Failure.backend ("Slice of " ++ toString slice.len ++ " elements does not fit field " ++
        field ++ " of " ++ toString d.sliceLen ++ " elements per slice"))
    else do
      let count := d.shape.getLastD 0
      let (d, count) ← if replace && count > 0 then do
          let d' ← d.truncate ((count - 1) * d.sliceLen)
          pure (d', count - 1)
        else pure (d, count)
      let d ← Except.faulting (d.appendData slice)
      pure ⟨{ d with shape := d.shape.dropLast ++ [count + 1] }, timebase⟩

/-- Writes a field through `ctx`. A slice write of a field with a time base, outside
time-dependent arrays, appends the slice to the stored field. -/
def writeLeaf (a : Action) (ctx : Context) (field timebase : String) (data : Buffer) :
    Except Fault Action := do
  let holder ← Except.faulting (a.container ctx)
  if a.op.range = .slice && timebase ≠ "" && !ctx.insideTimed then
    let prev := (a.structAt holder).bind (·.leaf? field)
    let l ← appendSlice prev field timebase data (a.op.access = .replace)
    pure (a.updateStruct (fun t => t.setLeaf field l) holder)
  else
    pure (a.updateStruct (fun t => t.setLeaf field ⟨data.copy, timebase⟩) holder)

/-- The element reads through `ctx` see. -/
def view (a : Action) (ctx : Context) : Except Failure View :=
  match ctx with
  | .array c => do
    let arr ← a.arrayOf c
    if arr.home.isSome then
      let s ← a.container ctx
      pure { primary := (a.structAt s).getD Tree.empty }
    else if c.index < 0 then .error (elementOutOfRange c.index c.path arr.views.length)
    else match arr.views[c.index.toNat]? with
      | some v => pure v
      | none => .error (elementOutOfRange c.index c.path arr.views.length)
  | _ => pure { primary := a.tree }

/-- The elements of the array at `path` below a view, a blend carried down to the matching
elements of the secondary structure. -/
def elementViews (parent : View) (path : String) : Option StructArray × List View :=
  match parent.primary.array? path with
  | none => (none, [])
  | some arr =>
    let sec := if parent.blend then parent.secondary.bind (·.array? path) else none
    (some arr, arr.elements.mapIdx fun i e =>
      let base : View := { primary := e.getD Tree.empty }
      match sec.bind fun s => s.elements[i]? with
      | some se =>
        { base with
          secondary := some (se.getD Tree.empty), blend := true, times := parent.times,
          t := parent.t }
      | none => base)

/-- Opens an array for reading as stored; gives its size. -/
def beginRead (a : Action) (c : ArrayContext) : Except Failure (Nat × Action) := do
  let pv ← a.view c.parentContext
  let (_, views) := elementViews pv c.path
  pure (views.length, a.register c { context := c, views })

/-- The value of a field seen through a view, if stored: a copy, or the blend of the two slices
of a blended view when `blending` and both hold the same type and length. -/
def readLeaf (v : View) (field : String) (blending : Bool) : Except Failure (Option Buffer) :=
  match v.primary.leaf? field with
  | none => .ok none
  | some l =>
    if v.timeLeaf ≠ "" && field = v.timeLeaf then
      .ok (some (if l.data.dim = 0 then Buffer.scalarDouble v.time else Buffer.ofDoubles [v.time]))
    else
      let data := l.data.copy
      if !v.blend || !blending then .ok (some data)
      else match v.secondary.bind (·.leaf? field) with
        | some sl =>
          if sl.data.type ≠ data.type || sl.data.len ≠ data.len || data.len = 0 then .ok (some data)
          else match interpolate data.type data.len (some data) (some sl.data) v.times v.t .linear with
            | .ok r => .ok (some r)
            | .error e => .error e.failure
        | none => .ok (some data)

/-- The stored times of a time base: an absolute path starts at the data object root, a
relative one at `holder`. No field gives none; a field that is not a vector of doubles is
inconsistent. -/
def timebaseVector (a : Action) (holder : Tree) (timebase : String) :
    Except Failure (Option (List Float)) :=
  let (s, tb) := if timebase.startsWith "/" then (a.tree, (timebase.drop 1).toString)
    else (holder, timebase)
  match s.leaf? tb with
  | none => .ok none
  | some l =>
    if l.data.type ≠ .double || l.data.dim > 1 then
      .error (.backend "Internal error: Inconsistent timebase information")
    else .ok (match l.data.cells with
      | some (.doubles v) => some v
      | _ => none)

/-- The first time stored in field `leaf` of each element. -/
def elementTimes (leaf : String) : Nat → List (Option Tree) → Except Failure (List Float)
  | _, [] => .ok []
  | i, e :: rest =>
    match (e.getD Tree.empty).leaf? leaf with
    | some ⟨⟨t, _, some (.doubles (x :: _))⟩, _⟩ =>
      if t = .double then (elementTimes leaf (i + 1) rest).map (x :: ·)
      else .error (.backend ("Missing time " ++ leaf ++ " of element " ++ toString i))
    | _ => .error (.backend ("Missing time " ++ leaf ++ " of element " ++ toString i))

/-- The times of the elements of a time-dependent array, with the field of each element that
holds its time (empty for an absolute time base). -/
def arrayTimes (a : Action) (arr : StructArray) (timebase : String) :
    Except Failure (Option (List Float) × String) :=
  if timebase.startsWith "/" then do
    let tv ← a.timebaseVector a.tree timebase
    pure (tv, "")
  else do
    let leaf := (timebase.splitOn ")/").getLastD timebase
    let tv ← elementTimes leaf 0 arr.elements
    pure (some tv, leaf)

end Action

end AccessLayer
