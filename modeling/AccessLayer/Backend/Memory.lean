import AccessLayer.Backend.Action
import AccessLayer.Sampling.Resample
import AccessLayer.Store
/-!
The in-memory backend. Data entries live in a `Store` shared by every memory backend of a
session, keyed by the entry's path (or its whole URI when it has none). An open backend has one
entry; its actions are kept by the identifier of their operation. A write is staged and
committed to the store when its operation ends; slice and time-range reads select, blend and
resample the stored time slices.

Calls run in `EStateM Fault (MemoryBackend × Store)`: what a call changed before it failed stays
changed.
-/
namespace AccessLayer

/-- The state of one memory backend. -/
structure MemoryBackend where
  /-- The key of the open data entry; empty when none is open. -/
  entry : String := ""
  actions : List (Nat × Action) := []
  /-- Whether time interpolation is installed. -/
  interpolation : Bool := true
  deriving Inhabited

/-- Calls on a memory backend and the store. -/
abbrev MemoryCall := EStateM Fault (MemoryBackend × Store)

/-- The store key of a data entry: its path, or its URI when it has no path. -/
def DataEntry.storeKey (e : DataEntry) : String :=
  if e.path ≠ "" then e.path else e.uri.render

/-- The identifier of the operation a context belongs to. -/
def Context.operationUid : Context → Except Failure Nat
  | .operation o => .ok o.uid
  | .array c => .ok c.op.uid
  | .entry e => .error (.backend ("Context " ++ toString e.uid ++ " is not an operation"))

/-- A failure of a buffer's block selection, reported as a backend failure. -/
def Fault.asBackend : Fault → Fault
  | .failure f => .failure (.backend f.message)
  | h => h

/-- A sampling computation as a backend call's result. -/
def Except.sampled {α : Type} (r : Except SamplingError α) : Except Fault α :=
  r.mapError fun e => .failure e.failure

namespace MemoryBackend

/-- The action of the operation `ctx` belongs to. -/
def actionOf (b : MemoryBackend) (ctx : Context) : Except Failure (Nat × Action) := do
  let key ← ctx.operationUid
  match b.actions.lookup key with
  | some a => .ok (key, a)
  | none => .error (.backend ("No action open for context " ++ toString key))

/-- The backend with the action of operation `key` set. -/
def setAction (b : MemoryBackend) (key : Nat) (a : Action) : MemoryBackend :=
  { b with actions := (key, a) :: b.actions.filter (·.1 ≠ key) }

/-- The backend without the action of operation `key`. -/
def dropAction (b : MemoryBackend) (key : Nat) : MemoryBackend :=
  { b with actions := b.actions.filter (·.1 ≠ key) }

/-- Opens a data entry: it must exist, is made, must not exist, or is made empty, by mode. -/
def openPulse (e : DataEntry) (mode : OpenMode) : MemoryCall Unit := do
  let (b, store) ← get
  let key := e.storeKey
  let store ←
    if mode = .openEntry then
      if store.contains key then pure store
      else Failure.raise (Failure.backend ("Data entry " ++ key ++ " does not exist"))
    else if mode = .forceOpen then pure (store.create key false).2
    else if mode = .create then
      if store.contains key then Failure.raise (Failure.backend ("Data entry " ++ key ++ " already exists"))
      else pure (store.create key false).2
    else if mode = .forceCreate then pure (store.create key true).2
    else Failure.raise (Failure.backend ("Mode " ++ toString mode.code ++ " not yet supported"))
  set ({ b with entry := key }, store)

/-- Closes the data entry, erasing it from the store when asked; open actions are dropped. -/
def closePulse (e : DataEntry) (mode : CloseMode) : MemoryCall Unit := do
  let (b, store) ← get
  let store := if mode = .erase then (store.remove e.storeKey).2 else store
  set ({ b with entry := "", actions := [] }, store)

/-- Starts an action: a read sees the committed object, a write a copy of it, or nothing for a
global replacing write. Time-range actions only read. -/
def beginAction (op : Operation) : MemoryCall Unit := do
  let (b, store) ← get
  if b.entry = "" then Failure.raise (Failure.backend "Data entry is not open")
  let write := op.access ≠ .read
  if write && op.range = .timeRange then
    Failure.raise (Failure.backend "Time range operations are read only")
  let tree := match store.get? b.entry op.name with
    | none => Tree.empty
    | some stored =>
      if write && op.access = .replace && op.range = .global then Tree.empty
      else if write then stored.copy
      else stored
  set (b.setAction op.uid { op, tree, write }, store)

/-- Ends the action of a context: an array closes, an operation commits its write. -/
def endAction (ctx : Context) : MemoryCall Unit := do
  let (b, store) ← get
  match ctx with
  | .entry _ => pure ()
  | .array c =>
    let (key, a) ← Except.toCall (b.actionOf ctx)
    let a ← Except.toCall (a.endArray c)
    set (b.setAction key a, store)
  | .operation o =>
    let (key, a) ← Except.toCall (b.actionOf ctx)
    let b := b.dropAction key
    set (b, store)
    if a.write then
      match store.put b.entry o.name (some a.tree) with
      | .ok store => set (b, store)
      | .error m => Failure.raise (Failure.backend m)

/-- Writes a field through a context of a write action. -/
def writeData (ctx : Context) (field timebase : String) (data : Buffer) : MemoryCall Unit := do
  let (b, store) ← get
  let (key, a) ← Except.toCall (b.actionOf ctx)
  if !a.write then Failure.raise (Failure.backend "Cannot write data in a read action")
  let a ← Except.toStep (a.writeLeaf ctx field timebase data)
  set (b.setAction key a, store)

/-- Removes a path and what lies below it from the staged object. -/
def deleteData (op : Operation) (path : String) : MemoryCall Unit := do
  let (b, store) ← get
  let (key, a) ← Except.toCall (b.actionOf (.operation op))
  if !a.write then Failure.raise (Failure.backend "Cannot delete data in a read action")
  set (b.setAction key { a with tree := (a.tree.delete path).1 }, store)

/-- The slice of `data` at the operation's time: selected, or blended for Linear. -/
def sliceOf (op : Operation) (data : Buffer) (tv : List Float) : Except Fault Buffer := do
  let n := data.sliceLen
  let shape := data.shape.dropLast
  if n = 0 then return Buffer.zeros data.type shape
  let (sel, br) ← Except.sampled (selectSample op.time tv op.interp)
  let block (i : Nat) : Except Fault Buffer := (data.block i n shape).mapError Fault.asBackend
  if op.interp ≠ .linear then block sel
  else
    let inf ← block br.inf
    let sup ← block br.sup
    Except.sampled (interpolate data.type n (some inf) (some sup)
      ⟨timeAt tv br.inf, timeAt tv br.sup⟩ op.time .linear)

/-- The samples of `data` in the operation's window, or `data` resampled onto its target
times; none when nothing falls in it. -/
def rangeOf (op : Operation) (data : Buffer) (tv : List Float) (isTimebase : Bool) :
    Except Fault (Option Buffer) := do
  let n := data.sliceLen
  let shape := data.shape.dropLast
  if op.dtime.isEmpty then
    let (lo, hi, count) ← Except.sampled (timeRangeIndices op.tmin op.tmax [] tv op.interp)
    if count = 0 then return none
    let out ← (data.blocks lo hi n (shape ++ [(count : Int)])).mapError Fault.asBackend
    return some out
  if isTimebase then
    let targets ← Except.sampled (targetTimes op.tmin op.tmax op.dtime)
    let produced := (reachedTargets targets tv).length
    let (count, out) ← resampleTimebasis op.tmin op.tmax op.dtime (-1)
    if produced = 0 then return none
    if count > produced then
      let out ← out.truncate produced
      return some { out with shape := [(produced : Int)] }
    return some out
  if n = 0 then return none
  let (first, last) ← Except.sampled (resamplingWindow op.tmin op.tmax op.dtime tv op.interp)
  if last < first then return none
  let window ← (data.blocks first last n (shape ++ [last - first + 1])).mapError Fault.asBackend
  let (_, out) ← interpolateWithResampling op.tmin op.tmax op.dtime data.type n window tv op.interp
  return some out

/-- Reads a field through a context. Global reads, fields without a time base, fields in
time-dependent arrays and scalars read as stored; other time-dependent fields are cut to the
operation's time or window. -/
def readData (ctx : Context) (field timebase : String) : MemoryCall (Option Buffer) := do
  let (b, _) ← get
  let (_, a) ← Except.toCall (b.actionOf ctx)
  let v ← Except.toCall (a.view ctx)
  let some data ← Except.toCall (Action.readLeaf v field b.interpolation) | return none
  if a.op.range = .global || timebase = "" || ctx.insideTimed || data.dim = 0 then
    return some data
  let some tv ← Except.toCall (a.timebaseVector v.primary timebase) | return some data
  let nt := data.shape.getLastD 0
  let tv ← if (tv.length : Int) > nt then
      if nt < 0 then throw Fault.outOfRange else pure (tv.take nt.toNat)
    else pure tv
  if tv.isEmpty then return none
  if !b.interpolation then Failure.raise (Failure.backend "No data interpolation installed")
  if a.op.range = .slice then
    return some (← Except.toStep (sliceOf a.op data tv))
  let bare := if timebase.startsWith "/" then (timebase.drop 1).toString else timebase
  Except.toStep (rangeOf a.op data tv (field = bare))

/-- The selected time slice of a time-dependent array at time `t`, or the pair to blend. -/
def pick (op : Operation) (arr : StructArray) (tv : List Float) (t : Float) :
    Except Fault View := do
  let (sel, br) ← Except.sampled (selectSample t tv op.interp)
  let element (i : Nat) : Tree := ((arr.elements[i]?).getD none).getD Tree.empty
  if op.interp ≠ .linear then return { primary := element sel }
  return { primary := element br.inf, secondary := some (element br.sup), blend := true,
           times := ⟨timeAt tv br.inf, timeAt tv br.sup⟩, t }

/-- The views of a time-dependent array read in a slice or time-range action. -/
def timedViews (b : MemoryBackend) (a : Action) (arr : StructArray) (elements : List View)
    (tv : List Float) (timeLeaf : String) : Except Fault (List View) := do
  let op := a.op
  if !b.interpolation then throw (Fault.failure (.backend "No data interpolation installed"))
  if op.range = .slice then
    return [← pick op arr tv op.time]
  if op.dtime.isEmpty then
    let (lo, hi, count) ← Except.sampled (timeRangeIndices op.tmin op.tmax [] tv op.interp)
    if count = 0 then return []
    return (elements.take (hi + 1).toNat).drop lo.toNat
  let targets ← Except.sampled (targetTimes op.tmin op.tmax op.dtime)
  let reached := reachedTargets targets tv
  (List.range reached.length).zip reached |>.mapM fun (i, t) => do
    let v ← pick op arr tv t
    if timeLeaf = "" then return v
    let (_, tb) ← resampleTimebasis op.tmin op.tmax op.dtime (i : Int)
    let time := match tb.cells with
      | some (.doubles (x :: _)) => x
      | _ => 0
    return { v with timeLeaf, time }

/-- Opens a time-dependent array for a slice or time-range read: its elements are the selected
time slices. The array is registered before its slices are chosen. -/
def beginTimedRead (key : Nat) (a : Action) (c : ArrayContext) : MemoryCall Nat := do
  let (b, store) ← get
  let pv ← Except.toCall (a.view c.parentContext)
  let a := a.register c { context := c }
  set (b.setAction key a, store)
  match Action.elementViews pv c.path with
  | (none, _) => return 0
  | (some arr, elements) =>
    if elements.isEmpty then return 0
    let (tv, timeLeaf) ← Except.toCall (a.arrayTimes arr c.timebase)
    let tv := (tv.getD []).take elements.length
    if tv.isEmpty then return 0
    let views ← Except.toStep (b.timedViews a arr elements tv timeLeaf)
    set (b.setAction key (a.register c { context := c, views }), store)
    return views.length

/-- Opens an array of structures: a write gets `size` elements, a read finds its size. -/
def beginArray (c : ArrayContext) (size : Int) : MemoryCall Int := do
  let (b, store) ← get
  let (key, a) ← Except.toCall (b.actionOf (.array c))
  if a.write then
    let a ← Except.toCall (a.beginWrite c size)
    set (b.setAction key a, store)
    return size
  let parent := c.parentContext
  if a.op.range = .global || !c.timed || parent.insideTimed then
    let (n, a) ← Except.toCall (a.beginRead c)
    set (b.setAction key a, store)
    return n
  return (← beginTimedRead key a c)

/-- Reads an occurrence number: an optional sign and decimal digits. -/
def occurrenceOf (s : String) : Option Int :=
  let digits (cs : List Char) : Option Nat :=
    if cs.isEmpty || !cs.all Char.isDigit then none
    else some (cs.foldl (fun n ch => n * 10 + (ch.toNat - '0'.toNat)) 0)
  let value : Option Int := match s.toList with
    | '-' :: rest => (digits rest).map fun n => -(n : Int)
    | '+' :: rest => (digits rest).map fun n => (n : Int)
    | cs => (digits cs).map fun n => (n : Int)
  value.bind fun v => if v < -(Nat.pow 2 63 : Int) || v ≥ Nat.pow 2 63 then none else some v

/-- The occurrences of a data object that hold data: `name` is occurrence 0 and `name/N`
occurrence `N`, ascending. -/
def occurrences (store : Store) (e : DataEntry) (name : String) : List Int :=
  let found := (store.objects e.storeKey).filterMap fun obj =>
    if obj = name then some 0
    else if obj.startsWith (name ++ "/") then occurrenceOf (obj.drop (name.length + 1)).toString
    else none
  found.mergeSort fun x y => decide (x ≤ y)

end MemoryBackend

end AccessLayer
