import AccessLayer.Backend.Memory
import AccessLayer.Disk.TreeFile
/-!
The serialized backend. Each data object is a tree file `<object>.alser` (slashes of the name
made underscores) in the entry's directory; only global operations are allowed, and contexts end
in the reverse order they began, which the backend checks with a stack of identifiers.

An entry without a directory only exchanges frames through the pseudo field `<buffer>`: reading
it in a write returns the frame of the staged object, writing it loads a frame for the next read.

Calls run in `EStateM Fault (SerializeBackend × Disk)`.
-/
namespace AccessLayer

/-- The pseudo field through which a whole data object passes as one frame. -/
def bufferField : String := "<buffer>"

/-- The state of one serialized backend. -/
structure SerializeBackend where
  level : CompressionLevel
  dir : String := ""
  /-- The identifiers of the contexts begun and not ended, innermost first. -/
  stack : List Nat := []
  actions : List (Nat × Action) := []
  /-- A frame's tree loaded for the next read. -/
  loaded : Option Tree := none
  deriving Inhabited

/-- Calls on a serialized backend and the disk. -/
abbrev SerializeCall := EStateM Fault (SerializeBackend × Disk)

namespace SerializeBackend

/-- A disk call as a backend call, its failure a backend failure. -/
def onDisk {α : Type} (m : DiskM α) : SerializeCall α := fun (b, d) =>
  match m.run d with
  | .ok a d' => .ok a (b, d')
  | .error e d' => .error (.failure (.backend e.message)) (b, d')

/-- The file name of a data object: its name with every slash made an underscore. -/
def fileName (name : String) : String :=
  String.ofList (name.toList.map fun c => if c = '/' then '_' else c) ++ ".alser"

/-- The file of a data object. -/
def fileOf (b : SerializeBackend) (name : String) : String :=
  Disk.join b.dir (fileName name)

/-- Records that a context began. -/
def push (uid : Nat) : SerializeCall Unit :=
  modify fun (b, d) => ({ b with stack := uid :: b.stack }, d)

/-- The action of the operation `ctx` belongs to. -/
def actionOf (b : SerializeBackend) (ctx : Context) : Except Failure (Nat × Action) := do
  let key ← ctx.operationUid
  match b.actions.lookup key with
  | some a => .ok (key, a)
  | none => .error (.backend ("No action open for context " ++ toString key))

/-- The backend with the action of operation `key` set. -/
def setAction (b : SerializeBackend) (key : Nat) (a : Action) : SerializeBackend :=
  { b with actions := (key, a) :: b.actions.filter (·.1 ≠ key) }

/-- Opens a data entry's directory: it must exist, is made, or is made empty, by mode. -/
def openPulse (e : DataEntry) (mode : OpenMode) : SerializeCall Unit := do
  push e.uid
  let dir := e.path
  modify fun (b, d) => ({ b with dir }, d)
  if dir = "" then return
  if mode = .openEntry then
    match (← get).2.resolve dir with
    | .ok _ => pure ()
    | .error _ => Failure.raise (.backend ("Data entry " ++ dir ++ " does not exist"))
  else if mode = .forceOpen || mode = .create then onDisk (Disk.makeAll dir)
  else if mode = .forceCreate then
    onDisk (Disk.removeAll dir)
    onDisk (Disk.makeAll dir)
  else Failure.raise (.backend ("Mode " ++ toString mode.code ++ " not yet supported"))

/-- Closes the data entry, removing its directory when asked. -/
def closePulse (mode : CloseMode) : SerializeCall Unit := do
  modify fun (b, d) => ({ b with loaded := none }, d)
  let dir := (← get).1.dir
  if mode = .erase && dir ≠ "" then onDisk (Disk.removeAll dir)

/-- Starts a global action: a write starts empty; a read takes a loaded frame's tree, or the
object's file, or nothing. -/
def beginAction (op : Operation) : SerializeCall Unit := do
  if op.range ≠ .global then Failure.raise (.backend "Serialize Backend does not support slice mode")
  push op.uid
  let (b, d) ← get
  let write := op.access ≠ .read
  let tree ←
    if write then pure Tree.empty
    else match b.loaded with
      | some t =>
        set ({ b with loaded := none }, d)
        pure t
      | none =>
        if b.dir = "" then pure Tree.empty
        else match d.readTreeFile (b.fileOf op.name) with
          | .ok t => pure (t.getD Tree.empty)
          | .error e => Failure.raise (.backend e.message)
  modify fun (b, d) => (b.setAction op.uid { op, tree, write }, d)

/-- Ends the innermost context: an array closes, a write stores its object, or removes the
file when the object is empty. -/
def endAction (ctx : Context) : SerializeCall Unit := do
  let (b, d) ← get
  match b.stack with
  | [] => Failure.raise (.backend ("Unexpected nesting of contexts: ending " ++ toString ctx.uid ++
      " with no open context"))
  | top :: rest =>
    if top ≠ ctx.uid then
      Failure.raise (.backend ("Unexpected nesting of contexts: ending " ++ toString ctx.uid ++
        " top context is " ++ toString top))
    let b := { b with stack := rest }
    set (b, d)
    match ctx with
    | .entry _ => pure ()
    | .array c =>
      let (key, a) ← Except.toCall (b.actionOf ctx)
      let a ← Except.toCall (a.endArray c)
      set (b.setAction key a, d)
    | .operation o =>
      let (key, a) ← Except.toCall (b.actionOf ctx)
      set ({ b with actions := b.actions.filter (·.1 ≠ key) }, d)
      if !a.write || b.dir = "" then return
      let path := b.fileOf o.name
      if a.tree.isEmpty then
        onDisk (tryCatch (Disk.remove path) fun e =>
          if e.cause = .notFound then pure () else throw e)
      else onDisk (Disk.writeTreeFile path a.tree b.level)

/-- Writes a field; `<buffer>` loads a frame for the next read instead. -/
def writeData (ctx : Context) (field timebase : String) (data : Buffer) : SerializeCall Unit := do
  let (b, d) ← get
  if field = bufferField then
    let bytes := match data.cells with
      | some (.chars v) => v
      | _ => []
    match readFrame bytes with
    | .error e => Failure.raise (.backend ("Serialize Backend: " ++ e.message))
    | .ok c =>
      match Tree.decode c.payload with
      | .error f => Failure.raise (.backend ("Serialize Backend: " ++ f.message))
      | .ok t => set ({ b with loaded := some t }, d)
  else
    let (key, a) ← Except.toCall (b.actionOf ctx)
    if !a.write then Failure.raise (.backend "Cannot write data when deserializing.")
    let a ← Except.toStep (a.writeLeaf ctx field timebase data)
    set (b.setAction key a, d)

/-- Reads a field of a read; `<buffer>` in a write gives the frame of the staged object. -/
def readData (ctx : Context) (field : String) : SerializeCall (Option Buffer) := do
  let (b, _) ← get
  let (_, a) ← Except.toCall (b.actionOf ctx)
  if field = bufferField then
    if !a.write then
      Failure.raise (.backend "Reading <buffer>, but no object is being serialized")
    return some (Buffer.ofBytes (frameBytes a.tree.encode b.level))
  if a.write then Failure.raise (.backend "Cannot read data when serializing.")
  let v ← Except.toCall (a.view ctx)
  Except.toCall (Action.readLeaf v field false)

/-- Opens an array of structures; a write of no elements collects nothing. -/
def beginArray (c : ArrayContext) (size : Int) : SerializeCall Int := do
  let (b, _) ← get
  let (key, a) ← Except.toCall (b.actionOf (.array c))
  push c.uid
  let (b, d) ← get
  if a.write then
    if size ≤ 0 then
      set (b.setAction key (a.register c { context := c, home := some (.apart c.uid) }), d)
    else
      let a ← Except.toCall (a.beginWrite c size)
      set (b.setAction key a, d)
    return size
  let (n, a) ← Except.toCall (a.beginRead c)
  set (b.setAction key a, d)
  return n

end SerializeBackend

end AccessLayer
