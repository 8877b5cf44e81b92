import AccessLayer.Backend.Basic
import AccessLayer.Buffer.Convert
import AccessLayer.Log
/-!
Sessions: the table of open contexts behind integer identifiers, and the calls that begin, use
and end them. Every begin call stores its context with the backend of its data entry in the
first slot above every live one and answers the slot's number; slot 0 means "no context" and is
never filled. Ending a context frees its slot, and freeing the topmost slot lowers the next
slot to take.

Contexts get identifiers in the order they are built, counted by the session; a construction
that is refused spends none. The current index of an array context is kept apart by identifier:
the array and the arrays nested in it see it move when it is iterated.

Calls run in `EStateM Fault Session`: what a call changed before it failed stays changed, as
when a backend opens and then refuses an entry. Calls also keep a journal of log records: the
backends they make, the contexts they begin and end, and the data they convert on reading.
-/
namespace AccessLayer

/-- An open context with the backend of its data entry. -/
structure Slot where
  backend : Nat
  context : Context
  deriving Inhabited

/-- The state of a session. -/
structure Session where
  env : Environment
  factory : Factory := {}
  /-- Open contexts by identifier; slot 0 is never filled. -/
  slots : List (Option Slot) := [none]
  /-- The slot the next context takes. -/
  next : Nat := 1
  /-- The last context identifier handed out. -/
  lastUid : Nat := 0
  /-- The current index of every array context, by context identifier. -/
  indices : List (Nat × Int) := []
  /-- The backends made so far; slots refer to them by position. -/
  backends : List Backend := []
  medium : Medium := {}
  /-- The log records of the calls so far, oldest first. -/
  journal : List LogRecord := []

/-- Calls on a session. -/
abbrev SessionM := EStateM Fault Session

/-- The failure for an identifier with no context. -/
def Failure.noContext (id : Int) : Failure :=
  .lowlevel ("Cannot find context " ++ toString id ++ " in store")

/-- The failure for a context of the wrong kind. -/
def Failure.wrongContext : Failure := .lowlevel "Wrong Context type stored"

/-- A data object name without the occurrence suffix `/0`. -/
def normalizeName (name : String) : String :=
  if name.endsWith "/0" then (name.dropEnd 2).toString else name

namespace Session

/-- The open context of an identifier. -/
def slot? (s : Session) (id : Int) : Option Slot :=
  if id < 0 then none else (s.slots[id.toNat]?).getD none

/-- The current index of an array context. -/
def indexOf (s : Session) (uid : Nat) (start : Int) : Int := (s.indices.lookup uid).getD start

/-- A context with the current indices of its arrays. -/
def live (s : Session) : Context → Context
  | .array c => .array { c with
      level := { c.level with index := s.indexOf c.uid c.index }
      ancestors := c.ancestors.map fun l => { l with index := s.indexOf l.uid l.index } }
  | ctx => ctx

/-- Stores a context in the first slot above every live one. -/
def add (backend : Nat) (ctx : Context) : SessionM Int := modifyGet fun s =>
  let slot : Option Slot := some ⟨backend, ctx⟩
  let slots := if s.next = s.slots.length then s.slots ++ [slot] else s.slots.set s.next slot
  ((s.next : Int), { s with slots, next := s.next + 1 })

/-- Adds a record to the journal. -/
def note (level : LogLevel) (message : String) : SessionM Unit :=
  modify fun s => { s with journal := s.journal ++ [⟨level, message⟩] }

/-- The open context of an identifier, which must exist. -/
def lookup (id : Int) : SessionM Slot := do
  match (← get).slot? id with
  | some sl => pure sl
  | none => Failure.raise (Failure.noContext id)

/-- Frees the slot of an identifier and gives what it held. -/
def del (id : Int) : SessionM Slot := do
  let sl ← lookup id
  modify fun s => { s with
    slots := s.slots.set id.toNat none
    next := if id.toNat + 1 = s.next then s.next - 1 else s.next }
  pure sl

/-- The data entry of an identifier. -/
def entryOf (id : Int) : SessionM (Slot × DataEntry) := do
  let sl ← lookup id
  match sl.context with
  | .entry de => pure (sl, de)
  | _ => Failure.raise Failure.wrongContext

/-- A call on backend `i` of the session. -/
def onBackend {α : Type} (i : Nat) (call : BackendCall α) : SessionM α := fun s =>
  match call (s.backends.getD i .empty, s.medium) with
  | .ok a (b, m) => .ok a { s with backends := s.backends.set i b, medium := m }
  | .error e (b, m) => .error e { s with backends := s.backends.set i b, medium := m }

/-- Builds an operation with the next identifier, spent when the modes are accepted. -/
def operation (build : Nat → Except OperationError Operation) : SessionM Operation := do
  let s ← get
  let uid := s.lastUid + 1
  match build uid with
  | .ok op =>
    set { s with lastUid := uid }
    pure op
  | .error (.badTimeRange lo hi) =>
    set { s with lastUid := uid }
    Failure.raise (OperationError.badTimeRange lo hi).failure
  | .error e => Failure.raise e.failure

/-- Resolves a URI, makes its backend and opens the data entry; a refused opening frees the
slot again. -/
def beginDataEntry (uri : String) (mode : OpenMode) : SessionM Int := do
  let s ← get
  let uid := s.lastUid + 1
  let de ← match DataEntry.resolve s.env uid uri with
    | .ok de => pure de
    | .error e => Failure.raise e.failure
  set { s with lastUid := uid }
  let be ← Except.toCall (s.factory.make s.env de)
  note .debug ("backend " ++ de.backend.name ++ " created for context " ++ toString de.uid)
  let bi := (← get).backends.length
  modify fun s => { s with backends := s.backends ++ [be] }
  let id ← add bi (.entry de)
  tryCatch (onBackend bi (Backend.openPulse de mode)) fun e => do
    let _ ← del id
    throw e
  note .debug ("begin data entry " ++ toString id ++ " " ++ de.uri.render ++ " (" ++
    mode.name ++ ")")
  pure id

/-- Closes the data entry of an identifier; its slot stays. -/
def closePulse (id : Int) (mode : CloseMode) : SessionM Unit := do
  let (sl, de) ← entryOf id
  note .debug ("close pulse " ++ toString id ++ " (" ++ mode.name ++ ")")
  onBackend sl.backend (Backend.closePulse de mode)

/-- Starts an operation on its backend and stores it. -/
def beginOperation (sl : Slot) (op : Operation) : SessionM Int := do
  onBackend sl.backend (Backend.beginAction op)
  let id ← add sl.backend (.operation op)
  note .debug ("begin " ++ op.range.name ++ " " ++ op.access.name ++ " on " ++ op.name ++ " as " ++
    toString id)
  pure id

/-- Starts a global operation on a data object of an entry. -/
def beginGlobal (id : Int) (name datapath : String) (access : AccessMode) : SessionM Int := do
  let (sl, de) ← entryOf id
  let op ← operation fun uid => Operation.global de uid (normalizeName name) datapath access
  beginOperation sl op

/-- Starts an operation on the slice of a data object at time `time`. -/
def beginSlice (id : Int) (name : String) (access : AccessMode) (time : Float)
    (interp : InterpMode) : SessionM Int := do
  let (sl, de) ← entryOf id
  let op ← operation fun uid =>
    Operation.withRange de uid (normalizeName name) access .slice time interp
  beginOperation sl op

/-- Starts an operation on the window `[tmin, tmax]` of a data object, resampled by `dtime`. -/
def beginTimeRange (id : Int) (name : String) (access : AccessMode) (tmin tmax : Float)
    (dtime : List Float) (interp : InterpMode) : SessionM Int := do
  let sl ← lookup id
  if !((← get).backends.getD sl.backend .empty).timeRanges then
    Failure.raise (.lowlevel "Selected backend does not support time range operations.")
  let de ← match sl.context with
    | .entry de => pure de
    | _ => Failure.raise Failure.wrongContext
  let op ← operation fun uid =>
    Operation.timeRange de uid (normalizeName name) access tmin tmax dtime interp
  beginOperation sl op

/-- Opens an array of structures below an operation or an array. A write passes its size, a
read learns it; an empty array is ended at once and answers identifier 0. -/
def beginArray (id : Int) (path timebase : String) (size : Int) : SessionM (Int × Int) := do
  let sl ← lookup id
  let s ← get
  let uid := s.lastUid + 1
  let c ← match s.live sl.context with
    | .array p => pure (ArrayContext.nested p uid path timebase)
    | .operation o => pure (ArrayContext.top o uid path timebase)
    | .entry _ => Failure.raise Failure.wrongContext
  set { s with lastUid := uid, indices := (uid, 0) :: s.indices }
  let n ← onBackend sl.backend (Backend.beginArray c size)
  if n ≤ 0 then
    onBackend sl.backend (Backend.endAction (.array c))
    if n < 0 then
      Failure.raise (.lowlevel ("Returned size for array of structure is negative! (" ++
        toString n ++ ")"))
    return (0, 0)
  let aid ← add sl.backend (.array c)
  note .debug ("begin arraystruct " ++ path ++ " (" ++ toString n ++ " elements) as " ++
    toString aid)
  return (aid, n)

/-- Moves an array's current index by `step`. -/
def iterate (id : Int) (step : Int) : SessionM Unit := do
  let sl ← lookup id
  match sl.context with
  | .array c => modify fun s => { s with
      indices := (c.uid, s.indexOf c.uid c.index + step) :: s.indices.filter (·.1 ≠ c.uid) }
  | _ => Failure.raise Failure.wrongContext

/-- Ends a context and frees its slot; identifier 0 is accepted and ignored. -/
def endAction (id : Int) : SessionM Unit := do
  if id = 0 then return
  let sl ← del id
  note .debug ("end " ++ Context.kindName sl.context.kindCode ++ " " ++ toString id)
  let ctx := (← get).live sl.context
  onBackend sl.backend (Backend.endAction ctx)

/-- Writes a field through a context; data without values is not written. -/
def writeData (id : Int) (field timebase : String) (data : Buffer) : SessionM Unit := do
  if !data.hasNonZeroShape then return
  let sl ← lookup id
  let ctx := (← get).live sl.context
  onBackend sl.backend (Backend.writeData ctx field timebase data)

/-- Reads a field expected as type `dt` in `dim` dimensions: missing data reads as unset, data
of another type is converted, data of another dimension is refused. -/
def readData (id : Int) (field timebase : String) (dt : DataType) (dim : Int) :
    SessionM Buffer := do
  let sl ← lookup id
  let ctx := (← get).live sl.context
  match ← onBackend sl.backend (Backend.readData ctx field timebase) with
  | none => Except.toCall (Buffer.unset dt dim)
  | some data =>
    if (data.dim : Int) ≠ dim then
      Failure.raise (.lowlevel ("Wrong dimension of Data returned by backend: expected " ++
        dt.name ++ " in " ++ toString dim ++ "D but got " ++ data.type.name ++ " in " ++
        toString data.dim ++ "D"))
    else if data.type ≠ dt then
      note .warn ("Warning: " ++ ctx.dataEntry.uri.render ++ "/" ++ field ++ " returned with type " ++
        data.type.name ++ " while we expect type " ++ dt.name)
      Except.toCall (data.convert dt dim)
    else pure data

/-- Removes a path from the data object of an operation. -/
def deleteData (id : Int) (path : String) : SessionM Unit := do
  let sl ← lookup id
  match sl.context with
  | .operation op => onBackend sl.backend (Backend.deleteData op path)
  | _ => Failure.raise Failure.wrongContext

/-- The occurrences of a data object that hold data in an entry. -/
def occurrences (id : Int) (name : String) : SessionM (List Int) := do
  let (sl, de) ← entryOf id
  onBackend sl.backend (Backend.occurrences de name)

/-- The description of a context, its backend shown by `pointer`; identifier 0 is the null
context. -/
def contextInfo (id : Int) (pointer : Nat → String) : SessionM String := do
  if id = 0 then return "NULL context"
  let sl ← lookup id
  let ctx := (← get).live sl.context
  return "Context type = " ++ toString ctx.kindCode ++ "\nBackend @ = " ++ pointer sl.backend ++
    "\n" ++ ctx.render

/-- The storage kind of a context's data entry. -/
def backendId (id : Int) : SessionM BackendId := do
  return (← lookup id).context.backend

end Session

end AccessLayer
