import AccessLayer.Backend.Serialize
import AccessLayer.Environment
/-!
Backends: where the data of an entry goes. The memory backend keeps it in the store shared by a
session, the serialized backend in tree files on the disk, and the empty backend accepts every
call and keeps nothing. A factory picks the backend of a data entry; other storage kinds are not
available and are refused.

A call on a backend sees the backend's own state and the `Medium` it shares with the other
backends of a session: the store and the disk.
-/
namespace AccessLayer

/-- A backend and its state. -/
inductive Backend where
  /-- Accepts every call and stores nothing. -/
  | empty
  | memory (b : MemoryBackend)
  | serialize (b : SerializeBackend)
  deriving Inhabited

/-- What the backends of a session share. -/
structure Medium where
  store : Store := {}
  disk : Disk := {}
  deriving Inhabited

/-- Calls on a backend and the shared medium. -/
abbrev BackendCall := EStateM Fault (Backend × Medium)

/-- How a session makes the backend of a data entry. -/
structure Factory where
  /-- Every entry gets the empty backend. -/
  allEmpty : Bool := false
  /-- Memory backends get time interpolation. -/
  interpolation : Bool := true
  deriving Inhabited

/-- The name of a storage kind in messages. -/
def BackendId.label (b : BackendId) : String :=
  if b = .ascii then "ASCII"
  else if b = .mdsplus then "MDSplus"
  else if b = .hdf5 then "HDF5"
  else if b = .uda then "UDA"
  else if b = .flexbuffers then "FlexBuffers"
  else b.name

/-- The backend of a data entry: empty, memory or serialized; the serialized backend compresses
at the environment's level. -/
def Factory.make (f : Factory) (env : Environment) (e : DataEntry) : Except Failure Backend :=
  if f.allEmpty then .ok .empty
  else if e.backend = .memory then .ok (.memory { interpolation := f.interpolation })
  else if e.backend = .none then .ok .empty
  else if e.backend = .serialize then
    match CompressionLevel.ofName env.serializeLevel with
    | .ok level => .ok (.serialize { level })
    | .error m => .error (.backend m)
  else .error (.backend (e.backend.label ++ " backend is not available within current install"))

namespace Backend

/-- A memory call on this backend. -/
def onMemory {α : Type} (b : MemoryBackend) (call : MemoryCall α) : BackendCall α := fun (_, m) =>
  match call (b, m.store) with
  | .ok a (b', st) => .ok a (.memory b', { m with store := st })
  | .error e (b', st) => .error e (.memory b', { m with store := st })

/-- A serialized call on this backend. -/
def onSerialize {α : Type} (b : SerializeBackend) (call : SerializeCall α) : BackendCall α :=
  fun (_, m) =>
  match call (b, m.disk) with
  | .ok a (b', d) => .ok a (.serialize b', { m with disk := d })
  | .error e (b', d) => .error e (.serialize b', { m with disk := d })

/-- Runs the call of the backend's kind, or gives `none` for the empty backend. -/
def dispatch {α : Type} (none : α) (memory : MemoryCall α) (serialize : SerializeCall α) :
    BackendCall α := do
  match (← get).1 with
  | .empty => pure none
  | .memory b => onMemory b memory
  | .serialize b => onSerialize b serialize

/-- Whether the backend reads time ranges. -/
def timeRanges : Backend → Bool
  | .memory _ => true
  | _ => false

/-- Opens a data entry. -/
def openPulse (e : DataEntry) (mode : OpenMode) : BackendCall Unit :=
  dispatch () (MemoryBackend.openPulse e mode) (SerializeBackend.openPulse e mode)

/-- Closes a data entry. -/
def closePulse (e : DataEntry) (mode : CloseMode) : BackendCall Unit :=
  dispatch () (MemoryBackend.closePulse e mode) (SerializeBackend.closePulse mode)

/-- Starts an operation. -/
def beginAction (op : Operation) : BackendCall Unit :=
  dispatch () (MemoryBackend.beginAction op) (SerializeBackend.beginAction op)

/-- Ends what a context began. -/
def endAction (ctx : Context) : BackendCall Unit :=
  dispatch () (MemoryBackend.endAction ctx) (SerializeBackend.endAction ctx)

/-- Writes a field through a context. -/
def writeData (ctx : Context) (field timebase : String) (data : Buffer) : BackendCall Unit :=
  dispatch () (MemoryBackend.writeData ctx field timebase data)
    (SerializeBackend.writeData ctx field timebase data)

/-- Reads a field through a context; none when there is no data. -/
def readData (ctx : Context) (field timebase : String) : BackendCall (Option Buffer) :=
  dispatch none (MemoryBackend.readData ctx field timebase) (SerializeBackend.readData ctx field)

/-- Removes a path from the object of a write. -/
def deleteData (op : Operation) (path : String) : BackendCall Unit :=
  dispatch () (MemoryBackend.deleteData op path) (pure ())

/-- Opens an array of structures; gives its size. -/
def beginArray (c : ArrayContext) (size : Int) : BackendCall Int :=
  dispatch 0 (MemoryBackend.beginArray c size) (SerializeBackend.beginArray c size)

/-- The occurrences of a data object that hold data. -/
def occurrences (e : DataEntry) (name : String) : BackendCall (List Int) := do
  let m := (← get).2
  dispatch [] (pure (MemoryBackend.occurrences m.store e name))
    (Failure.raise (.backend "get_occurrences is not implemented in the Serialize Backend"))

end Backend

end AccessLayer
