import AccessLayer.Context.Operation
import AccessLayer.Text.Quote
/-!
Positions inside arrays of structures. An array context names an array below the current element
of its parent (the operation, or an enclosing array) and holds the index of its own current
element, the only part of a context that changes. An array with a time base is time dependent:
its elements are time slices.
-/
namespace AccessLayer

/-- One array level: its identifier, path, time base and current index. -/
structure ArrayLevel where
  uid : Nat
  path : String
  timebase : String
  index : Int
  deriving Repr, Inhabited

/-- A position in an array of structures of an operation, with the levels of the enclosing
arrays, innermost first. -/
structure ArrayContext where
  op : Operation
  level : ArrayLevel
  /-- The enclosing arrays as they were when this one was opened, innermost first. -/
  ancestors : List ArrayLevel := []
  deriving Inhabited

namespace ArrayLevel

/-- Whether the array is time dependent. -/
def timed (l : ArrayLevel) : Bool := l.timebase ≠ ""

end ArrayLevel

namespace ArrayContext

/-- A top-level array of `op`. -/
def top (op : Operation) (uid : Nat) (path timebase : String) : ArrayContext :=
  ⟨op, ⟨uid, path, timebase, 0⟩, []⟩

/-- An array inside the current element of `parent`, starting at `index`. -/
def nested (parent : ArrayContext) (uid : Nat) (path timebase : String) (index : Int := 0) :
    ArrayContext :=
  ⟨parent.op, ⟨uid, path, timebase, index⟩, parent.level :: parent.ancestors⟩

def uid (c : ArrayContext) : Nat := c.level.uid
def path (c : ArrayContext) : String := c.level.path
def timebase (c : ArrayContext) : String := c.level.timebase
def index (c : ArrayContext) : Int := c.level.index
def timed (c : ArrayContext) : Bool := c.level.timed

/-- The enclosing array, if any. -/
def parent? (c : ArrayContext) : Option ArrayContext :=
  match c.ancestors with
  | [] => none
  | p :: rest => some ⟨c.op, p, rest⟩

/-- Moves the current index by `step`, which may be negative. -/
def advance (c : ArrayContext) (step : Int) : ArrayContext :=
  { c with level := { c.level with index := c.level.index + step } }

/-- Whether this array or an enclosing one is time dependent. -/
def insideTimed (c : ArrayContext) : Bool := c.timed || c.ancestors.any ArrayLevel.timed

/-- The description of an array position, after that of its operation. -/
def render (c : ArrayContext) : String :=
  c.op.render ++
    "path \t\t\t = " ++ Text.quote c.path ++ "\n" ++
    "timebase \t\t = " ++ Text.quote c.timebase ++ "\n" ++
    "timed \t\t\t = " ++ (if c.timed then "yes" else "no") ++ "\n" ++
    "parent \t\t\t = " ++ (match c.ancestors with | [] => "NULL" | p :: _ => p.path) ++ "\n" ++
    "index \t\t\t = " ++ toString c.index ++ "\n"

end ArrayContext

/-- A context of any kind: a data entry, an operation or an array position. -/
inductive Context where
  | entry (e : DataEntry)
  | operation (o : Operation)
  | array (a : ArrayContext)
  deriving Inhabited

namespace Context

/-- The code of each kind: 1 data entry, 2 operation, 3 array. -/
def kindCode : Context → Int
  | .entry _ => 1
  | .operation _ => 2
  | .array _ => 3

/-- The name of a kind code. -/
def kindName (n : Int) : String :=
  if n = 1 then "CTX_PULSE_TYPE"
  else if n = 2 then "CTX_OPERATION_TYPE"
  else if n = 3 then "CTX_ARRAYSTRUCT_TYPE"
  else "Type(" ++ toString n ++ ")"

def uid : Context → Nat
  | .entry e => e.uid
  | .operation o => o.uid
  | .array a => a.uid

/-- The data entry the context belongs to. -/
def dataEntry : Context → DataEntry
  | .entry e => e
  | .operation o => o.entry
  | .array a => a.op.entry

def backend (c : Context) : BackendId := c.dataEntry.backend

def render : Context → String
  | .entry e => e.render
  | .operation o => o.render
  | .array a => a.render

end Context

end AccessLayer
