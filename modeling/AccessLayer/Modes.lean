/-!
The modes of access requests. Each mode travels as an integer code and keeps any code it is
given; only the listed codes have names, and any other is printed with the mode's name and the
number.
-/
namespace AccessLayer

/-- The name of a code among `names`, numbered from zero, or `Kind(n)` for any other code. -/
def codeName (kind : String) (names : List String) (n : Int) : String :=
  if 0 ≤ n then
    match names[n.toNat]? with
    | some s => s
    | none => kind ++ "(" ++ toString n ++ ")"
  else kind ++ "(" ++ toString n ++ ")"

/-- The direction of an operation: read, write, or replace. -/
structure AccessMode where
  code : Int
  deriving Repr, DecidableEq, Inhabited

namespace AccessMode
def read : AccessMode := ⟨0⟩
def write : AccessMode := ⟨1⟩
def replace : AccessMode := ⟨2⟩
def name (m : AccessMode) : String := codeName "AccessMode" ["READ_OP", "WRITE_OP", "REPLACE_OP"] m.code
def valid (m : AccessMode) : Bool := 0 ≤ m.code && m.code ≤ 2
end AccessMode

/-- The time scope of an operation: the whole data object, one time slice, or a time range. -/
structure RangeMode where
  code : Int
  deriving Repr, DecidableEq, Inhabited

namespace RangeMode
def global : RangeMode := ⟨0⟩
def slice : RangeMode := ⟨1⟩
def timeRange : RangeMode := ⟨2⟩
def name (m : RangeMode) : String :=
  codeName "RangeMode" ["GLOBAL_OP", "SLICE_OP", "TIMERANGE_OP"] m.code
def valid (m : RangeMode) : Bool := 0 ≤ m.code && m.code ≤ 2
end RangeMode

/-- How samples are picked or combined when a requested time falls between stored samples. -/
structure InterpMode where
  code : Int
  deriving Repr, DecidableEq, Inhabited

namespace InterpMode
def undefined : InterpMode := ⟨0⟩
def closest : InterpMode := ⟨1⟩
def previous : InterpMode := ⟨2⟩
def linear : InterpMode := ⟨3⟩
def name (m : InterpMode) : String :=
  codeName "InterpMode" ["UNDEFINED_INTERP", "CLOSEST_INTERP", "PREVIOUS_INTERP", "LINEAR_INTERP"]
    m.code
def valid (m : InterpMode) : Bool := 0 ≤ m.code && m.code ≤ 3
end InterpMode

/-- How a data entry is opened: open or create, each plain or forced. -/
structure OpenMode where
  code : Int
  deriving Repr, DecidableEq, Inhabited

namespace OpenMode
def openEntry : OpenMode := ⟨0⟩
def forceOpen : OpenMode := ⟨1⟩
def create : OpenMode := ⟨2⟩
def forceCreate : OpenMode := ⟨3⟩
def name (m : OpenMode) : String :=
  codeName "OpenMode" ["OPEN_PULSE", "FORCE_OPEN_PULSE", "CREATE_PULSE", "FORCE_CREATE_PULSE"]
    m.code
end OpenMode

/-- What closing a data entry does to it: keep it, or erase it. -/
structure CloseMode where
  code : Int
  deriving Repr, DecidableEq, Inhabited

namespace CloseMode
def close : CloseMode := ⟨0⟩
def erase : CloseMode := ⟨1⟩
def name (m : CloseMode) : String := codeName "CloseMode" ["CLOSE_PULSE", "ERASE_PULSE"] m.code
end CloseMode

/-- The storage backends a data entry can live in. -/
structure BackendId where
  code : Int
  deriving Repr, DecidableEq, Inhabited

namespace BackendId
def none : BackendId := ⟨0⟩
def ascii : BackendId := ⟨1⟩
def mdsplus : BackendId := ⟨2⟩
def hdf5 : BackendId := ⟨3⟩
def memory : BackendId := ⟨4⟩
def uda : BackendId := ⟨5⟩
def flexbuffers : BackendId := ⟨6⟩
def serialize : BackendId := ⟨7⟩
def name (b : BackendId) : String :=
  codeName "BackendID" ["NO_BACKEND", "ASCII_BACKEND", "MDSPLUS_BACKEND", "HDF5_BACKEND",
    "MEMORY_BACKEND", "UDA_BACKEND", "FLEXBUFFERS_BACKEND", "SERIALIZE_BACKEND"] b.code
end BackendId

/-- The time that stands for "no time given". -/
def undefinedTime : Float := -999999999.0

end AccessLayer
