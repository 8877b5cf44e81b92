import AccessLayer.Text.Fold
import AccessLayer.Text.Quote
/-!
Compression levels of the payload encoder, named `fastest`, `default`, `better` and `best` and
numbered 1 to 4. Names are matched without regard to case; the empty name is the default level.
-/
namespace AccessLayer

/-- A compression level: 1 fastest, 2 default, 3 better, 4 best. Read from a frame, any byte. -/
structure CompressionLevel where
  code : Nat
  deriving Repr, DecidableEq, Inhabited

namespace CompressionLevel

def fastest : CompressionLevel := ⟨1⟩
def default : CompressionLevel := ⟨2⟩
def better : CompressionLevel := ⟨3⟩
def best : CompressionLevel := ⟨4⟩

/-- The names of the levels, in order. -/
def names : List (String × CompressionLevel) :=
  [("fastest", fastest), ("default", default), ("better", better), ("best", best)]

/-- The level with a given name; the empty name is the default level. -/
def ofName (name : String) : Except String CompressionLevel :=
  if name = "" then .ok default
  else
    match names.find? (fun p => Text.foldsTo name p.1) with
    | some (_, level) => .ok level
    | none => .error ("unknown compression level " ++ Text.quote name)

end CompressionLevel

end AccessLayer
