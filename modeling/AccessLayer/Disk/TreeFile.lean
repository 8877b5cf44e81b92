import AccessLayer.Disk.Basic
import AccessLayer.Frame
/-!
Tree files: a data object stored on the disk as one frame of its encoded tree. Writing makes the
directory, writes a temporary file beside the target and renames it into place, so a failed
rename leaves the temporary file behind. Reading a missing file finds nothing; any other failure
says where it happened.
-/
namespace AccessLayer

/-- Why a tree file does not read back. -/
inductive TreeFileError where
  /-- The file does not open. -/
  | disk (e : DiskError)
  /-- The path names a directory, which has no bytes to read. -/
  | directory (path : String)
  /-- The bytes are not a frame. -/
  | frame (path : String) (e : FrameError)
  /-- The payload is not an encoded tree. -/
  | decode (f : Failure)
  deriving Inhabited

/-- The text of each reason; frame failures name the file. -/
def TreeFileError.message : TreeFileError → String
  | .disk e => e.message
  | .directory p => p ++ ": read frame header: read " ++ p ++ ": " ++ Errno.isDirectory.text
  | .frame p e => p ++ ": " ++ e.message
  | .decode f => f.message

namespace Disk

/-- Stores a tree at `path` as a frame at `level`. -/
def writeTreeFile (path : String) (t : Tree) (level : CompressionLevel) : DiskM Unit := do
  makeAll (dirOf path)
  writeFile (path ++ ".tmp") (frameBytes t.encode level)
  rename (path ++ ".tmp") path

/-- The tree stored at `path`; none when there is no file. -/
def readTreeFile (d : Disk) (path : String) : Except TreeFileError (Option Tree) :=
  match d.resolve path with
  | .error .notFound => .ok none
  | .error c => .error (.disk { op := "open", path, cause := c })
  | .ok .directory => .error (.directory path)
  | .ok (.file bs) =>
    match readFrame bs with
    | .error e => .error (.frame path e)
    | .ok c =>
      match Tree.decode c.payload with
      | .ok t => .ok (some t)
      | .error f => .error (.decode f)

end Disk

end AccessLayer
