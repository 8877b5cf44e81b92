import AccessLayer.Disk.Path
import AccessLayer.Keyed
/-!
A small disk: files and directories keyed by cleaned path, and the calls the serialized store
makes on it, failing as the system reports it. The working directory `.` and the root `/` are
directories that always exist; every other entry sits in a directory.

A call that fails part-way keeps what it did before failing, as the system does: the calls run
in `EStateM DiskError Disk`, whose error result carries the disk at the point of failure.
-/
namespace AccessLayer

/-- A stored entry. -/
inductive DiskEntry where
  | file (bytes : List UInt8)
  | directory
  deriving Inhabited, DecidableEq

/-- Why a system call fails. -/
inductive Errno where
  | notFound
  | notDirectory
  | isDirectory
  | exists
  | notEmpty
  | invalid
  deriving Inhabited, DecidableEq, Repr

/-- The system's text for each cause. -/
def Errno.text : Errno → String
  | .notFound => "no such file or directory"
  | .notDirectory => "not a directory"
  | .isDirectory => "is a directory"
  | .exists => "file exists"
  | .notEmpty => "directory not empty"
  | .invalid => "invalid argument"

/-- A failed call on a path, or on two paths for a rename. -/
structure DiskError where
  op : String
  path : String
  /-- The new name, for a rename. -/
  target : Option String := none
  cause : Errno
  deriving Inhabited

/-- `<call> <path>: <cause>`, with both names for a rename. -/
def DiskError.message (e : DiskError) : String :=
  e.op ++ " " ++ e.path ++ (match e.target with | some t => " " ++ t | none => "") ++ ": " ++
    e.cause.text

/-- Files and directories by cleaned path. -/
structure Disk where
  entries : List (String × DiskEntry) := []
  deriving Inhabited

/-- Calls on the disk. -/
abbrev DiskM := EStateM DiskError Disk

namespace Disk

/-- The entries a cleaned path goes through, shortest first, itself last; none for `.` and
`/`. -/
def ancestry (c : String) : List String :=
  let parts := cleanParts c
  let root := if rooted c then "/" else ""
  (List.range parts.length).map fun k => root ++ "/".intercalate (parts.take (k + 1))

/-- Follows a chain of entries: every one but the last must be a directory. -/
def walk (d : Disk) : List String → Except Errno DiskEntry
  | [] => .ok .directory
  | [k] => match d.entries.lookup k with
    | some e => .ok e
    | none => .error .notFound
  | k :: rest => match d.entries.lookup k with
    | some .directory => walk d rest
    | some (.file _) => .error .notDirectory
    | none => .error .notFound

/-- What a path names, or why it names nothing. -/
def resolve (d : Disk) (p : String) : Except Errno DiskEntry := d.walk (ancestry (clean p))

/-- The directory holding a cleaned path. -/
def parentKey (k : String) : String := clean (k ++ "/..")

/-- Whether some entry lies below `k`. -/
def hasChildren (d : Disk) (k : String) : Bool :=
  d.entries.any fun (k', _) => k'.startsWith (k ++ "/")

/-- The disk with `k` set to `e`. -/
def setEntry (d : Disk) (k : String) (e : DiskEntry) : Disk :=
  { entries := Keyed.insert k e d.entries }

/-- The disk without `k` and what lies below it. -/
def eraseTree (d : Disk) (k : String) : Disk :=
  { entries := d.entries.filter fun (k', _) => !(k' = k || k'.startsWith (k ++ "/")) }

/-- Makes one directory in an existing directory. -/
def mkdir (p : String) : DiskM Unit := do
  let d ← get
  match d.resolve p with
  | .ok _ => throw { op := "mkdir", path := p, cause := .exists }
  | .error _ =>
    let k := clean p
    match d.resolve (parentKey k) with
    | .ok .directory => set (d.setEntry k .directory)
    | .ok (.file _) => throw { op := "mkdir", path := p, cause := .notDirectory }
    | .error e => throw { op := "mkdir", path := p, cause := e }

/-- Makes a directory and the missing directories above it, with at most `fuel` levels. -/
def makeAllUpTo : Nat → String → DiskM Unit
  | 0, _ => pure ()
  | fuel + 1, p => do
    match (← get).resolve p with
    | .ok .directory => pure ()
    | .ok (.file _) => throw { op := "mkdir", path := p, cause := .notDirectory }
    | .error _ =>
      let parent := mkdirParent p
      if parent ≠ "" then makeAllUpTo fuel parent
      tryCatch (mkdir p) fun e => do
        match (← get).resolve p with
        | .ok .directory => pure ()
        | _ => throw e

/-- Makes a directory with all the directories above it; an existing directory is fine, an
existing file is not. -/
def makeAll (p : String) : DiskM Unit := makeAllUpTo (p.length + 1) p

/-- Removes a file or an empty directory. -/
def remove (p : String) : DiskM Unit := do
  let d ← get
  let k := clean p
  match d.resolve p with
  | .ok (.file _) => set (d.eraseTree k)
  | .ok .directory =>
    if k = "." || k = "/" then throw { op := "remove", path := p, cause := .invalid }
    else if d.hasChildren k then throw { op := "remove", path := p, cause := .notEmpty }
    else set (d.eraseTree k)
  | .error e => throw { op := "remove", path := p, cause := e }

/-- Removes a path and everything below it. A missing path is fine; a path through a file is
not. -/
def removeAll (p : String) : DiskM Unit := do
  if p = "" then pure ()
  else if endsWithDot p then throw { op := "RemoveAll", path := p, cause := .invalid }
  else
    let d ← get
    match (remove p).run d with
    | .ok _ d' => set d'
    | .error e _ =>
      if e.cause = .notFound then pure ()
      else
        let (dir, base) := splitLast p
        match d.resolve dir with
        | .error .notFound => pure ()
        | .error c => throw { op := "open", path := dir, cause := c }
        | .ok (.file _) => throw { op := "unlinkat", path := dir ++ "/" ++ base, cause := .notDirectory }
        | .ok .directory => set (d.eraseTree (clean (dir ++ "/" ++ base)))

/-- Writes a file, making it or replacing its bytes; its directory must exist. -/
def writeFile (p : String) (bytes : List UInt8) : DiskM Unit := do
  let d ← get
  let k := clean p
  match d.resolve p with
  | .ok .directory => throw { op := "open", path := p, cause := .isDirectory }
  | .ok (.file _) => set (d.setEntry k (.file bytes))
  | .error .notFound =>
    match d.resolve (parentKey k) with
    | .ok .directory => set (d.setEntry k (.file bytes))
    | .ok (.file _) => throw { op := "open", path := p, cause := .notDirectory }
    | .error e => throw { op := "open", path := p, cause := e }
  | .error e => throw { op := "open", path := p, cause := e }

/-- Opens a file for appending: an existing file is kept as it is, a missing one is made empty. -/
def openAppend (p : String) : DiskM Unit := do
  match (← get).resolve p with
  | .ok (.file _) => pure ()
  | _ => writeFile p []

/-- Adds bytes at the end of a file, making it when it is missing. -/
def appendFile (p : String) (bytes : List UInt8) : DiskM Unit := do
  match (← get).resolve p with
  | .ok (.file old) => writeFile p (old ++ bytes)
  | _ => writeFile p bytes

/-- The disk with the entries at and below `src` moved to `dst`. -/
def moveTree (d : Disk) (src dst : String) : Disk :=
  let moved := d.entries.filterMap fun (k, e) =>
    if k = src then some (dst, e)
    else if k.startsWith (src ++ "/") then some (dst ++ (k.drop src.length).toString, e)
    else none
  moved.foldl (fun acc (k, e) => acc.setEntry k e) ((d.eraseTree src).eraseTree dst)

/-- Renames `old` to `new`, replacing a file there; a directory there is refused. -/
def rename (old new : String) : DiskM Unit := do
  let d ← get
  let fail (c : Errno) : DiskM Unit := throw { op := "rename", path := old, target := some new, cause := c }
  let ko := clean old
  let kn := clean new
  match d.resolve new with
  | .ok .directory =>
    match d.resolve old with
    | .error c => fail c
    | .ok _ => if old = new || ko ≠ kn then fail .exists else pure ()
  | _ =>
    match d.resolve old with
    | .error c => fail c
    | .ok eo =>
      match d.resolve (parentKey kn) with
      | .error c => fail c
      | .ok (.file _) => fail .notDirectory
      | .ok .directory =>
        match eo, d.resolve new with
        | .directory, .ok (.file _) => fail .notDirectory
        | _, _ => if ko = kn then pure () else set (d.moveTree ko kn)

/-- The bytes of a file: opening fails on a missing path, reading fails on a directory. -/
def readFile (d : Disk) (p : String) : Except DiskError (List UInt8) :=
  match d.resolve p with
  | .ok (.file b) => .ok b
  | .ok .directory => .error { op := "read", path := p, cause := .isDirectory }
  | .error c => .error { op := "open", path := p, cause := c }

/-- Runs calls on a disk: the disk after them, and the failure that stopped them, if any. -/
def perform (d : Disk) (m : DiskM Unit) : Disk × Option DiskError :=
  match m.run d with
  | .ok _ d' => (d', none)
  | .error e d' => (d', some e)

/-- The paths below the working directory in text order, directories ending in `/`. -/
def listing (d : Disk) : List String :=
  let inside := d.entries.filter fun (k, _) => !(rooted k) && !(k = ".." || k.startsWith "../")
  (inside.map fun (k, e) => match e with
    | .directory => k ++ "/"
    | .file _ => k).mergeSort fun a b => decide (a ≤ b)

end Disk

end AccessLayer
