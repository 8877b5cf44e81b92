import AccessLayer.Command.Run
/-!
The `alctl` command on a machine. A run of the tool is pure: it sees the machine through an
`Invocation` and leaves an `Outcome`. This layer fills the invocation from the machine (the
variables the tool reads, the account table, and the files a run reads, loaded until the run
names no new path, since a configuration file may name others), then writes the output and error
streams, puts back the files the run changed, and exits with the run's status.
-/
namespace AccessLayer.Machine

/-- What the machine holds at a path. -/
inductive Found where
  | file (bytes : ByteArray)
  | directory
  | absent

/-- Looks at a path: a file with its bytes, a directory, or nothing that can be read. -/
def probe (p : String) : IO Found := do
  match ← EIO.toBaseIO (IO.FS.readBinFile p) with
  | .ok bytes => pure (.file bytes)
  | .error (.inappropriateType _ 21 _) => pure .directory
  | .error _ => pure .absent

/-- The disk with a path of the machine added: a file with its directory, a directory, or for a
path that holds nothing, its directory when that exists. -/
def load (d : Disk) (p : String) : IO Disk := do
  match ← probe p with
  | .file bytes => pure (d.perform (Disk.makeAll (Disk.dirOf p) *> Disk.writeFile p bytes.toList)).1
  | .directory => pure (d.perform (Disk.makeAll p)).1
  | .absent =>
    match ← probe (Disk.dirOf p) with
    | .directory => pure (d.perform (Disk.makeAll (Disk.dirOf p))).1
    | _ => pure d

/-- Loads the paths a run reads, again while loading names new ones, at most `fuel` times. -/
def gather (inv : Invocation) (seen : List String) : Nat → IO Invocation
  | 0 => pure inv
  | fuel + 1 => do
    let fresh := inv.paths.filter (· ∉ seen)
    if fresh.isEmpty then pure inv
    else
      let disk ← fresh.foldlM load inv.disk
      gather { inv with disk } (seen ++ fresh) fuel

/-- Writes back what a run changed: the directories it made, then the files it made or changed. -/
def store (before after : Disk) : IO Unit := do
  let changed := after.entries.filter fun (k, e) => match e, before.entries.lookup k with
    | .directory, some .directory => false
    | .file new, some (.file old) => new != old
    | _, _ => true
  for (k, e) in changed do
    if let .directory := e then IO.FS.createDirAll k
  for (k, e) in changed do
    if let .file bytes := e then IO.FS.writeBinFile k (ByteArray.mk bytes.toArray)

/-- The accounts of the machine with their home directories. -/
def accounts : IO (List (String × String)) := do
  match ← EIO.toBaseIO (IO.FS.readFile "/etc/passwd") with
  | .ok table => pure (Environment.accountsOf table)
  | .error _ => pure []

end AccessLayer.Machine

open AccessLayer AccessLayer.Machine in
/-- Runs the tool on its arguments; the status is 1 when the command failed. -/
def main (args : List String) : IO UInt32 := do
  let vars ← variableNames.filterMapM fun name => do
    pure ((← IO.getEnv name).map (name, ·))
  let inv ← gather { args, vars, accounts := ← accounts } [] 8
  let outcome := inv.run
  let out ← IO.getStdout
  out.putStr outcome.out
  out.flush
  let err ← IO.getStderr
  err.putStr outcome.err
  err.flush
  store inv.disk outcome.disk
  pure outcome.status
