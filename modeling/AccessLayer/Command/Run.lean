import AccessLayer.Command.Help
import AccessLayer.Config.Settings
import AccessLayer.Session
/-!
Running `alctl`. A run selects a command from its arguments, reads the command's flags, and
then either shows help or runs the command:

1. a command that was asked for help (`-h`, `--help`), or that only groups other commands,
   shows its help text;
2. the positional arguments are checked against what the command takes;
3. every flag not given on the command line takes the variable `ALCTL_<NAME>` (the name upper-
   cased, dashes made underscores) when that is set and not empty;
4. the settings are loaded from the environment and the configuration file (`--config`), the
   log file (`--log-file`) is opened for appending, and the log level is chosen: `--log-level`
   over the settings' level, and only errors with `--quiet`;
5. the command runs: `uri` resolves a URI, `legacy-uri` builds one, `timebase` prints a
   resampled time basis, `read` reads a field of a stored data object, `help` shows the help of
   a command.

A refusal ends the run with `Error: <message>` on the error stream, after the log lines of what
ran; a word that names no command is followed by a hint to ask for help.
-/
namespace AccessLayer

/-- What a run of the tool is given: its arguments, the variables of its environment, the
accounts of the system with their home directories, and the disk it works on. -/
structure Invocation where
  args : List String
  vars : List (String × String) := []
  accounts : List (String × String) := []
  disk : Disk := {}

/-- What a run leaves: its output and error streams, the failure that ended it, and the disk after
it. -/
structure Outcome where
  out : String := ""
  err : String := ""
  failure : Option Failure := none
  disk : Disk := {}

namespace Outcome

/-- The lines of the error stream. -/
def errLines (o : Outcome) : List String :=
  match (o.err.splitOn "\n").reverse with
  | "" :: rest => rest.reverse
  | all => all.reverse

/-- The exit status: 0 for success, 1 for a failure. -/
def status (o : Outcome) : UInt32 := if o.failure.isSome then 1 else 0

end Outcome

/-- The variable that may stand for a flag. -/
def flagVariable (name : String) : String :=
  "ALCTL_" ++ String.ofList (name.toList.map fun c => if c = '-' then '_' else c.toUpper)

/-- Sets every flag not given on the command line from its variable, when that is set and not
empty, in the order of their names; a list flag takes the blank-separated words of the
variable. The first refused value ends the setting with the reader's message. -/
def Flags.fromVariables (fs : Flags) (vars : List (String × String)) : Except String Flags :=
  let sorted := fs.mergeSort fun a b => decide (a.spec.name ≤ b.spec.name)
  let step (acc : Flags) (f : Flag) : Except String Flags :=
    match (if f.changed then none else Environment.setting vars (flagVariable f.spec.name)) with
    | none => .ok acc
    | some v =>
      let v := match f.spec.kind with
        | .texts => ",".intercalate ((Text.fieldsBy Text.isBlank v.toList).map String.ofList)
        | _ => v
      match (acc.named f.spec.name).getD f |>.assign v with
      | .ok g => .ok (acc.put g)
      | .error e => .error e
  sorted.foldlM step fs

/-- What a command works with once its flags are read and the settings loaded. -/
structure Setting where
  flags : Flags
  args : List String
  env : Environment
  disk : Disk
  level : LogLevel
  /-- The file the log lines are also added to; empty for none. -/
  logFile : String

namespace Setting

def text (s : Setting) (name : String) : String := ((s.flags.named name).map Flag.text).getD ""
def whole (s : Setting) (name : String) : Int := ((s.flags.named name).map Flag.whole).getD 0
def real (s : Setting) (name : String) : Float := ((s.flags.named name).map Flag.real).getD 0
def texts (s : Setting) (name : String) : List String := ((s.flags.named name).map Flag.texts).getD []

end Setting

/-- What a command did: its output, the log records it made, and its failure if any. -/
structure Effect where
  out : String := ""
  records : List LogRecord := []
  failure : Option Failure := none

/-- The failure of a fault: a halt is reported with its reason. -/
def Fault.toFailure : Fault → Failure
  | .failure f => f
  | .halt reason => .plain reason

/-- The storage kinds `legacy-uri` knows, by name. -/
def legacyBackends : List (String × BackendId) :=
  [("mdsplus", .mdsplus), ("hdf5", .hdf5), ("ascii", .ascii), ("memory", .memory), ("uda", .uda)]

/-- The data types `read` knows, by name. -/
def dataTypeNames : List (String × DataType) :=
  [("char", .char), ("int", .integer), ("double", .double), ("complex", .complex)]

/-- `uri`: the description of the data entry of a URI and its storage kind. -/
def resolveCommand (s : Setting) : Effect :=
  match DataEntry.resolve s.env 1 (s.args.headD "") with
  | .error e => { failure := some e.failure }
  | .ok de => { out := de.render ++ "backend \t\t = " ++ toString de.backend.code ++ " (" ++
      de.backend.name ++ ")\n" }

/-- `legacy-uri`: the URI of legacy parameters. -/
def legacyCommand (s : Setting) : Effect :=
  let name := s.text "backend"
  match legacyBackends.lookup (Text.lowerForMatch name) with
  | none => { failure := some (.plain ("unknown backend " ++ Text.quote name)) }
  | some id =>
    match legacyUriText id (s.whole "pulse") (s.whole "run") (s.text "user") (s.text "database")
        (s.text "version") (s.text "options") with
    | .ok text => { out := text ++ "\n" }
    | .error f => { failure := some f }

/-- The times of `--dtime`: each text trimmed, empty ones passed over. -/
def readTimes (texts : List String) : Except String (List Float) :=
  let step (acc : List Float) (t : String) : Except String (List Float) :=
    let t := Text.trimBlank t
    if t = "" then .ok acc
    else match Numeral.readFloat t with
      | .ok x => .ok (acc ++ [x])
      | .error e => .error ("invalid time " ++ Text.quote t ++ ": " ++ e.message)
  texts.foldlM step []

/-- `timebase`: the resampled time basis of `[tmin, tmax]`, one time a line. -/
def timebaseCommand (s : Setting) : Effect :=
  let tmin := s.real "tmin"
  let tmax := s.real "tmax"
  match readTimes (s.texts "dtime") with
  | .error e => { failure := some (.plain e) }
  | .ok [] => { failure := some (.plain "--dtime is required") }
  | .ok dt =>
    if tmin > tmax then
      { failure := some (.plain ("wrong time range [" ++ Float.general tmin ++ ", " ++
          Float.general tmax ++ "]")) }
    else match resampleTimebasis tmin tmax dt (-1) with
      | .error f => { failure := some f.toFailure }
      | .ok (n, tb) =>
        let times := match tb.cells with
          | some (.doubles v) => v.take n
          | _ => []
        { out := String.join (times.map fun t => Float.general t ++ "\n") }

/-- The text of a buffer: its type and shape on one line, its data on the next. Characters are
written up to the first zero byte; numbers as a bracketed list. -/
def Buffer.display (b : Buffer) : String :=
  let listed (xs : List String) : String := "[" ++ " ".intercalate xs ++ "]"
  let head := b.type.name ++ " " ++ listed (b.shape.map toString) ++ "\n"
  let body := match b.cells with
    | some (.chars _) => Text.stringOfBytes b.text
    | some (.ints v) => listed (v.map fun x => toString x.toInt)
    | some (.doubles v) => listed (v.map Float.general)
    | some (.complex v) => listed (v.map fun z => Float.complexText z.re z.im)
    | none => if b.type = .char then "" else "[]"
  head ++ body ++ "\n"

/-- Runs a call and passes over its failure. -/
def SessionM.quietly (m : SessionM Unit) : SessionM Unit := tryCatch m fun _ => pure ()

/-- Opens a data entry, begins a global read of a data object, reads a field, and ends what it
began, innermost first, also when a later step fails. -/
def readField (uri name field timebase : String) (dt : DataType) (dim : Int) : SessionM Buffer := do
  let de ← Session.beginDataEntry uri .openEntry
  let data ← tryCatch (do
      let op ← Session.beginGlobal de name "" .read
      let data ← tryCatch (Session.readData op field timebase dt dim) fun e => do
        SessionM.quietly (Session.endAction op)
        throw e
      SessionM.quietly (Session.endAction op)
      pure data) fun e => do
    SessionM.quietly (Session.endAction de)
    throw e
  SessionM.quietly (Session.endAction de)
  pure data

/-- `read`: a field of a stored data object, with the log of the session that read it. -/
def readCommand (s : Setting) : Effect :=
  let typeName := s.text "type"
  match dataTypeNames.lookup (Text.lowerForMatch typeName) with
  | none => { failure := some (.plain ("unknown data type " ++ Text.quote typeName)) }
  | some dt =>
    let session : Session := { env := s.env, medium := { disk := s.disk } }
    let args := s.args
    match (readField (args.getD 0 "") (args.getD 1 "") (args.getD 2 "") (s.text "timebase") dt
        (s.whole "dim")).run session with
    | .ok data after => { out := data.display, records := after.journal }
    | .error e after => { records := after.journal, failure := some e.toFailure }

/-- `help`: the help of the command the arguments name, or the root's usage after a note that
they name none. -/
def helpCommand (s : Setting) : Effect :=
  let (target, _, refusal) := selectVerb s.args
  match refusal with
  | some _ =>
    { out := "Unknown help topic [" ++ " ".intercalate (s.args.map Text.quotePlain) ++ "]\n" ++
        Verb.root.usage false }
  | none => { out := target.helpText true }

/-- What a command does. Completion scripts are not written. -/
def Verb.perform (v : Verb) (s : Setting) : Effect :=
  match v with
  | .uri => resolveCommand s
  | .legacyUri => legacyCommand s
  | .timebase => timebaseCommand s
  | .read => readCommand s
  | .help => helpCommand s
  | _ => {}

/-- The refusal of positional arguments a command does not take. -/
def Verb.checkArgs (v : Verb) (args : List String) : Option String :=
  match v.args, args with
  | .any, _ => none
  | .none, [] => none
  | .none, a :: _ => some ("unknown command " ++ Text.quote a ++ " for " ++ Text.quote v.path)
  | .exactly n, _ =>
    if args.length = n then none
    else some ("accepts " ++ toString n ++ " arg(s), received " ++ toString args.length)

/-- Loads the settings, opens the log file and chooses the log level. -/
def prepare (inv : Invocation) (fs : Flags) (args : List String) : Except String Setting := do
  let text (name : String) : String := ((fs.named name).map Flag.text).getD ""
  let env ← Environment.load inv.vars inv.accounts inv.disk (text "config")
  let disk ← if text "log-file" = "" then pure inv.disk
    else match Disk.perform inv.disk (Disk.openAppend (text "log-file")) with
      | (d, none) => pure d
      | (_, some e) => throw ("failed to open log file: " ++ e.message)
  let name := if text "log-level" = "" then env.logLevel else text "log-level"
  let level ← LogLevel.ofName name
  let quiet := ((fs.named "quiet").map Flag.switch).getD false
  pure { flags := fs, args, env, disk, level := if quiet then .error else level,
         logFile := text "log-file" }

/-- Runs the tool. -/
def Invocation.run (inv : Invocation) : Outcome :=
  let refuse (disk : Disk) (before : String) (f : Failure) : Outcome :=
    { err := before ++ "Error: " ++ f.message ++ "\n", failure := some f, disk }
  let (verb, rest, refusal) := selectVerb inv.args
  match refusal with
  | some msg =>
    { err := "Error: " ++ msg ++ "\nRun '" ++ verb.path ++ " --help' for usage.\n",
      failure := some (.plain msg), disk := inv.disk }
  | none =>
    match (verb.flags true).parse [] rest with
    | .error msg => refuse inv.disk "" (.plain msg)
    | .ok (fs, args) =>
      if ((fs.named "help").map Flag.switch).getD false || !verb.runnable then
        { out := verb.helpText true, disk := inv.disk }
      else match verb.checkArgs args with
        | some msg => refuse inv.disk "" (.plain msg)
        | none =>
          match fs.fromVariables inv.vars with
          | .error msg => refuse inv.disk "" (.plain msg)
          | .ok fs =>
            match prepare inv fs args with
            | .error msg => refuse inv.disk "" (.plain msg)
            | .ok s =>
              let e := verb.perform s
              let logs := String.join ((s.level.filter e.records).map fun r => r.line ++ "\n")
              let disk := if s.logFile = "" then s.disk
                else (s.disk.perform (Disk.appendFile s.logFile logs.toUTF8.toList)).1
              match e.failure with
              | some f => { refuse disk logs f with out := e.out }
              | none => { out := e.out, err := logs, disk }

/-- Every command of the tool. -/
def Verb.all : List Verb := Verb.root :: Verb.root.children ++ Verb.completion.children

/-- The variables of the environment a run may read: the settings and one for each flag. -/
def variableNames : List String :=
  (settingVariables.map (·.2) ++
    Verb.all.flatMap fun v => (v.flags true).map fun f => flagVariable f.spec.name).eraseDups

/-- The paths a run reads: the configuration file, the log file and, for `read`, the
directory of the data entry and the file of the data object. What the disk holds may add paths:
the configuration file may move the data. -/
def Invocation.paths (inv : Invocation) : List String :=
  let (verb, rest, refusal) := selectVerb inv.args
  match refusal, (verb.flags true).parse [] rest with
  | none, .ok (fs, args) =>
    match fs.fromVariables inv.vars with
    | .error _ => []
    | .ok fs =>
      let text (name : String) : String := ((fs.named name).map Flag.text).getD ""
      let given := [text "config", text "log-file"].filter (· ≠ "")
      let data := match verb, prepare inv fs args with
        | .read, .ok s =>
          match DataEntry.resolve s.env 1 (args.getD 0 "") with
          | .ok de =>
            if de.path = "" then []
            else [de.path, ({ level := .default, dir := de.path } : SerializeBackend).fileOf
              (args.getD 1 "")]
          | .error _ => []
        | _, _ => []
      given ++ data
  | _, _ => []

end AccessLayer
