import AccessLayer.Config.Toml
import AccessLayer.Environment
import AccessLayer.Disk.Basic
import AccessLayer.Decimal.Layout
import AccessLayer.Text.Utf8
import AccessLayer.Text.Fold
/-!
Settings from the environment and a configuration file. The file is TOML and may set `home`,
`local_hosts`, `log_level` and `serialize_level`, keys in any case; any other key is refused. A
variable (`IMAS_HOME`, `IMAS_LOCAL_HOSTS`, `IMAS_AL_LOG_LEVEL`, `IMAS_AL_SERIALIZE_LEVEL`) that is
set and not empty wins over the file; the levels default to `info` and `default`.

`local_hosts` may be a list, each item a `;`-separated list of hosts, or one such text.
-/
namespace AccessLayer

namespace Toml.Value

mutual

/-- The text of a value inside a list: scalars as written, lists in brackets and tables as
`map[key:value ...]` by sorted key, items separated by spaces. -/
def itemText : Value → String
  | .text s => s
  | .integer n => toString n
  | .real x => Float.general x
  | .boolean b => if b then "true" else "false"
  | .moment s => s
  | .array xs => "[" ++ itemsText xs ++ "]"
  | .tables xs => "[" ++ itemsText xs ++ "]"
  | .table _ es =>
    let sorted := (entryTexts es).mergeSort fun a b => decide (a.1 ≤ b.1)
    "map[" ++ " ".intercalate (sorted.map fun (k, t) => k ++ ":" ++ t) ++ "]"

/-- The texts of list items, separated by spaces. -/
def itemsText : List Value → String
  | [] => ""
  | [x] => itemText x
  | x :: xs => itemText x ++ " " ++ itemsText xs

/-- The keys of table entries with the texts of their values. -/
def entryTexts : List (String × Value) → List (String × String)
  | [] => []
  | (k, v) :: es => (k, itemText v) :: entryTexts es

end

/-- The text of a value as a setting: strings as they are, numbers in decimal without exponent,
booleans as words; lists and tables have none. -/
def settingText : Value → String
  | .text s => s
  | .integer n => toString n
  | .real x => x.render Decimal.Layout.positional
  | .boolean b => if b then "true" else "false"
  | .moment s => s
  | _ => ""

mutual

/-- A value with the keys of its tables, and of the tables in them, lower-cased. -/
def lowerKeys : Value → Value
  | .table i es => .table i (lowerEntries es)
  | v => v

/-- Entries with their keys lower-cased, and the keys of the tables among their values. -/
def lowerEntries : List (String × Value) → List (String × Value)
  | [] => []
  | (k, v) :: es => (Text.lowerForMatch k, lowerKeys v) :: lowerEntries es

end

/-- The dotted keys of the values in a table and in the tables in it; an empty table adds none. -/
def flatKeys (pre : String) : List (String × Value) → List String
  | [] => []
  | (k, .table _ inner) :: es => flatKeys (pre ++ k ++ ".") inner ++ flatKeys pre es
  | (k, _) :: es => (pre ++ k) :: flatKeys pre es

end Toml.Value

/-- The keys a configuration file may set, with the variables that override them. -/
def settingVariables : List (String × String) :=
  [("home", "IMAS_HOME"), ("local_hosts", "IMAS_LOCAL_HOSTS"), ("log_level", "IMAS_AL_LOG_LEVEL"),
   ("serialize_level", "IMAS_AL_SERIALIZE_LEVEL")]

/-- Reads a configuration file: its document, keys lower-cased; a file that cannot be read, is no
TOML document, or sets an unknown key is refused. -/
def readConfiguration (disk : Disk) (path : String) : Except String Toml.Value :=
  let refuse (why : String) : Except String Toml.Value :=
    .error ("error reading configuration file '" ++ path ++ "': " ++ why)
  match disk.readFile path with
  | .error e => refuse e.message
  | .ok bytes =>
    match Toml.read (Text.stringOfBytes bytes) with
    | .error e => refuse ("While parsing config: " ++ e)
    | .ok doc =>
      let doc := doc.lowerKeys
      match (Toml.Value.flatKeys "" doc.entries).find? fun k => !(settingVariables.any (·.1 = k)) with
      | some k => .error ("invalid option in configuration file: " ++ k)
      | none => .ok doc

namespace Environment

/-- The settings from the variables `vars` and, when `path` is not empty, the configuration file
at `path` on `disk`. Home directories come from the account table `accounts`. -/
def load (vars : List (String × String)) (accounts : List (String × String)) (disk : Disk)
    (path : String) : Except String Environment := do
  let doc ← if path = "" then pure Toml.Value.empty else readConfiguration disk path
  let value (key : String) : Option Toml.Value :=
    match (settingVariables.lookup key).bind (setting vars) with
    | some v => some (.text v)
    | none => doc.find? key
  let text (key default : String) : String := ((value key).map Toml.Value.settingText).getD default
  let hosts := match value "local_hosts" with
    | some (.array xs) => xs.flatMap fun x => splitHosts x.itemText
    | some (.tables xs) => xs.flatMap fun x => splitHosts x.itemText
    | some v => splitHosts v.settingText
    | none => []
  pure { home := text "home" ""
         localHosts := hosts
         logLevel := text "log_level" "info"
         serializeLevel := text "serialize_level" "default"
         lookupHome := some fun user => match accounts.lookup user with
           | some "" => none
           | h => h }

end Environment

end AccessLayer
