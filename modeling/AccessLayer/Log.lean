import AccessLayer.Text.Blank
import AccessLayer.Text.Fold
import AccessLayer.Text.Quote
/-!
Log records and their text lines. A record has a severity and a message; a logger at a level
keeps the records of that severity or a more severe one. A line is `level=<name> msg=<message>`,
the message written bare when it holds only letters, digits and `-._/@^+`, quoted otherwise,
and left out when empty.
-/
namespace AccessLayer

/-- The severities of log records, from the most severe. -/
inductive LogLevel where
  | error
  | warn
  | info
  | debug
  deriving Repr, DecidableEq, Inhabited

namespace LogLevel

/-- The rank of a level: 0 for errors up to 3 for debugging. -/
def rank : LogLevel → Nat
  | .error => 0
  | .warn => 1
  | .info => 2
  | .debug => 3

/-- The name a line gives the level. -/
def lineName : LogLevel → String
  | .error => "error"
  | .warn => "warning"
  | .info => "info"
  | .debug => "debug"

/-- Reads a level name without regard to case or surrounding blanks; the empty name is `info`. -/
def ofName (name : String) : Except String LogLevel :=
  let n := Text.lowerForMatch (Text.trimBlank name)
  if n = "error" then .ok .error
  else if n = "warn" || n = "warning" then .ok .warn
  else if n = "" || n = "info" then .ok .info
  else if n = "debug" then .ok .debug
  else .error ("unknown log level " ++ Text.quote name)

/-- Whether a logger at this level keeps records of severity `l`. -/
def keeps (self l : LogLevel) : Bool := l.rank ≤ self.rank

end LogLevel

/-- One log record. -/
structure LogRecord where
  level : LogLevel
  message : String
  deriving Repr, DecidableEq, Inhabited

namespace LogRecord

/-- Whether `c` may stand in an unquoted message. -/
def isBareChar (c : Char) : Bool :=
  ('a' ≤ c && c ≤ 'z') || ('A' ≤ c && c ≤ 'Z') || ('0' ≤ c && c ≤ '9') ||
    c = '-' || c = '.' || c = '_' || c = '/' || c = '@' || c = '^' || c = '+'

/-- The text line of a record. -/
def line (r : LogRecord) : String :=
  let head := "level=" ++ r.level.lineName
  if r.message = "" then head
  else if r.message.toList.all isBareChar then head ++ " msg=" ++ r.message
  else head ++ " msg=" ++ Text.quote r.message

end LogRecord

/-- The records a logger at `level` keeps of `records`, in order. -/
def LogLevel.filter (level : LogLevel) (records : List LogRecord) : List LogRecord :=
  records.filter fun r => level.keeps r.level

end AccessLayer
