import AccessLayer.Text.Blank
import AccessLayer.Text.Cut
/-!
The settings the access layer reads from its environment: the root of the shared database tree,
the hosts whose remote URIs may be served locally, the log and compression level names, and how
to find a user's home directory.
-/
namespace AccessLayer

/-- Settings of the access layer. The default has no home, no local hosts and no way to find
a user's home directory. -/
structure Environment where
  home : String := ""
  localHosts : List String := []
  logLevel : String := ""
  serializeLevel : String := ""
  /-- The home directory of a user, when a lookup is installed. -/
  lookupHome : Option (String → Option String) := none

namespace Environment

/-- Splits a `;`-separated host list, trimming blanks and dropping empty names. -/
def splitHosts (s : String) : List String :=
  ((Text.splitAll ';' s.toList).map fun h => String.ofList (Text.trimBlankList h)).filter (· ≠ "")

/-- Whether `host` is one of the local hosts. -/
def isLocalHost (env : Environment) (host : String) : Bool := env.localHosts.contains host

/-- The home directory of `user`, if the lookup knows one. -/
def homeOf (env : Environment) (user : String) : Option String :=
  match env.lookupHome with
  | some f => f user
  | none => none

/-- The value of variable `name` among `vars`. An empty value counts as unset, so that the
setting falls back to its default. -/
def setting (vars : List (String × String)) (name : String) : Option String :=
  match vars.lookup name with
  | some "" => none
  | v => v

/-- Settings read from the variables `IMAS_HOME`, `IMAS_LOCAL_HOSTS`, `IMAS_AL_LOG_LEVEL` and
`IMAS_AL_SERIALIZE_LEVEL`; the levels default to `info` and `default`. Home directories come
from the account table `accounts`. -/
def ofVariables (vars : List (String × String)) (accounts : List (String × String)) :
    Environment :=
  { home := (setting vars "IMAS_HOME").getD ""
    localHosts := splitHosts ((setting vars "IMAS_LOCAL_HOSTS").getD "")
    logLevel := (setting vars "IMAS_AL_LOG_LEVEL").getD "info"
    serializeLevel := (setting vars "IMAS_AL_SERIALIZE_LEVEL").getD "default"
    lookupHome := some fun user => match accounts.lookup user with
      | some "" => none
      | h => h }

/-- The accounts of a base system image, each with its home directory. -/
def baseAccounts : List (String × String) :=
  [("root", "/root"), ("daemon", "/usr/sbin"), ("bin", "/bin"), ("sys", "/dev"),
   ("sync", "/bin"), ("games", "/usr/games"), ("man", "/var/cache/man"),
   ("lp", "/var/spool/lpd"), ("mail", "/var/mail"), ("news", "/var/spool/news"),
   ("uucp", "/var/spool/uucp"), ("proxy", "/bin"), ("www-data", "/var/www"),
   ("backup", "/var/backups"), ("list", "/var/list"), ("irc", "/run/ircd"),
   ("_apt", "/nonexistent"), ("nobody", "/nonexistent")]

/-- The accounts of a password table, each with its home directory. A line is
`name:password:uid:gid:comment:home:shell`; blank lines, comments and lines of fewer than seven
fields are passed over, and the first line of a name counts. -/
def accountsOf (table : String) : List (String × String) :=
  (Text.splitAll '\n' table.toList).filterMap fun line =>
    let line := Text.trimBlankList line
    if line.isEmpty || line.head? = some '#' then none
    else match Text.splitAll ':' line with
      | name :: _ :: _ :: _ :: _ :: home :: _ :: _ => some (String.ofList name, String.ofList home)
      | _ => none

end Environment

end AccessLayer
