import AccessLayer.Command.Flag
import AccessLayer.Text.Fold
/-!
The commands of `alctl` and how an argument list selects one. The root command holds the
commands `uri`, `legacy-uri`, `timebase` and `read`, the `help` command, and `completion` with
one command per shell. Every command sees the root's persistent flags (`--config`,
`--log-level`, `--log-file`, `--quiet`) besides its own.

An argument list selects a command by its first words that are not flags, skipping the value
that follows a flag known to take one; a flag the command does not know yet is taken to have a
value. A word at the root that names no command is refused with the commands it resembles: a
command whose name is at most two edits away, or starts with the word, ignoring case.
-/
namespace AccessLayer

/-- The shells `completion` writes scripts for. -/
inductive Shell where
  | bash
  | fish
  | powershell
  | zsh
  deriving Repr, DecidableEq, Inhabited

/-- The commands of the tool. -/
inductive Verb where
  | root
  | uri
  | legacyUri
  | timebase
  | read
  | help
  | completion
  | script (shell : Shell)
  deriving Repr, DecidableEq, Inhabited

/-- How many positional arguments a command takes: any, none, or exactly `n`. -/
inductive ArgRule where
  | any
  | none
  | exactly (n : Nat)
  deriving Repr, DecidableEq

/-- The name of the tool. -/
def toolName : String := "alctl"

namespace Shell

def name : Shell → String
  | .bash => "bash"
  | .fish => "fish"
  | .powershell => "powershell"
  | .zsh => "zsh"

/-- How to install the script of each shell. -/
def guide : Shell → String
  | .bash => "\nGenerate the autocompletion script for the bash shell.\n\n" ++
      "This script depends on the 'bash-completion' package.\n" ++
      "If it is not installed already, you can install it via your OS's package manager.\n\n" ++
      "To load completions in your current shell session:\n$ source <(" ++ toolName ++
      " completion bash)\n\nTo load completions for every new session, execute once:\nLinux:\n  $ " ++
      toolName ++ " completion bash > /etc/bash_completion.d/" ++ toolName ++ "\nMacOS:\n  $ " ++
      toolName ++ " completion bash > /usr/local/etc/bash_completion.d/" ++ toolName ++
      "\n\nYou will need to start a new shell for this setup to take effect.\n  "
  | .fish => "\nGenerate the autocompletion script for the fish shell.\n\n" ++
      "To load completions in your current shell session:\n$ " ++ toolName ++
      " completion fish | source\n\nTo load completions for every new session, execute once:\n$ " ++
      toolName ++ " completion fish > ~/.config/fish/completions/" ++ toolName ++
      ".fish\n\nYou will need to start a new shell for this setup to take effect.\n"
  | .powershell => "\nGenerate the autocompletion script for powershell.\n\n" ++
      "To load completions in your current shell session:\nPS C:\\> " ++ toolName ++
      " completion powershell | Out-String | Invoke-Expression\n\n" ++
      "To load completions for every new session, add the output of the above command\n" ++
      "to your powershell profile.\n"
  | .zsh => "\nGenerate the autocompletion script for the zsh shell.\n\n" ++
      "If shell completion is not already enabled in your environment you will need\n" ++
      "to enable it.  You can execute the following once:\n\n" ++
      "$ echo \"autoload -U compinit; compinit\" >> ~/.zshrc\n\n" ++
      "To load completions for every new session, execute once:\n# Linux:\n$ " ++ toolName ++
      " completion zsh > \"$" ++ "\x7bfpath[1]\x7d/_" ++ toolName ++ "\"\n# macOS:\n$ " ++ toolName ++
      " completion zsh > /usr/local/share/zsh/site-functions/_" ++ toolName ++
      "\n\nYou will need to start a new shell for this setup to take effect.\n"

end Shell

/-- The persistent flags of the root, seen by every command. -/
def rootFlags : List FlagSpec :=
  [ { name := "config", shorthand := some 'c', usage := "Configuration file to read from.",
      kind := .text "" },
    { name := "log-level",
      usage := "Log level (error, warn, info, debug). Overrides IMAS_AL_LOG_LEVEL.",
      kind := .text "" },
    { name := "log-file", usage := "Also append log output to this file.", kind := .text "" },
    { name := "quiet", usage := "Disable info logging (log only errors)", kind := .switch false } ]

namespace Verb

/-- The name of a command: the first word of its use line. -/
def name : Verb → String
  | .root => toolName
  | .uri => "uri"
  | .legacyUri => "legacy-uri"
  | .timebase => "timebase"
  | .read => "read"
  | .help => "help"
  | .completion => "completion"
  | .script s => s.name

/-- The use line of a command. -/
def use : Verb → String
  | .uri => "uri <uri>"
  | .read => "read <uri> <dataobject> <field>"
  | .help => "help [command]"
  | v => v.name

/-- The one-line description. -/
def short : Verb → String
  | .root => "Inspect IMAS data entry URIs, legacy parameters, time bases and stored data."
  | .uri => "Resolve a data entry URI and print its backend."
  | .legacyUri => "Build a data entry URI from legacy parameters."
  | .timebase => "Print the resampled time basis of a time range."
  | .read => "Read one field of a stored data object."
  | .help => "Help about any command"
  | .completion => "generate the autocompletion script for the specified shell"
  | .script s => "generate the autocompletion script for " ++ s.name

/-- The long description, empty for commands that have only the short one. -/
def long : Verb → String
  | .root => toolName ++ " exercises the access layer from the command line.\n\n" ++
      "It resolves data entry URIs the way the access layer does, builds URIs\n" ++
      "from legacy parameters, prints resampled time bases and reads fields\n" ++
      "of stored data objects."
  | .help => "Help provides help for any command in the application.\n" ++
      "Simply type " ++ toolName ++ " help [path to command] for full details."
  | .completion => "\nGenerate the autocompletion script for " ++ toolName ++
      " for the specified shell.\n" ++
      "See each sub-command's help for details on how to use the generated script.\n"
  | .script s => s.guide
  | _ => ""

/-- The positional arguments a command takes. -/
def args : Verb → ArgRule
  | .root => .any
  | .uri => .exactly 1
  | .read => .exactly 3
  | .help => .any
  | _ => .none

/-- Whether a command does something of its own; the others only show their help. -/
def runnable : Verb → Bool
  | .root => false
  | .completion => false
  | _ => true

/-- Whether the use line leaves out the flags. -/
def bareUseLine : Verb → Bool
  | .script _ => true
  | _ => false

/-- The commands below a command, in the order they were added. -/
def children : Verb → List Verb
  | .root => [.uri, .legacyUri, .timebase, .read, .help, .completion]
  | .completion => [.script .bash, .script .zsh, .script .fish, .script .powershell]
  | _ => []

/-- The command above a command. -/
def parent : Verb → Option Verb
  | .root => none
  | .script _ => some .completion
  | _ => some .root

/-- The names of a command and those above it, joined by spaces. -/
def path : Verb → String
  | .root => toolName
  | .script s => toolName ++ " completion " ++ s.name
  | v => toolName ++ " " ++ v.name

/-- Whether a command shows in the list of its parent's commands: it runs or has commands to
show; `help` shows too. -/
def listed (v : Verb) : Bool := v.runnable || !v.children.isEmpty

/-- The flags a command defines itself; the root's are its persistent flags. -/
def ownFlags : Verb → List FlagSpec
  | .root => rootFlags
  | .legacyUri =>
    [ { name := "backend", usage := "Backend (mdsplus, hdf5, ascii, memory, uda).",
        kind := .text "mdsplus" },
      { name := "pulse", usage := "Pulse number.", kind := .whole 0 },
      { name := "run", usage := "Run number.", kind := .whole 0 },
      { name := "user", usage := "Database user.", kind := .text "public" },
      { name := "database", usage := "Database (tokamak) name.", kind := .text "" },
      { name := "version", usage := "Data dictionary version; only the major version is kept.",
        kind := .text "3" },
      { name := "options", usage := "Extra query arguments appended to the URI.",
        kind := .text "" } ]
  | .timebase =>
    [ { name := "tmin", usage := "Start of the time range.", kind := .real 0 },
      { name := "tmax", usage := "End of the time range.", kind := .real 0 },
      { name := "dtime", usage := "Resampling step, or the explicit list of target times.",
        kind := .texts } ]
  | .read =>
    [ { name := "type", usage := "Expected data type (char, int, double, complex).",
        kind := .text "double" },
      { name := "dim", usage := "Expected number of dimensions.", kind := .whole 1 },
      { name := "timebase", usage := "Timebase path of the field.", kind := .text "" } ]
  | .script _ =>
    [ { name := "no-descriptions", usage := "disable completion descriptions",
        kind := .switch false } ]
  | _ => []

/-- The flags a command inherits from the root. -/
def inheritedFlags : Verb → List FlagSpec
  | .root => []
  | _ => rootFlags

/-- The help flag of a command. -/
def helpFlag (v : Verb) : FlagSpec :=
  { name := "help", shorthand := some 'h', usage := "help for " ++ v.name, kind := .switch false }

/-- The flags of a command, with its help flag when `withHelp`. -/
def flags (v : Verb) (withHelp : Bool) : Flags :=
  (v.ownFlags ++ (if withHelp then [v.helpFlag] else []) ++ v.inheritedFlags).map FlagSpec.fresh

end Verb

/-- Whether a flag word leaves the next word to the flag as its value: a flag that is not a
switch takes it, and so does an unknown flag. -/
def takesNext (fs : Flags) (arg : String) : Bool :=
  let takesValue (f : Option Flag) : Bool := match f with
    | some f => f.spec.kind.implied.isNone
    | none => true
  match arg.toList with
  | '-' :: '-' :: body => !(body.contains '=') && takesValue (fs.named (String.ofList body))
  | ['-', c] => c.toNat < 128 && c ≠ '=' && takesValue (fs.shorthanded c)
  | _ => false

/-- The words of an argument list that are not flags, as a command sees them, when the first
word is the value of a flag if `skip`. -/
def wordsAfter (fs : Flags) (skip : Bool) : List String → List String
  | [] => []
  | arg :: rest =>
    if skip then wordsAfter fs false rest
    else if arg = "--" then []
    else if arg.startsWith "-" then wordsAfter fs (takesNext fs arg) rest
    else if arg = "" then wordsAfter fs false rest
    else arg :: wordsAfter fs false rest

/-- The words of an argument list that are not flags, as a command sees them: the value after a
flag that takes one is skipped, and so is the word after an unknown flag; `--` ends the words. -/
def commandWords (fs : Flags) (args : List String) : List String := wordsAfter fs false args

/-- The list without the first occurrence of `x`. -/
def withoutFirst (x : String) : List String → List String
  | [] => []
  | y :: ys => if y = x then ys else y :: withoutFirst x ys

/-- The edit distance between two byte strings. -/
def editDistance (s t : List UInt8) : Nat :=
  let first : List Nat := List.range (t.length + 1)
  let last := s.foldl (fun (row : List Nat) (a : UInt8) =>
    let start := row.headD 0 + 1
    let cells := (t.zip (row.zip row.tail)).foldl
      (fun (acc : List Nat × Nat) (step : UInt8 × Nat × Nat) =>
        let (b, diag, up) := step
        let left := acc.2
        let cell := if a = b then diag else min (min up left) diag + 1
        (cell :: acc.1, cell))
      ([start], start)
    cells.1.reverse) first
  last.getLastD 0

/-- The commands below `v` that a mistyped word may have meant. -/
def suggestions (v : Verb) (word : String) : List String :=
  let lower (s : String) : String := Text.lowerForMatch s
  (v.children.filter fun c => c.listed && c ≠ .help).filterMap fun c =>
    let near := editDistance (lower word).toUTF8.toList (lower c.name).toUTF8.toList ≤ 2
    if near || (lower word).isPrefixOf (lower c.name) then some c.name else none

/-- The refusal of a word at the root that names no command. -/
def unknownCommand (v : Verb) (word : String) : String :=
  let found := suggestions v word
  "unknown command " ++ Text.quote word ++ " for " ++ Text.quote v.path ++
    if found.isEmpty then ""
    else "\n\nDid you mean this?\n" ++ String.join (found.map fun n => "\t" ++ n ++ "\n")

/-- The command an argument list selects below `v`, with the arguments left for it; the tree is
at most `depth` levels deep. -/
def selectFrom : Nat → Verb → List String → Verb × List String
  | 0, v, args => (v, args)
  | depth + 1, v, args =>
    match commandWords (v.flags false) args with
    | [] => (v, args)
    | word :: _ =>
      match v.children.find? (·.name = word) with
      | some c => selectFrom depth c (withoutFirst word args)
      | none => (v, args)

/-- The command an argument list selects, with the arguments left for it. A command that takes
any arguments refuses a word that names none of its commands, when it has commands and no parent
above it. -/
def selectVerb (args : List String) : Verb × List String × Option String :=
  let (v, rest) := selectFrom 3 .root args
  let refusal :=
    if v.args = .any && !v.children.isEmpty && v.parent.isNone then
      match commandWords (v.flags false) rest with
      | word :: _ => some (unknownCommand v word)
      | [] => none
    else none
  (v, rest, refusal)

end AccessLayer
