import AccessLayer.Command.Verb
import AccessLayer.Text.Blank
/-!
Help and usage texts of the commands. The usage text lists, each under its heading: how to call
the command, its commands, its own flags and the flags it inherits, and how to get help on a
command. The help text is the command's description followed by its usage text.

A flag line shows the shorthand, the long name and the kind of value, then the usage aligned
with the other lines of its block, then the default unless it is the zero of its kind.
-/
namespace AccessLayer

namespace FlagSpec

/-- The left part of a flag's usage line. -/
def head (f : FlagSpec) : String :=
  let names := match f.shorthand with
    | some c => "  -" ++ String.singleton c ++ ", --" ++ f.name
    | none => "      --" ++ f.name
  let kind := f.kind.typeName
  if kind = "" then names else names ++ " " ++ kind

/-- The usage of a flag with its default, when that is not the zero of its kind. -/
def usageWithDefault (f : FlagSpec) : String :=
  if f.kind.zeroDefault then f.usage
  else match f.kind with
    | .text d => f.usage ++ " (default " ++ Text.quote d ++ ")"
    | k => f.usage ++ " (default " ++ k.defaultText ++ ")"

end FlagSpec

/-- The usage lines of a block of flags, sorted by name, their usages aligned two columns after
the longest left part. -/
def flagBlock (flags : List FlagSpec) : String :=
  let sorted := flags.mergeSort fun a b => decide (a.name ≤ b.name)
  let width := sorted.foldl (fun w f => max w (f.head.length + 1)) 0
  String.join (sorted.map fun f =>
    f.head ++ " " ++ String.ofList (List.replicate (width - f.head.length) ' ') ++ " " ++
      f.usageWithDefault ++ "\n")

/-- Drops white space at the end of a text. -/
def trimEnd (s : String) : String := String.ofList (s.toList.reverse.dropWhile Text.isBlank).reverse

/-- A name padded with spaces to the width of the longest command name, eleven at least. -/
def padName (width : Nat) (name : String) : String :=
  name ++ String.ofList (List.replicate (width - name.length) ' ')

namespace Verb

/-- The use line: the parent's path, the use, and the flags unless the command leaves them out. -/
def useLine (v : Verb) : String :=
  let line := match v.parent with
    | some p => p.path ++ " " ++ v.use
    | none => v.use
  if v.bareUseLine then line else line ++ " [flags]"

/-- The usage text of a command; `withHelp` tells whether its help flag is defined yet. -/
def usage (v : Verb) (withHelp : Bool) : String :=
  let listed := v.children.filter fun c => c.listed || c = .help
  let width := max 11 (v.children.foldl (fun w c => max w c.name.length) 0)
  let sorted := listed.mergeSort fun a b => decide (a.name ≤ b.name)
  let own := v.ownFlags ++ (if withHelp then [v.helpFlag] else [])
  let inherited := v.inheritedFlags
  "Usage:" ++
    (if v.runnable then "\n  " ++ v.useLine else "") ++
    (if !listed.isEmpty then "\n  " ++ v.path ++ " [command]" else "") ++
    (if !listed.isEmpty then
      "\n\nAvailable Commands:" ++
        String.join (sorted.map fun c => "\n  " ++ padName width c.name ++ " " ++ c.short)
     else "") ++
    (if !own.isEmpty then "\n\nFlags:\n" ++ trimEnd (flagBlock own) else "") ++
    (if !inherited.isEmpty then "\n\nGlobal Flags:\n" ++ trimEnd (flagBlock inherited) else "") ++
    (if !listed.isEmpty then
      "\n\nUse \"" ++ v.path ++ " [command] --help\" for more information about a command."
     else "") ++ "\n"

/-- The help text of a command: its description, then its usage if it runs or has commands. -/
def helpText (v : Verb) (withHelp : Bool) : String :=
  let about := if v.long = "" then v.short else v.long
  let about := trimEnd about
  (if about = "" then "" else about ++ "\n\n") ++
    (if v.runnable || !v.children.isEmpty then v.usage withHelp else "")

end Verb

end AccessLayer
