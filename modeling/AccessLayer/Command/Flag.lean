import AccessLayer.Numeral
import AccessLayer.Text.Csv
import AccessLayer.Text.Quote
import AccessLayer.Decimal.Layout
/-!
Command-line flags. A flag has a long name, perhaps a one-letter shorthand, a usage line and a
kind: text, a whole number, a real number, a switch, or a list of texts. Setting a flag reads
its text by its kind; a list takes the fields of a comma-separated record, and adds them to
what an earlier setting gave.

Parsing an argument list sets the flags it names and keeps the other words in order:

* `--name=value`, `--name value`; a switch alone means `true`;
* `-x`, `-x value`, `-xvalue`, `-x=value`, and switches grouped as `-xy`;
* `--` ends the flags, and `-` alone or any word not starting with `-` is kept.
-/
namespace AccessLayer

/-- The kind of a flag, with its default. -/
inductive FlagKind where
  | text (default : String)
  | whole (default : Int)
  | real (default : Float)
  | switch (default : Bool)
  | texts
  deriving Inhabited

/-- A flag as a command defines it. -/
structure FlagSpec where
  name : String
  shorthand : Option Char := none
  usage : String
  kind : FlagKind
  deriving Inhabited

/-- The value a flag holds. -/
inductive FlagValue where
  | text (s : String)
  | whole (n : Int)
  | real (x : Float)
  | switch (b : Bool)
  | texts (xs : List String)
  deriving Inhabited

/-- A flag and its value. `changed` marks a flag given on the command line; `assigned` marks a
list that was set before, so that a new setting adds to it. -/
structure Flag where
  spec : FlagSpec
  value : FlagValue
  changed : Bool := false
  assigned : Bool := false
  deriving Inhabited

namespace FlagKind

/-- The value a flag of this kind starts with. -/
def initial : FlagKind → FlagValue
  | .text d => .text d
  | .whole d => .whole d
  | .real d => .real d
  | .switch d => .switch d
  | .texts => .texts []

/-- The word naming the kind in usage lines; switches have none. -/
def typeName : FlagKind → String
  | .text _ => "string"
  | .whole _ => "int"
  | .real _ => "float"
  | .switch _ => ""
  | .texts => "strings"

/-- The text of the default. -/
def defaultText : FlagKind → String
  | .text d => d
  | .whole d => toString d
  | .real d => Float.general d
  | .switch d => if d then "true" else "false"
  | .texts => "[]"

/-- Whether the default is the zero of the kind, which usage lines leave unmentioned. -/
def zeroDefault : FlagKind → Bool
  | .text d => d = ""
  | .whole d => d = 0
  | .real d => Float.general d = "0"
  | .switch d => !d
  | .texts => true

/-- The value a flag takes when named without one: switches become true. -/
def implied : FlagKind → Option String
  | .switch _ => some "true"
  | _ => none

end FlagKind

namespace FlagSpec

/-- A flag with its default value. -/
def fresh (s : FlagSpec) : Flag := ⟨s, s.kind.initial, false, false⟩

/-- The name of the flag in messages: `-c, --config` or `--name`. -/
def display (s : FlagSpec) : String :=
  match s.shorthand with
  | some c => "-" ++ String.singleton c ++ ", --" ++ s.name
  | none => "--" ++ s.name

end FlagSpec

namespace Flag

/-- Sets the flag from a text read by its kind; a refused text gives the reader's message. -/
def assign (f : Flag) (text : String) : Except String Flag :=
  let numeral {α : Type} (r : Except NumeralError α) (k : α → FlagValue) : Except String Flag :=
    match r with
    | .ok v => .ok { f with value := k v }
    | .error e => .error e.message
  match f.spec.kind, f.value with
  | .text _, _ => .ok { f with value := .text text }
  | .whole _, _ => numeral (Numeral.readInt text) .whole
  | .real _, _ => numeral (Numeral.readFloat text) .real
  | .switch _, _ => numeral (Numeral.readBool text) .switch
  | .texts, old =>
    let fields := if text = "" then .ok [] else Text.csvRecord text
    match fields with
    | .error e => .error e.message
    | .ok xs =>
      let before := match old with
        | .texts ys => if f.assigned then ys else []
        | _ => []
      .ok { f with value := .texts (before ++ xs), assigned := true }

/-- The text of a text flag. -/
def text (f : Flag) : String :=
  match f.value with
  | .text s => s
  | _ => ""

/-- The number of a whole-number flag. -/
def whole (f : Flag) : Int :=
  match f.value with
  | .whole n => n
  | _ => 0

/-- The number of a real-number flag. -/
def real (f : Flag) : Float :=
  match f.value with
  | .real x => x
  | _ => 0

/-- The state of a switch. -/
def switch (f : Flag) : Bool :=
  match f.value with
  | .switch b => b
  | _ => false

/-- The texts of a list flag. -/
def texts (f : Flag) : List String :=
  match f.value with
  | .texts xs => xs
  | _ => []

end Flag

/-- The flags of a command. -/
abbrev Flags := List Flag

namespace Flags

/-- The flag of a long name. -/
def named (fs : Flags) (name : String) : Option Flag := fs.find? (·.spec.name = name)

/-- The flag of a shorthand. -/
def shorthanded (fs : Flags) (c : Char) : Option Flag := fs.find? (·.spec.shorthand = some c)

/-- The flags with the one of the same name replaced. -/
def put (fs : Flags) (f : Flag) : Flags :=
  fs.map fun g => if g.spec.name = f.spec.name then f else g

/-- Sets a flag from the command line; a refused value names the flag. -/
def setGiven (fs : Flags) (f : Flag) (value : String) : Except String Flags :=
  match f.assign value with
  | .ok g => .ok (fs.put { g with changed := true })
  | .error e => .error ("invalid argument " ++ Text.quote value ++ " for " ++
      Text.quote f.spec.display ++ " flag: " ++ e)

/-- The character that stands for the first byte of `c` in messages: `c` itself when it is
ASCII, otherwise the Latin-1 character of its leading byte. -/
def leadByte (c : Char) : Char :=
  let n := c.toNat
  if n < 0x80 then c
  else if n < 0x800 then Char.ofNat (0xC0 + n / Nat.pow 2 6)
  else if n < 0x10000 then Char.ofNat (0xE0 + n / Nat.pow 2 12)
  else Char.ofNat (0xF0 + n / Nat.pow 2 18)

/-- Reads a long flag `--body`, perhaps taking the next argument as its value. Gives the flags
and whether the next argument was taken. -/
def parseLong (fs : Flags) (arg : String) (body : List Char) (next : Option String) :
    Except String (Flags × Bool) :=
  match body with
  | [] => .error ("bad flag syntax: " ++ arg)
  | c :: _ =>
    if c = '-' || c = '=' then .error ("bad flag syntax: " ++ arg)
    else
      let name := String.ofList (body.takeWhile (· ≠ '='))
      let inline := match body.dropWhile (· ≠ '=') with
        | _ :: v => some (String.ofList v)
        | [] => none
      match fs.named name with
      | none => .error ("unknown flag: --" ++ name)
      | some f =>
        match inline, f.spec.kind.implied, next with
        | some v, _, _ => (fs.setGiven f v).map (·, false)
        | none, some v, _ => (fs.setGiven f v).map (·, false)
        | none, none, some v => (fs.setGiven f v).map (·, true)
        | none, none, none => .error ("flag needs an argument: " ++ arg)

/-- Reads a group of shorthands `-xyz`: each names a flag; a switch takes no value, any other
flag takes the rest of the group, or the next argument when it ends the group. Gives the flags
and whether the next argument was taken. A group starting `test.` is passed over. -/
def parseShort (fs : Flags) (next : Option String) : List Char → Except String (Flags × Bool)
  | [] => .ok (fs, false)
  | group@(c :: rest) =>
    if "test.".toList.isPrefixOf group then .ok (fs, false)
    else
      let here := String.ofList group
      match fs.shorthanded c with
      | none => .error ("unknown shorthand flag: " ++ Text.quoteRune (leadByte c) ++ " in -" ++ here)
      | some f =>
        match rest, f.spec.kind.implied with
        | '=' :: v@(_ :: _), _ => (fs.setGiven f (String.ofList v)).map (·, false)
        | _, some v => match fs.setGiven f v with
          | .ok fs' => parseShort fs' next rest
          | .error e => .error e
        | _ :: _, none => (fs.setGiven f (String.ofList rest)).map (·, false)
        | [], none => match next with
          | some v => (fs.setGiven f v).map (·, true)
          | none => .error ("flag needs an argument: " ++ Text.quoteRune (leadByte c) ++
              " in -" ++ here)

/-- Parses an argument list: sets the flags it names and gives the other arguments in order. -/
def parse (fs : Flags) (kept : List String) : List String → Except String (Flags × List String)
  | [] => .ok (fs, kept)
  | arg :: rest =>
    match arg.toList with
    | ['-', '-'] => .ok (fs, kept ++ rest)
    | '-' :: '-' :: body =>
      match parseLong fs arg body rest.head? with
      | .error e => .error e
      | .ok (fs', true) => parse fs' kept rest.tail
      | .ok (fs', false) => parse fs' kept rest
    | '-' :: c :: more =>
      match parseShort fs rest.head? (c :: more) with
      | .error e => .error e
      | .ok (fs', true) => parse fs' kept rest.tail
      | .ok (fs', false) => parse fs' kept rest
    | _ => parse fs (kept ++ [arg]) rest
termination_by args => args.length
decreasing_by all_goals simp only [List.length_cons, List.length_tail]; omega

end Flags

end AccessLayer
