import AccessLayer.Text.Quote
/-!
Tokens of TOML configuration text. The scanner reads keys at the start of a line (or inside an
inline table) and values after `=`, in arrays and in inline tables, as TOML lays them out:
bare, quoted and dotted keys; basic, literal and multi-line strings; numbers, booleans,
infinities, NaN and dates; brackets, braces and commas; `#` comments; table headers `[a.b]` and
`[[a.b]]`.

Every token records the line and column where it starts, both counted from 1. A text the scanner
cannot read ends the token list with an error token at the start of the offending token.
-/
namespace AccessLayer.Toml

/-- The kinds of tokens. -/
inductive TokenKind where
  | error
  | eof
  | key
  | text
  | integer
  | yes
  | no
  | real
  | infinity
  | nan
  | moment
  | equal
  | leftBracket
  | rightBracket
  | leftBrace
  | rightBrace
  | comma
  | doubleLeft
  | doubleRight
  | tableKey
  | arrayTableKey
  deriving Repr, DecidableEq, Inhabited

/-- The name of a kind in messages. -/
def TokenKind.name : TokenKind → String
  | .error => "Error"
  | .eof => "EOF"
  | .key => "Key"
  | .text => "String"
  | .integer => "Integer"
  | .yes => "True"
  | .no => "False"
  | .real => "Float"
  | .infinity => "Inf"
  | .nan => "NaN"
  | .moment => "LocalDate"
  | .equal => "="
  | .leftBracket => "["
  | .rightBracket => "]"
  | .leftBrace => "\x7b"
  | .rightBrace => "\x7d"
  | .comma => ","
  | .doubleLeft => "[["
  | .doubleRight => "]]"
  | .tableKey => "KeyGroup"
  | .arrayTableKey => "KeyGroupArray"

/-- A token: its kind, its text, and where it starts. -/
structure Token where
  kind : TokenKind
  text : String
  line : Nat
  column : Nat
  deriving Repr, Inhabited

/-- A token as messages show it: an error by its text, the end by `EOF`, others quoted. -/
def Token.show (t : Token) : String :=
  match t.kind with
  | .error => t.text
  | .eof => "EOF"
  | _ => Text.quote t.text

/-- The position of a token as messages show it. -/
def Token.place (t : Token) : String := "(" ++ toString t.line ++ ", " ++ toString t.column ++ ")"

/-- Spaces and tabs separate the parts of a line. -/
def isSpace (c : Char) : Bool := c = ' ' || c = '\t'

/-- Characters of bare keys: letters, digits, `_` and `-`; every character beyond ASCII is
taken for a letter. -/
def isBareChar (c : Char) : Bool := c.isAlphanum || c = '_' || c = '-' || c.toNat ≥ 0x80

/-- Whether `c` is a hexadecimal digit. -/
def isHex (c : Char) : Bool := c.isDigit || ('a' ≤ c && c ≤ 'f') || ('A' ≤ c && c ≤ 'F')

/-- A code point written `U+XXXX`, with at least four upper-case hexadecimal digits. -/
def codePoint (n : Nat) : String :=
  let digits := (Nat.toDigits 16 n).map Char.toUpper
  "U+" ++ String.ofList (List.replicate (4 - digits.length) '0' ++ digits)

/-- The state of the scanner: the unread text and its position, the start of the current token
and what was read of it, the open brackets, and the tokens so far (latest first). -/
structure Scanner where
  rest : List Char
  line : Nat := 1
  column : Nat := 1
  startLine : Nat := 1
  startColumn : Nat := 1
  taken : List Char := []
  brackets : List Char := []
  tokens : List Token := []

namespace Scanner

def peek (s : Scanner) : Option Char := s.rest.head?

/-- Whether the unread text starts with `w`. -/
def follows (s : Scanner) (w : String) : Bool := w.toList.isPrefixOf s.rest

/-- Reads one character. -/
def next (s : Scanner) : Scanner :=
  match s.rest with
  | [] => s
  | c :: r =>
    if c = '\n' then { s with rest := r, line := s.line + 1, column := 1, taken := c :: s.taken }
    else { s with rest := r, column := s.column + 1, taken := c :: s.taken }

/-- Reads `n` characters. -/
def advance (s : Scanner) : Nat → Scanner
  | 0 => s
  | n + 1 => (s.next).advance n

/-- Starts a new token at the current position. -/
def ignore (s : Scanner) : Scanner :=
  { s with startLine := s.line, startColumn := s.column, taken := [] }

/-- Reads one character and starts a new token after it. -/
def skip (s : Scanner) : Scanner := s.next.ignore

/-- Ends the current token with a given text. -/
def emitText (s : Scanner) (k : TokenKind) (text : String) : Scanner :=
  { s with tokens := ⟨k, text, s.startLine, s.startColumn⟩ :: s.tokens }.ignore

/-- Ends the current token with the text read for it. -/
def emit (s : Scanner) (k : TokenKind) : Scanner := s.emitText k (String.ofList s.taken.reverse)

/-- Ends the token list with an error at the start of the current token. -/
def fail (s : Scanner) (message : String) : Scanner :=
  { s with tokens := ⟨.error, message, s.startLine, s.startColumn⟩ :: s.tokens }

end Scanner

/-- Reads the body of a basic string up to `close`, which is left unread. Escapes are decoded;
a backslash before blanks drops them all; control characters other than the tab (and line ends
when `lines`) are refused. -/
def basicBody (close : String) (lines : Bool) (acc : List Char) (s : Scanner) :
    Nat → Scanner × Except String String
  | 0 => (s, .error "unclosed string")
  | fuel + 1 =>
    if s.follows close then (s, .ok (String.ofList acc.reverse))
    else
      let more (s : Scanner) (acc : List Char) : Scanner × Except String String :=
        if s.peek.isNone then (s, .error "unclosed string") else basicBody close lines acc s fuel
      match s.peek with
      | some '\\' =>
        let s := s.next
        match s.peek with
        | some c =>
          if c = '\r' || c = '\n' || c = '\t' || c = ' ' then
            let rec blanks (s : Scanner) : Nat → Scanner
              | 0 => s
              | k + 1 => match s.peek with
                | some b => if b = '\r' || b = '\n' || b = '\t' || b = ' ' then blanks s.next k else s
                | none => s
            more (blanks s s.rest.length) acc
          else if c = 'u' || c = 'U' then
            let width := if c = 'u' then 4 else 8
            let digits := s.next.rest.take width
            if digits.length < width || !digits.all isHex then
              let good := (digits.takeWhile isHex).length
              (s.next.advance good, .error "unfinished unicode escape")
            else
              let n := digits.foldl (fun n d => n * 16 + (if d.isDigit then d.toNat - 48
                else (d.toLower.toNat - 87))) 0
              let ch := if n < 0x110000 && !(0xD800 ≤ n && n < 0xE000) then Char.ofNat n
                else Char.ofNat 0xFFFD
              more (s.next.advance width) (ch :: acc)
          else
            let escaped : Option Char :=
              if c = '"' then some '"' else if c = 'n' then some '\n' else if c = 'b' then some '\x08'
              else if c = 'f' then some '\x0c' else if c = '/' then some '/'
              else if c = 't' then some '\t' else if c = 'r' then some '\r'
              else if c = '\\' then some '\\' else none
            match escaped with
            | some e => more s.next (e :: acc)
            | none => (s, .error ("invalid escape sequence: \\" ++ String.singleton c))
        | none => (s, .error "invalid escape sequence: \\\uFFFD")
      | some c =>
        if c.toNat < 0x20 && c ≠ '\t' && !(lines && (c = '\n' || c = '\r')) then
          (s, .error ("unescaped control character " ++ codePoint c.toNat))
        else more s.next (c :: acc)
      | none => (s, .error "unclosed string")

/-- Reads the body of a literal string up to `close`, which is left unread. -/
def literalBody (close : String) (acc : List Char) (s : Scanner) : Nat → Scanner × Except String String
  | 0 => (s, .error "unclosed string")
  | fuel + 1 =>
    if s.follows close then (s, .ok (String.ofList acc.reverse))
    else match s.peek with
      | none => (s, .error "unclosed string")
      | some c => literalBody close (c :: acc) s.next fuel

/-- What the scanner does next. -/
inductive Mode where
  | void
  | key
  | value
  | commentThenVoid
  | commentThenValue
  | tableKey
  | stop
  deriving DecidableEq

/-- Reads a key: bare parts, quoted parts and dots, blanks around dots kept out. -/
def scanKey (acc : List Char) (s : Scanner) : Nat → Scanner × Mode
  | 0 => (s.emitText .key (String.ofList acc.reverse), Mode.void)
  | fuel + 1 =>
    match s.peek with
    | none => (s.emitText .key (String.ofList acc.reverse), Mode.void)
    | some c =>
      if c = '=' then (s.emitText .key (String.ofList acc.reverse), Mode.void)
      else if c = '"' then
        match basicBody "\"" true [] s.next s.rest.length with
        | (s', .ok body) => scanKey (('"' :: body.toList.reverse ++ '"' :: acc)) s'.next fuel
        | (s', .error e) => (s'.fail e, Mode.stop)
      else if c = '\'' then
        match literalBody "'" [] s.next s.rest.length with
        | (s', .ok body) => scanKey (('\'' :: body.toList.reverse ++ '\'' :: acc)) s'.next fuel
        | (s', .error e) => (s'.fail e, Mode.stop)
      else if c = '\n' then (s.fail "keys cannot contain new lines", Mode.stop)
      else if isSpace c then
        let blank := (s.rest.takeWhile isSpace)
        let s' := s.advance blank.length
        if s'.peek = some '.' then
          let s'' := s'.next
          let after := s''.rest.takeWhile isSpace
          scanKey ((after.reverse ++ '.' :: blank.reverse) ++ acc) (s''.advance after.length) fuel
        else (s'.emitText .key (String.ofList acc.reverse), Mode.void)
      else if c = '.' || isBareChar c then scanKey (c :: acc) s.next fuel
      else (s.fail ("keys cannot contain " ++ String.singleton c ++ " character"), Mode.stop)

/-- Reads a number: an integer with a base prefix, or digits with signs, a point, an exponent
and separators. -/
def scanNumber (s : Scanner) : Scanner × Mode :=
  let based : Option (Char → Bool) := match s.rest with
    | '0' :: b :: _ =>
      if b = 'x' then some fun c => isHex c || c = '_'
      else if b = 'o' then some fun c => ('0' ≤ c && c ≤ '7') || c = '_'
      else if b = 'b' then some fun c => c = '0' || c = '1' || c = '_'
      else none
    | _ => none
  let badBase : Option Char := match s.rest with
    | '0' :: b :: _ => if b.isAlpha && b ≠ 'x' && b ≠ 'o' && b ≠ 'b' then some b else none
    | _ => none
  match badBase, based with
  | some b, _ => (s.fail ("unknown number base: " ++ String.singleton b ++
      ". possible options are x (hex) o (octal) b (binary)"), Mode.stop)
  | none, some ok =>
    let s := s.next.next
    let digits := s.rest.takeWhile ok
    if digits.isEmpty then (s.fail "number needs at least one digit", Mode.stop)
    else ((s.advance digits.length).emit .integer, Mode.value)
  | none, none =>
    let signed := s.peek = some '+' || s.peek = some '-'
    let s := if signed then s.next else s
    if signed && s.follows "inf" then ((s.advance 3).emit .infinity, Mode.value)
    else if signed && s.follows "nan" then ((s.advance 3).emit .nan, Mode.value)
    else
      let rec body (s : Scanner) (point exp digit : Bool) : Nat → Except Scanner (Scanner × Bool × Bool × Bool)
        | 0 => .ok (s, point, exp, digit)
        | fuel + 1 =>
          match s.peek with
          | some '.' =>
            if point then .error (s.fail "cannot have two dots in one float")
            else
              let s := s.next
              if !(s.peek.map Char.isDigit).getD false then .error (s.fail "float cannot end with a dot")
              else if !digit then .error (s.fail "cannot start float with a dot")
              else body s true exp digit fuel
          | some 'e' | some 'E' =>
            let s := s.next
            let s := if s.peek = some '+' || s.peek = some '-' then s.next else s
            if point && !digit then .error (s.fail "cannot start float with a dot")
            else body s point true digit fuel
          | some c =>
            if c.isDigit then body s.next point exp true fuel
            else if c = '_' then
              if point && !digit then .error (s.fail "cannot start float with a dot")
              else body s.next point exp digit fuel
            else .ok (s, point, exp, digit)
          | none => .ok (s, point, exp, digit)
      match body s false false false (s.rest.length + 1) with
      | .error s => (s, Mode.stop)
      | .ok (s, point, exp, digit) =>
        if !digit then (s.fail "no digit in that number", Mode.stop)
        else (s.emit (if point || exp then .real else .integer), Mode.value)

/-- Reads a date, a time or a date and time, kept as written. -/
def scanMoment (s : Scanner) : Scanner × Mode :=
  let part (c : Char) : Bool := c.isDigit || c = '-' || c = ':' || c = '.' || c = 'T' ||
    c = 't' || c = 'Z' || c = 'z' || c = '+'
  let first := s.rest.takeWhile part
  let s := s.advance first.length
  let s := match s.rest with
    | ' ' :: d :: _ => if d.isDigit && first.length = 10 then
        let second := s.next.rest.takeWhile part
        s.next.advance second.length
      else s
    | _ => s
  (s.emit .moment, Mode.value)

/-- Reads what may follow `=`, inside arrays and inline tables. -/
def scanValue (s : Scanner) : Nat → Scanner × Mode
  | 0 => (s, Mode.stop)
  | fuel + 1 =>
    match s.peek with
    | none => (s.next.emit .eof, Mode.stop)
    | some c =>
      if c = '.' then (s.fail "cannot start float with a dot", Mode.stop)
      else if c = '=' then (s.next.emit .equal, Mode.value)
      else if c = '[' then ({ s.next.emit .leftBracket with brackets := '[' :: s.brackets }, Mode.value)
      else if c = ']' then
        let s' := s.next.emit .rightBracket
        match s.brackets with
        | '[' :: rest => ({ s' with brackets := rest }, Mode.value)
        | _ => (s'.fail "cannot have ']' here", Mode.stop)
      else if c = '{' then ({ s.next.emit .leftBrace with brackets := '{' :: s.brackets }, Mode.void)
      else if c = '}' then
        let s' := s.next.emit .rightBrace
        match s.brackets with
        | '{' :: rest => ({ s' with brackets := rest }, Mode.value)
        | _ => (s'.fail "cannot have '\x7d' here", Mode.stop)
      else if c = '#' then (s, Mode.commentThenValue)
      else if c = '"' then
        let s := s.skip
        let triple := s.follows "\"\""
        let s := if triple then s.skip.skip else s
        let s := if triple && s.follows "\r\n" then s.skip.skip
          else if triple && s.peek = some '\n' then s.skip else s
        let close := if triple then "\"\"\"" else "\""
        match basicBody close triple [] s s.rest.length with
        | (s', .ok body) => (((s'.emitText .text body).advance close.length).ignore, Mode.value)
        | (s', .error e) => (s'.fail e, Mode.stop)
      else if c = '\'' then
        let s := s.skip
        let triple := s.follows "''"
        let s := if triple then s.skip.skip else s
        let s := if triple && s.follows "\r\n" then s.skip.skip
          else if triple && s.peek = some '\n' then s.skip else s
        let close := if triple then "'''" else "'"
        match literalBody close [] s s.rest.length with
        | (s', .ok body) => (((s'.emitText .text body).advance close.length).ignore, Mode.value)
        | (s', .error e) => (s'.fail e, Mode.stop)
      else if c = ',' then
        let s' := s.next.emit .comma
        (s', if s.brackets.head? = some '{' then Mode.void else Mode.value)
      else if c = '\r' || c = '\n' then
        (s.skip, if s.brackets.head? = some '[' then Mode.value else Mode.void)
      else if c = '_' then (s.fail "cannot start number with underscore", Mode.stop)
      else if s.follows "true" then ((s.advance 4).emit .yes, Mode.value)
      else if s.follows "false" then ((s.advance 5).emit .no, Mode.value)
      else if s.follows "inf" then ((s.advance 3).emit .infinity, Mode.value)
      else if s.follows "nan" then ((s.advance 3).emit .nan, Mode.value)
      else if isSpace c then scanValue s.skip fuel
      else if c = '+' || c = '-' then scanNumber s
      else if c.isDigit then
        let ahead := s.rest.take 5
        let cut := ahead.findIdx? fun d => !d.isDigit
        let timed := match cut with
          | some 2 => ahead[2]? = some ':'
          | some 4 => ahead[4]? = some '-'
          | _ => false
        if ahead.length ≥ 3 && timed then scanMoment s else scanNumber s
      else (s.fail ("no value can start with " ++ String.singleton c), Mode.stop)

/-- Reads a table header after its opening bracket: `[[` starts an array table. -/
def scanTableKey (s : Scanner) : Scanner × Mode :=
  let s := s.next
  let double := s.peek = some '['
  let s := if double then s.next.emit .doubleLeft else s.emit .leftBracket
  let body := s.rest.takeWhile fun c => c ≠ ']' && c ≠ '\n'
  let s' := s.advance body.length
  match s'.peek with
  | none => (s'.fail "unclosed table key", Mode.stop)
  | some '\n' => (s'.fail "table key cannot contain line breaks", Mode.stop)
  | _ =>
    let s' := if body.isEmpty then s' else s'.emit (if double then .arrayTableKey else .tableKey)
    if double then
      if s'.follows "]]" then (((s'.advance 2).emit .doubleRight), Mode.void)
      else (s'.fail "table array key must end with ]]", Mode.stop)
    else ((s'.next.emit .rightBracket), Mode.void)

/-- Reads what may start a line: a key, a table header, a comment, or blanks. -/
def scanVoid (s : Scanner) : Nat → Scanner × Mode
  | 0 => (s, Mode.stop)
  | fuel + 1 =>
    match s.peek with
    | none => (s.next.emit .eof, Mode.stop)
    | some c =>
      if c = '}' then
        let s' := s.next.emit .rightBrace
        match s.brackets with
        | '{' :: rest => ({ s' with brackets := rest }, Mode.value)
        | _ => (s'.fail "cannot have '\x7d' here", Mode.stop)
      else if c = '[' then (s, Mode.tableKey)
      else if c = '#' then (s, Mode.commentThenVoid)
      else if c = '=' then (s.next.emit .equal, Mode.value)
      else if c = '\r' || c = '\n' || isSpace c then scanVoid s.skip fuel
      else (s, Mode.key)

/-- Passes over a comment up to the end of its line. -/
def skipComment (s : Scanner) : Scanner :=
  let body := s.rest.takeWhile fun c => c ≠ '\n'
  let body := match body.reverse with
    | '\r' :: r => if s.rest.length > body.length then r.reverse else body
    | _ => body
  (s.advance body.length).ignore

/-- Runs the scanner for at most `fuel` steps. -/
def run (mode : Mode) (s : Scanner) : Nat → Scanner
  | 0 => s
  | fuel + 1 =>
    match mode with
    | .stop => s
    | .void => let (s, m) := scanVoid s (s.rest.length + 1); run m s fuel
    | .value => let (s, m) := scanValue s (s.rest.length + 1); run m s fuel
    | .key => let (s, m) := scanKey [] s (s.rest.length + 1); run m s fuel
    | .commentThenVoid => run .void (skipComment s) fuel
    | .commentThenValue => run .value (skipComment s) fuel
    | .tableKey => let (s, m) := scanTableKey s; run m s fuel

/-- The tokens of a text, ending with the end token or an error. -/
def tokens (text : String) : List Token :=
  let s : Scanner := { rest := text.toList }
  (run .void s (4 * text.length + 8)).tokens.reverse

end AccessLayer.Toml
