/-!
The first record of comma-separated text. A record is one line of fields separated by commas;
a field in double quotes may hold commas, newlines and doubled quotes, and must be followed by a
comma or the end of its line. Blank lines before the record are skipped, a carriage return before
a newline is dropped, and so is one that ends the text.

A quote inside an unquoted field, or a quoted field that is not closed properly, is refused with
its line and its column, counted in bytes from 1; text with no record in it is refused as `EOF`.
-/
namespace AccessLayer.Text

/-- Why text holds no first record. -/
inductive CsvError where
  /-- A quote inside an unquoted field, at a line and column, in the record that starts on
  line `start`. -/
  | bareQuote (start line column : Nat)
  /-- A quoted field that is not closed, or closed and followed by something else. -/
  | looseQuote (start line column : Nat)
  /-- No record at all. -/
  | endOfText
  deriving Repr, DecidableEq

/-- The message of a refusal. -/
def CsvError.message : CsvError → String
  | .bareQuote s l c => position s l c ++ "bare \" in non-quoted-field"
  | .looseQuote s l c => position s l c ++ "extraneous or missing \" in quoted-field"
  | .endOfText => "EOF"
where
  position (s l c : Nat) : String :=
    (if s ≠ l then "record on line " ++ toString s ++ "; " else "") ++ "parse error on line " ++
      toString l ++ ", column " ++ toString c ++ ": "

/-- The lines of a text, each with its newline: a carriage return before a newline is dropped,
and so is one at the end of the text. -/
def csvLines (cs : List Char) : List (List Char) :=
  let pieces := splitKeeping [] cs
  pieces.map fun l => match l.reverse with
    | '\n' :: '\r' :: r => ('\n' :: r).reverse
    | '\r' :: r => r.reverse
    | _ => l
where
  /-- Cuts after every newline; the last piece is the text after the last newline, if any. -/
  splitKeeping (piece : List Char) : List Char → List (List Char)
    | [] => if piece.isEmpty then [] else [piece.reverse]
    | '\n' :: rest => ('\n' :: piece).reverse :: splitKeeping [] rest
    | c :: rest => splitKeeping (c :: piece) rest

/-- Where the reading of a record stands: at the start of a field, inside an unquoted field
(its text reversed), inside a quoted field, or just after a quote inside a quoted field. -/
inductive CsvCell where
  | start
  | bare (text : List Char)
  | quoted (text : List Char)
  | closing (text : List Char)

/-- Reads the fields of the record that starts on line `start`, from its current line and
column. -/
def csvFields (start : Nat) (fields : List String) (line column : Nat) :
    CsvCell → List Char → Except CsvError (List String)
  | .start, [] => .ok (fields ++ [""])
  | .bare t, [] => .ok (fields ++ [String.ofList t.reverse])
  | .quoted _, [] => .error (.looseQuote start line column)
  | .closing t, [] => .ok (fields ++ [String.ofList t.reverse])
  | .start, c :: rest =>
    if c = '"' then csvFields start fields line (column + 1) (.quoted []) rest
    else if c = ',' then csvFields start (fields ++ [""]) line (column + 1) .start rest
    else if c = '\n' then .ok (fields ++ [""])
    else csvFields start fields line (column + c.utf8Size) (.bare [c]) rest
  | .bare t, c :: rest =>
    if c = ',' then csvFields start (fields ++ [String.ofList t.reverse]) line (column + 1) .start rest
    else if c = '\n' then .ok (fields ++ [String.ofList t.reverse])
    else if c = '"' then .error (.bareQuote start line column)
    else csvFields start fields line (column + c.utf8Size) (.bare (c :: t)) rest
  | .quoted t, c :: rest =>
    if c = '"' then csvFields start fields line (column + 1) (.closing t) rest
    else if c = '\n' && !rest.isEmpty then csvFields start fields (line + 1) 1 (.quoted (c :: t)) rest
    else csvFields start fields line (column + c.utf8Size) (.quoted (c :: t)) rest
  | .closing t, c :: rest =>
    if c = '"' then csvFields start fields line (column + 1) (.quoted ('"' :: t)) rest
    else if c = ',' then
      csvFields start (fields ++ [String.ofList t.reverse]) line (column + 1) .start rest
    else if c = '\n' then .ok (fields ++ [String.ofList t.reverse])
    else .error (.looseQuote start line (column - 1))

/-- The fields of the first record of a text. -/
def csvRecord (s : String) : Except CsvError (List String) :=
  let lines := csvLines s.toList
  let blank := (lines.takeWhile (· = ['\n'])).length
  match lines.drop blank with
  | [] => .error .endOfText
  | rest => csvFields (blank + 1) [] (blank + 1) 1 .start rest.flatten

end AccessLayer.Text
