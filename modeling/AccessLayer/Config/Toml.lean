import AccessLayer.Config.TomlLex
import AccessLayer.Numeral
/-!
TOML documents. A document is a table of keys; a value is a string, a number, a boolean, a
date kept as written, an array, a table, or an array of tables. Reading follows the token list:
`key = value` lines go into the current table, `[a.b]` makes `a.b` the current table and
`[[a.b]]` adds a table to the array `a.b`. Dotted keys make the tables they pass through.

A document that cannot be read is refused with the position of the token at fault, as in
`(1, 9): unclosed string`; a key given twice, a table defined twice and a value where a table
is needed are refused too.
-/
namespace AccessLayer.Toml

/-- A TOML value. Tables keep their keys in the order they were given; an inline table is
closed to keys added later. -/
inductive Value where
  | text (s : String)
  | integer (n : Int)
  | real (x : Float)
  | boolean (b : Bool)
  | moment (s : String)
  | array (items : List Value)
  | table (inline : Bool) (entries : List (String × Value))
  | tables (items : List Value)
  deriving Inhabited

namespace Value

/-- The empty table. -/
def empty : Value := .table false []

/-- The keys and values of a table. -/
def entries : Value → List (String × Value)
  | .table _ es => es
  | _ => []

/-- Whether a value is an inline table. -/
def inline : Value → Bool
  | .table i _ => i
  | _ => false

/-- Whether a value is a table. -/
def isTable : Value → Bool
  | .table _ _ => true
  | _ => false

/-- The value of a key of a table. -/
def find? (v : Value) (k : String) : Option Value := v.entries.lookup k

/-- The table with a key set, in place when present and last otherwise. -/
def insert (v : Value) (k : String) (x : Value) : Value :=
  match v with
  | .table i es =>
    if es.any (·.1 = k) then .table i (es.map fun (k', y) => if k' = k then (k', x) else (k', y))
    else .table i (es ++ [(k, x)])
  | other => other

/-- The value at a path of keys: through tables, and through the latest table of an array of
tables. -/
def at? (v : Value) : List String → Option Value
  | [] => some v
  | [k] => v.find? k
  | k :: ks =>
    match v.find? k with
    | some (.table i es) => (Value.table i es).at? ks
    | some (.tables ts) => match ts.getLast? with
      | some t => t.at? ks
      | none => none
    | _ => none

/-- Changes the table at a path of keys, making the tables that are missing on the way; the
latest table of an array of tables stands for the array. -/
def along (v : Value) (path : List String) (f : Value → Except String Value) :
    Except String Value :=
  match path with
  | [] => f v
  | k :: ks =>
    match v.find? k with
    | none => do
      let sub ← (Value.table v.inline []).along ks f
      .ok (v.insert k sub)
    | some (.table i es) => do
      let sub ← (Value.table i es).along ks f
      .ok (v.insert k sub)
    | some (.tables ts) =>
      match ts.getLast? with
      | some t => do
        let sub ← t.along ks f
        .ok (v.insert k (.tables (ts.dropLast ++ [sub])))
      | none => .error ("unknown type for path " ++ ".".intercalate path)
    | some _ => .error ("unknown type for path " ++ ".".intercalate path ++ " (" ++ k ++ ")")

end Value

/-- Splits a key into its parts: bare parts, quoted parts, dots between them. -/
def keyParts (key : String) : Except String (List String) :=
  let rec go (cs : List Char) (parts : List String) (fuel : Nat) : Except String (List String) :=
    match fuel with
    | 0 => .ok parts
    | fuel + 1 =>
      let cs := cs.dropWhile isSpace
      match cs with
      | [] => .ok parts
      | c :: rest =>
        if isBareChar c then
          let word := (c :: rest).takeWhile isBareChar
          let after := (c :: rest).drop word.length
          match after with
          | [] => go [] (parts ++ [String.ofList word]) fuel
          | '.' :: _ => go after (parts ++ [String.ofList word]) fuel
          | d :: _ =>
            if isSpace d then
              let past := after.dropWhile isSpace
              match past with
              | [] => go [] (parts ++ [String.ofList word]) fuel
              | '.' :: _ => go past (parts ++ [String.ofList word]) fuel
              | e :: _ => .error ("invalid key character after whitespace: " ++ String.singleton e)
            else .error ("invalid bare key character: " ++ String.singleton d)
        else if c = '\'' || c = '"' then
          match rest.findIdx? (· = c) with
          | some i => go (rest.drop (i + 1)) (parts ++ [String.ofList (rest.take i)]) fuel
          | none => .error (if c = '\'' then "unclosed single-quoted key"
              else "unclosed double-quoted key")
        else if c = '.' then
          match rest with
          | [] => .error "unexpected end of key"
          | d :: _ =>
            if isBareChar d || d = '\'' || d = '"' || d = ' ' then go rest parts fuel
            else .error "expecting key part after dot"
        else .error ("invalid key character: " ++ String.singleton c)
  if key.isEmpty then .error "empty key"
  else match go key.toList [] (key.length + 1) with
    | .ok [] => .error "empty key"
    | r => r

/-- Reading a document: the tokens left, the document so far, the current table, and the table
headers seen. -/
structure Reading where
  tokens : List Token
  root : Value := Value.empty
  current : List String := []
  seen : List String := []

/-- Steps of reading, refused with a message. -/
abbrev ReadM := StateT Reading (Except String)

/-- Refuses at a token. -/
def raise {α : Type} (t : Option Token) (message : String) : ReadM α :=
  throw ((t.map Token.place).getD "(0, 0)" ++ ": " ++ message)

/-- The next token, taken. -/
def take : ReadM (Option Token) :=
  modifyGet fun r => (r.tokens.head?, { r with tokens := r.tokens.tail })

/-- The next token, left in place. -/
def look : ReadM (Option Token) := do return (← get).tokens.head?

/-- Takes a token of kind `k`, or refuses. -/
def expect (k : TokenKind) : ReadM Unit := do
  let t ← take
  match t with
  | some tok => if tok.kind = k then pure () else
      raise t ("was expecting token " ++ k.name ++ ", but got " ++ tok.show ++ " instead")
  | none => raise t ("was expecting token " ++ k.name ++ ", but token stream is empty")

/-- The parts of a key token, or a refusal at it. -/
def partsOf (t : Token) (what : String) : ReadM (List String) :=
  match keyParts t.text with
  | .ok ps => pure ps
  | .error e => raise (some t) (what ++ e)

/-- Whether every `_` of a number stands after a digit and before another character. -/
def separatorsFit (digit : Char → Bool) (cs : List Char) : Bool :=
  let rec go (before : Bool) : List Char → Bool
    | [] => true
    | c :: rest => if c = '_' && (!before || rest.isEmpty) then false else go (digit c) rest
  go false cs

/-- The value of an integer token: decimal, or hexadecimal, octal or binary after `0x`, `0o`,
`0b`; beyond the range of signed 64-bit numbers it may still fit the unsigned range. -/
def integerOf (t : Token) : ReadM Value := do
  let cleaned := t.text.toList.filter (· ≠ '_')
  let (base, digits, hex) ← match cleaned with
    | '0' :: b :: d :: r =>
      if b = 'x' then pure (16, d :: r, true)
      else if b = 'o' then pure (8, d :: r, false)
      else if b = 'b' then pure (2, d :: r, false)
      else throw "invalid base"
    | cs => pure (10, cs, false)
  if hex && !separatorsFit isHex t.text.toList then raise (some t) "invalid use of _ in hex number"
  if !hex && !separatorsFit Char.isDigit t.text.toList then raise (some t) "invalid use of _ in number"
  let s := String.ofList digits
  match Numeral.readIntIn base s with
  | .ok n => pure (.integer n)
  | .error e =>
    if digits.head? = some '-' then raise (some t) e.message
    else match Numeral.readUnsignedIn base s with
      | .ok n => pure (.integer n)
      | .error e' => raise (some t) e'.message

/-- The value of a float token. -/
def realOf (t : Token) : ReadM Value := do
  if !separatorsFit Char.isDigit t.text.toList then raise (some t) "invalid use of _ in number"
  match Numeral.readFloat (String.ofList (t.text.toList.filter (· ≠ '_'))) with
  | .ok x => pure (.real x)
  | .error e => raise (some t) e.message

mutual

/-- Reads a value; nesting and length are bounded by `fuel`. -/
def value : Nat → ReadM Value
  | 0 => throw "value nested too deeply"
  | fuel + 1 => do
    let t ← take
    match t with
    | none => raise t "expecting a value"
    | some tok =>
      match tok.kind with
      | .eof => raise t "expecting a value"
      | .text => pure (.text tok.text)
      | .yes => pure (.boolean true)
      | .no => pure (.boolean false)
      | .infinity => pure (.real (if tok.text.startsWith "-" then -(1.0 / 0.0) else 1.0 / 0.0))
      | .nan => pure (.real (0.0 / 0.0))
      | .integer => integerOf tok
      | .real => realOf tok
      | .moment => pure (.moment tok.text)
      | .leftBracket => array fuel []
      | .leftBrace => inlineTable fuel Value.empty none
      | .equal => raise t "cannot have multiple equals for the same key"
      | .error => raise t tok.show
      | _ => throw ("unhandled token: " ++ tok.show)

/-- Reads the rest of an array after `[`; an array of inline tables is an array of tables. -/
def array : Nat → List Value → ReadM Value
  | 0, _ => throw "value nested too deeply"
  | fuel + 1, items => do
    let t ← look
    match t with
    | none => raise t "unterminated array"
    | some tok =>
      if tok.kind = .eof then raise t "unterminated array"
      else if tok.kind = .rightBracket then
        let _ ← take
        if !items.isEmpty && items.all Value.isTable then pure (.tables items)
        else pure (.array items)
      else do
        let v ← value fuel
        let t' ← look
        match t' with
        | none => raise t' "unterminated array"
        | some tok' =>
          if tok'.kind = .eof then raise t' "unterminated array"
          else if tok'.kind ≠ .rightBracket && tok'.kind ≠ .comma then raise t' "missing comma"
          else do
            if tok'.kind = .comma then
              let _ ← take
            array fuel (items ++ [v])

/-- Reads the rest of an inline table after `{`; `previous` is the last token read in it. -/
def inlineTable : Nat → Value → Option Token → ReadM Value
  | 0, _, _ => throw "value nested too deeply"
  | fuel + 1, table, previous => do
    let t ← look
    let afterComma : Bool := (previous.map fun p => p.kind == .comma).getD false
    match t with
    | none => raise t "unterminated inline table"
    | some tok =>
      if tok.kind = .eof then raise t "unterminated inline table"
      else if tok.kind = .rightBrace then
        let _ ← take
        if afterComma then raise previous "trailing comma at the end of inline table"
        else pure (.table true table.entries)
      else if tok.kind = .key || tok.kind = .integer || tok.kind = .text then do
        if previous.isSome && !afterComma then
          raise t "comma expected between fields in inline table"
        let _ ← take
        expect .equal
        let parts ← partsOf tok "invalid key: "
        let v ← value fuel
        let table := match (table.along parts.dropLast fun inner =>
            .ok (inner.insert (parts.getLastD "") v)) with
          | .ok tb => tb
          | .error _ => table
        inlineTable fuel table t
      else if tok.kind = .comma then do
        if afterComma then raise t "need field between two commas in inline table"
        let _ ← take
        inlineTable fuel table t
      else raise t ("unexpected token type in inline table: " ++ tok.show)

end

/-- Reads `key = value` into the current table. -/
def assignment (fuel : Nat) : ReadM Unit := do
  let t ← take
  let key := t.getD default
  expect .equal
  let parts ← partsOf key "invalid key: "
  let v ← value fuel
  let r ← get
  let path := r.current ++ parts.dropLast
  let last := parts.getLastD ""
  match r.root.at? path with
  | some (.table _ _) | some (.tables _) | none => pure ()
  | some _ => raise t ("Unknown table type for path: " ++ ".".intercalate path)
  let placed := r.root.along path fun target =>
    if target.inline then
      .error (key.place ++ ": could not add key or sub-table to exist inline table or its " ++
        "sub-table : " ++ ".".intercalate path)
    else if (target.find? last).isSome then
      .error (key.place ++ ": The following key was defined twice: " ++
        ".".intercalate (path ++ [last]))
    else .ok (target.insert last v)
  match placed with
  | .ok root => set { r with root }
  | .error e => throw e

/-- Reads a table header `[a.b]`. -/
def tableHeader : ReadM Unit := do
  let _ ← take
  let t ← take
  let key := t.getD default
  if key.kind ≠ .tableKey then
    raise t ("unexpected token " ++ key.show ++ ", was expecting a table key")
  let r ← get
  if r.seen.contains key.text then raise t "duplicated tables"
  set { r with seen := r.seen ++ [key.text] }
  let parts ← partsOf key "invalid table array key: "
  let r ← get
  match r.root.along parts .ok with
  | .error e => raise t e
  | .ok root =>
    if (root.at? parts).map Value.inline |>.getD false then
      raise t ("could not re-define exist inline table or its sub-table : " ++ ".".intercalate parts)
    set { r with root, current := parts }
  expect .rightBracket

/-- Reads an array table header `[[a.b]]`, adding a table to the array. -/
def arrayTableHeader : ReadM Unit := do
  let _ ← take
  let t ← take
  let key := t.getD default
  if key.kind ≠ .arrayTableKey then
    raise t ("unexpected token " ++ key.show ++ ", was expecting a table array key")
  let parts ← partsOf key "invalid table array key: "
  let r ← get
  let root := (r.root.along parts.dropLast .ok).toOption.getD r.root
  let existing ← match root.at? parts with
    | none => pure []
    | some (.tables ts) => pure ts
    | some _ => raise t ("key " ++ key.show ++ " is already assigned and not of type table array")
  let root := (root.along parts.dropLast fun target =>
    .ok (target.insert (parts.getLastD "") (.tables (existing ++ [Value.empty])))).toOption.getD root
  let kept := r.seen.filter fun k => !(key.text ++ ".").isPrefixOf k
  let seen := if kept.getLast? = some key.text then kept else kept ++ [key.text]
  set { r with root, current := parts, seen }
  expect .doubleRight

/-- Reads the document line by line, for at most `fuel` lines. -/
def document : Nat → ReadM Unit
  | 0 => pure ()
  | fuel + 1 => do
    let t ← look
    match t with
    | none => pure ()
    | some tok =>
      match tok.kind with
      | .eof => pure ()
      | .doubleLeft => arrayTableHeader; document fuel
      | .leftBracket => tableHeader; document fuel
      | .key => assignment ((← get).tokens.length + 1); document fuel
      | .error => raise t ("parsing error: " ++ tok.show)
      | k => raise t ("unexpected token " ++ k.name)

/-- Reads a TOML document; a leading byte-order mark is passed over. -/
def read (text : String) : Except String Value :=
  let text := if text.startsWith "\uFEFF" then (text.drop 1).toString else text
  let ts := tokens text
  match (document (ts.length + 1)).run { tokens := ts } with
  | .ok (_, r) => .ok r.root
  | .error e => .error e

end AccessLayer.Toml
