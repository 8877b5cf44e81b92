/-!
Double-quoted string literals. A character is written as itself when it is printable (a
letter, mark, number, punctuation or symbol, or the ASCII space); the quote and the backslash
are escaped with a backslash; the usual control characters get their one-letter escapes; any
other character is written as a hexadecimal escape of two, four or eight digits.
-/
namespace AccessLayer.Text

/-- Whether `c` is a control, format, separator (other than the ASCII space), private-use or
noncharacter code point, none of which is written as itself. -/
def isUnprintable (c : Char) : Bool :=
  let n := c.toNat
  n < 0x20 || (0x7F ≤ n && n ≤ 0xA0) || n == 0xAD || (0x600 ≤ n && n ≤ 0x605) ||
    n == 0x61C || n == 0x6DD || n == 0x70F || n == 0x1680 || n == 0x180E ||
    (0x2000 ≤ n && n ≤ 0x200F) || (0x2028 ≤ n && n ≤ 0x202F) || (0x205F ≤ n && n ≤ 0x206F) ||
    n == 0x3000 || (0xD800 ≤ n && n ≤ 0xF8FF) || n == 0xFEFF || (0xFFF9 ≤ n && n ≤ 0xFFFB) ||
    n == 0xFFFE || n == 0xFFFF || n ≥ 0xF0000 || n == 0xE0001 || (0xE0020 ≤ n && n ≤ 0xE007F)

/-- The lower-case hexadecimal digit of `n < 16`. -/
def hexDigit (n : Nat) : Char :=
  if n < 10 then Char.ofNat (48 + n) else Char.ofNat (87 + n)

/-- `n` as exactly `width` lower-case hexadecimal digits. -/
def hexFixed (width n : Nat) : List Char :=
  (List.range width).reverse.map fun i => hexDigit (n / Nat.pow 16 i % 16)

/-- The escaped form of one character inside a double-quoted literal. -/
def quoteChar (c : Char) : List Char :=
  if c = '"' then ['\\', '"']
  else if c = '\\' then ['\\', '\\']
  else if c = '\x07' then ['\\', 'a']
  else if c = '\x08' then ['\\', 'b']
  else if c = '\x0c' then ['\\', 'f']
  else if c = '\n' then ['\\', 'n']
  else if c = '\r' then ['\\', 'r']
  else if c = '\t' then ['\\', 't']
  else if c = '\x0b' then ['\\', 'v']
  else if !isUnprintable c then [c]
  else if c.toNat < 0x20 || c.toNat == 0x7F then '\\' :: 'x' :: hexFixed 2 c.toNat
  else if c.toNat < 0x10000 then '\\' :: 'u' :: hexFixed 4 c.toNat
  else '\\' :: 'U' :: hexFixed 8 c.toNat

/-- `s` as a double-quoted literal. -/
def quote (s : String) : String :=
  String.ofList ('"' :: (s.toList.flatMap quoteChar ++ ['"']))

/-- `c` as a single-quoted character literal: the single quote is escaped instead of the
double quote. -/
def quoteRune (c : Char) : String :=
  let body := if c = '\'' then ['\\', '\''] else if c = '"' then ['"'] else quoteChar c
  String.ofList ('\'' :: (body ++ ['\'']))

/-- Whether `s` can stand between backquotes: it holds no backquote, no byte-order mark, no
delete and no control character other than the tab. -/
def canBackquote (s : String) : Bool :=
  s.toList.all fun c =>
    c ≠ '\x60' && c.toNat ≠ 0xFEFF && c.toNat ≠ 0x7F && (c.toNat ≥ 0x20 || c = '\t')

/-- `s` between backquotes when it can stand there, otherwise double-quoted. -/
def quotePlain (s : String) : String :=
  if canBackquote s then "\x60" ++ s ++ "\x60" else quote s

end AccessLayer.Text
