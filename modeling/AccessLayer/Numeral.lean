import AccessLayer.Decimal.Nearest
import AccessLayer.Text.Quote
/-!
Numerals as command-line values: booleans, 64-bit integers and doubles.

* An integer is an optional sign and digits in base 10, or in base 2, 8 or 16 after a prefix
  `0b`, `0o` or `0x` (a lone leading `0` means base 8); values beyond 64-bit range are refused.
* A double is an optional sign and decimal digits with an optional point and `e` exponent, or
  hexadecimal digits after `0x` with a mandatory `p` exponent of two; or one of the words
  `inf`, `infinity` (signed or not) and `nan`, in any case. It is rounded to the nearest
  double; one beyond the largest finite double is refused.
* In both, `_` may separate digits, and may follow a base prefix.
* A boolean is one of `1 t T TRUE true True` or `0 f F FALSE false False`.

A refused numeral names the reader, the text and the fault, as in
`strconv.ParseInt: parsing "x": invalid syntax`.
-/
namespace AccessLayer

/-- Why a numeral is refused. -/
inductive NumeralFault where
  | malformed
  | outOfRange
  deriving Repr, DecidableEq, Inhabited

/-- A refused numeral: the reader that refused it, the text and the fault. -/
structure NumeralError where
  reader : String
  input : String
  fault : NumeralFault
  deriving Repr, DecidableEq, Inhabited

/-- The message of a refused numeral. -/
def NumeralError.message (e : NumeralError) : String :=
  "strconv." ++ e.reader ++ ": parsing " ++ Text.quote e.input ++ ": " ++
    match e.fault with
    | .malformed => "invalid syntax"
    | .outOfRange => "value out of range"

namespace Numeral

/-- `c` lower-cased when it is an ASCII capital. -/
def lowerAscii (c : Char) : Char :=
  if 'A' ≤ c && c ≤ 'Z' then Char.ofNat (c.toNat + 32) else c

/-- The value of a digit in bases up to 36: `0-9`, then letters in either case. -/
def digitValue (c : Char) : Option Nat :=
  let l := lowerAscii c
  if c.isDigit then some (c.toNat - '0'.toNat)
  else if 'a' ≤ l && l ≤ 'z' then some (l.toNat - 'a'.toNat + 10)
  else none

/-- Whether `c` is a hexadecimal digit. -/
def isHexDigit (c : Char) : Bool :=
  c.isDigit || (let l := lowerAscii c; 'a' ≤ l && l ≤ 'f')

/-- What the separator check saw last: the start, a digit (or base prefix), a separator,
something else; or a misplaced separator. -/
inductive Seen where
  | start
  | digit
  | separator
  | other
  | misplaced
  deriving DecidableEq

/-- One step of the separator check. -/
def Seen.step (hex : Bool) (saw : Seen) (c : Char) : Seen :=
  if saw = .misplaced then .misplaced
  else if c.isDigit || (hex && isHexDigit c) then .digit
  else if c = '_' then (if saw = .digit then .separator else .misplaced)
  else if saw = .separator then .misplaced
  else .other

/-- Whether every `_` of a numeral stands between two digits, or between a base prefix and a
digit. -/
def separatorsFit (cs : List Char) : Bool :=
  let body := match cs with
    | '+' :: r => r
    | '-' :: r => r
    | r => r
  let (saw, hex, rest) : Seen × Bool × List Char := match body with
    | '0' :: b :: r =>
      let l := lowerAscii b
      if l = 'b' || l = 'o' || l = 'x' then (.digit, l = 'x', r) else (.start, false, body)
    | _ => (.start, false, body)
  let last := rest.foldl (Seen.step hex) saw
  last ≠ .misplaced && last ≠ .separator

/-- The digits of an unsigned numeral in `base`, read from the left while the value stays
below `2 ^ 64`; a digit too large for the base is malformed, and the first digit that would
pass the bound ends the reading as out of range. Separators `_` are passed over when allowed. -/
def accumulate (base : Nat) (separators : Bool) : Nat → List Char → Except NumeralFault Nat
  | n, [] => .ok n
  | n, c :: rest =>
    if separators && c = '_' then accumulate base separators n rest
    else match digitValue c with
      | none => .error .malformed
      | some d =>
        if d ≥ base then .error .malformed
        else if n ≥ (Nat.pow 2 64 - 1) / base + 1 then .error .outOfRange
        else if n * base + d > Nat.pow 2 64 - 1 then .error .outOfRange
        else accumulate base separators (n * base + d) rest

/-- An unsigned numeral below `2 ^ 64`, its base given by its prefix. -/
def readUnsigned (cs : List Char) : Except NumeralFault Nat :=
  if cs.isEmpty then .error .malformed
  else
    let (base, digits) : Nat × List Char := match cs with
      | '0' :: b :: d :: r =>
        let l := lowerAscii b
        if l = 'b' then (2, d :: r) else if l = 'o' then (8, d :: r)
        else if l = 'x' then (16, d :: r) else (8, b :: d :: r)
      | '0' :: r => (8, r)
      | _ => (10, cs)
    match accumulate base true 0 digits with
    | .ok n => if cs.contains '_' && !separatorsFit cs then .error .malformed else .ok n
    | .error e => .error e

/-- A signed numeral in 64-bit range. -/
def readInt (s : String) : Except NumeralError Int :=
  let fail (f : NumeralFault) : Except NumeralError Int := .error ⟨"ParseInt", s, f⟩
  let cs := s.toList
  if cs.isEmpty then fail .malformed
  else
    let (negative, body) : Bool × List Char := match cs with
      | '+' :: r => (false, r)
      | '-' :: r => (true, r)
      | r => (false, r)
    match readUnsigned body with
    | .error f => fail f
    | .ok n =>
      if !negative && n ≥ Nat.pow 2 63 then fail .outOfRange
      else if negative && n > Nat.pow 2 63 then fail .outOfRange
      else .ok (if negative then -(n : Int) else n)

/-- An unsigned numeral in a given base, without prefix or separators, below `2 ^ 64`. -/
def readUnsignedIn (base : Nat) (s : String) : Except NumeralError Nat :=
  if s.isEmpty then .error ⟨"ParseUint", s, .malformed⟩
  else match accumulate base false 0 s.toList with
    | .ok n => .ok n
    | .error f => .error ⟨"ParseUint", s, f⟩

/-- A signed numeral in a given base, without prefix or separators, in 64-bit range. -/
def readIntIn (base : Nat) (s : String) : Except NumeralError Int :=
  let fail (f : NumeralFault) : Except NumeralError Int := .error ⟨"ParseInt", s, f⟩
  let cs := s.toList
  if cs.isEmpty then fail .malformed
  else
    let (negative, body) : Bool × List Char := match cs with
      | '+' :: r => (false, r)
      | '-' :: r => (true, r)
      | r => (false, r)
    if body.isEmpty then fail .malformed
    else match accumulate base false 0 body with
      | .error f => fail f
      | .ok n =>
        if !negative && n ≥ Nat.pow 2 63 then fail .outOfRange
        else if negative && n > Nat.pow 2 63 then fail .outOfRange
        else .ok (if negative then -(n : Int) else n)

/-- A boolean word. -/
def readBool (s : String) : Except NumeralError Bool :=
  if ["1", "t", "T", "TRUE", "true", "True"].contains s then .ok true
  else if ["0", "f", "F", "FALSE", "false", "False"].contains s then .ok false
  else .error ⟨"ParseBool", s, .malformed⟩

/-- How many leading characters of `cs` spell the start of the lower-case `word`, ignoring the
case of ASCII letters. -/
def matchedPrefix : List Char → List Char → Nat
  | c :: cs, w :: ws => if lowerAscii c = w then matchedPrefix cs ws + 1 else 0
  | _, _ => 0

/-- A special word at the start of `cs`: an infinity, possibly signed, or NaN; with the number
of characters it takes. Of `infinity` a prefix of three letters counts as `inf`. -/
def special (cs : List Char) : Option (Float × Nat) :=
  let infinity (negative : Bool) (signs : Nat) (body : List Char) : Option (Float × Nat) :=
    let n := matchedPrefix body "infinity".toList
    let n := if 3 < n && n < 8 then 3 else n
    if n = 3 || n = 8 then some (if negative then -(1.0 / 0.0) else 1.0 / 0.0, signs + n)
    else none
  match cs with
  | '+' :: r => infinity false 1 r
  | '-' :: r => infinity true 1 r
  | c :: _ =>
    if c = 'i' || c = 'I' then infinity false 0 cs
    else if (c = 'n' || c = 'N') && matchedPrefix cs "nan".toList = 3 then some (0.0 / 0.0, 3)
    else none
  | [] => none

/-- The digits of a float literal read so far: their value, how many count (leading zeros do
not), where the point stands among them, and what was seen. -/
structure Digits where
  value : Nat := 0
  count : Nat := 0
  point : Int := 0
  sawPoint : Bool := false
  sawDigit : Bool := false
  separators : Bool := false

/-- Reads the digits and the point of a float literal in base 10, or 16 when `hex`. -/
def scanDigits (hex : Bool) : Digits → List Char → Digits × List Char
  | m, [] => (m, [])
  | m, c :: rest =>
    if c = '_' then scanDigits hex { m with separators := true } rest
    else if c = '.' then
      if m.sawPoint then (m, c :: rest)
      else scanDigits hex { m with sawPoint := true, point := m.count } rest
    else if c.isDigit || (hex && isHexDigit c) then
      let m := { m with sawDigit := true }
      if c = '0' && m.count = 0 then scanDigits hex { m with point := m.point - 1 } rest
      else
        let d := (digitValue c).getD 0
        scanDigits hex { m with value := m.value * (if hex then 16 else 10) + d,
                                count := m.count + 1 } rest
    else (m, c :: rest)

/-- Reads the digits of an exponent; past four digits the value stops growing. -/
def scanExponent (e : Nat) (separators : Bool) : List Char → Nat × Bool × List Char
  | [] => (e, separators, [])
  | c :: rest =>
    if c.isDigit then scanExponent (if e < 10000 then e * 10 + (c.toNat - '0'.toNat) else e)
      separators rest
    else if c = '_' then scanExponent e true rest
    else (e, separators, c :: rest)

/-- A float literal: the sign, the digits as a whole number, and the power of the base
(ten, or two for a hexadecimal literal) that scales them. -/
structure FloatLiteral where
  negative : Bool
  hex : Bool
  digits : Nat
  scale : Int

/-- Reads a float literal from the start of `cs`, giving it and what follows it; `none` when
the start of `cs` is not one. -/
def scanFloat (cs : List Char) : Option (FloatLiteral × List Char) :=
  let (negative, afterSign) : Bool × List Char := match cs with
    | '+' :: r => (false, r)
    | '-' :: r => (true, r)
    | r => (false, r)
  let (hex, body) : Bool × List Char := match afterSign with
    | '0' :: x :: c :: r => if lowerAscii x = 'x' then (true, c :: r) else (false, afterSign)
    | _ => (false, afterSign)
  let (m, rest) := scanDigits hex {} body
  if !m.sawDigit then none
  else
    let point : Int := if m.sawPoint then m.point else m.count
    let unit : Int := if hex then 4 else 1
    let mark := if hex then 'p' else 'e'
    let exponent : Option (Int × Bool × List Char) := match rest with
      | c :: r =>
        if lowerAscii c = mark then
          let (sign, digits) : Int × List Char := match r with
            | '+' :: d => (1, d)
            | '-' :: d => (-1, d)
            | d => (1, d)
          match digits with
          | d :: _ =>
            if d.isDigit then
              let (e, seps, after) := scanExponent 0 false digits
              some (sign * e, seps, after)
            else none
          | [] => none
        else if hex then none else some (0, false, rest)
      | [] => if hex then none else some (0, false, rest)
    match exponent with
    | none => none
    | some (e, seps, after) =>
      let taken := cs.take (cs.length - after.length)
      if (m.separators || seps) && !separatorsFit taken then none
      else some (⟨negative, hex, m.value, unit * point + e - unit * m.count⟩, after)

/-- The double nearest to a literal, and whether it lies beyond the largest finite double.
Magnitudes far outside the range of doubles are decided from the position of the leading
digit alone. -/
def FloatLiteral.value (lit : FloatLiteral) : Float × Bool :=
  if lit.digits = 0 then Decimal.nearest lit.negative 0 1
  else
    -- the leading digit's power of the base, up to a digit's width
    let lead : Int := lit.scale + (if lit.hex then Decimal.bitLength lit.digits
      else Decimal.digitCount lit.digits)
    let (top, bottom) : Int × Int := if lit.hex then (1100, -1200) else (330, -360)
    if lead > top then (if lit.negative then -(1.0 / 0.0) else 1.0 / 0.0, true)
    else if lead < bottom then Decimal.nearest lit.negative 0 1
    else
      let (num, den) := if lit.hex then Decimal.twoPow lit.scale else Decimal.tenPow lit.scale
      Decimal.nearest lit.negative (lit.digits * num) den

/-- A double numeral. -/
def readFloat (s : String) : Except NumeralError Float :=
  let fail (f : NumeralFault) : Except NumeralError Float := .error ⟨"ParseFloat", s, f⟩
  let cs := s.toList
  match special cs with
  | some (x, n) => if n = cs.length then .ok x else fail .malformed
  | none =>
    match scanFloat cs with
    | some (lit, []) =>
      let (x, overflow) := lit.value
      if overflow then fail .outOfRange else .ok x
    | _ => fail .malformed

end Numeral

end AccessLayer
