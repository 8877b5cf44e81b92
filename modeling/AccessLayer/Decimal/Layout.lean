import AccessLayer.Decimal.Shortest
/-!
How decimals are laid out as text. A `Layout` records every decision of a number format that
the digits leave open: which leading exponents are written positionally, how the exponent is
signed and padded, and the words for the values that are not finite. `Float.fixed` writes a
value rounded to a number of places, ties going to the even neighbour.
-/
namespace AccessLayer.Decimal

/-- The decisions of a shortest-digits number format. -/
structure Layout where
  /-- Leading exponents from this one up are written positionally... -/
  lowestPositional : Int
  /-- ...up to, and without, this one. -/
  firstExponential : Int
  /-- The least number of exponent digits. -/
  exponentDigits : Nat
  /-- A negative exponent of one digit is written without its padding zero. -/
  trimNegativeExponent : Bool
  /-- Positive values carry a plus sign. -/
  plusSign : Bool
  nan : String
  infinity : String
  negativeInfinity : String

/-- The general format of printed values: positional for leading exponents from -4 to 5,
otherwise `d.ddde±XX` with at least two exponent digits. -/
def Layout.general : Layout :=
  ⟨-4, 6, 2, false, false, "NaN", "+Inf", "-Inf"⟩

/-- The general format with a sign always written, as for imaginary parts. -/
def Layout.signed : Layout :=
  { Layout.general with plusSign := true, nan := "+NaN" }

/-- The interchange format: positional from `1e-6` up to `1e21`, and a one-digit negative
exponent without padding. -/
def Layout.interchange : Layout :=
  ⟨-6, 21, 2, true, false, "NaN", "+Inf", "-Inf"⟩

/-- The positional format: every finite value written without an exponent. -/
def Layout.positional : Layout :=
  { Layout.general with lowestPositional := -400, firstExponential := 400 }

/-- `n` in decimal, padded with zeros on the left to at least `width` digits. -/
def padded (n : Nat) (width : Nat) : String :=
  let s := toString n
  String.ofList (List.replicate (width - s.length) '0') ++ s

/-- The digit characters of `n`. -/
def digitText (n : Nat) : String := toString n

/-- Writes a normalized nonzero decimal in positional notation. -/
def Scientific.positional (s : Scientific) : String :=
  let text := digitText s.digits
  if 0 ≤ s.exponent then text ++ String.ofList (List.replicate s.exponent.toNat '0')
  else
    let places := (-s.exponent).toNat
    if places < text.length then
      let whole := text.take (text.length - places)
      let frac := text.drop (text.length - places)
      whole.toString ++ "." ++ frac.toString
    else "0." ++ String.ofList (List.replicate (places - text.length) '0') ++ text

/-- Writes a normalized nonzero decimal as `d.ddd` followed by the exponent of its lead digit. -/
def Scientific.exponential (layout : Layout) (s : Scientific) : String :=
  let text := digitText s.digits
  let mantissa :=
    if text.length ≤ 1 then text else (text.take 1).toString ++ "." ++ (text.drop 1).toString
  let lead := s.lead
  let sign := if lead < 0 then "-" else "+"
  let width := if layout.trimNegativeExponent && lead < 0 then 1 else layout.exponentDigits
  mantissa ++ "e" ++ sign ++ padded lead.natAbs width

end AccessLayer.Decimal

namespace Float

open AccessLayer.Decimal

/-- The text of `x` in the fewest digits that read back, laid out by `layout`. -/
def render (layout : Layout) (x : Float) : String :=
  match classify x with
  | .nan => layout.nan
  | .infinite negative => if negative then layout.negativeInfinity else layout.infinity
  | .finite negative m _ _ =>
    let sign := if negative then "-" else if layout.plusSign then "+" else ""
    if m = 0 then sign ++ "0"
    else
      let s := x.shortest
      let lead := s.lead
      if layout.lowestPositional ≤ lead && lead < layout.firstExponential then
        sign ++ s.positional
      else sign ++ s.exponential layout

/-- `num / den` rounded to the nearest natural number, a tie going to the even one. -/
def roundHalfEven (num den : Nat) : Nat :=
  let q := num / den
  let r := num % den
  if 2 * r < den then q
  else if 2 * r > den then q + 1
  else if q % 2 = 0 then q else q + 1

/-- The text of `x` rounded to `places` decimals, the exact binary value rounded half to even.
A negative value, zero included, keeps its minus sign. -/
def fixed (places : Nat) (x : Float) : String :=
  match classify x with
  | .nan => "NaN"
  | .infinite negative => if negative then "-Inf" else "+Inf"
  | .finite negative m q _ =>
    let (tn, td) := twoPow q
    let n := roundHalfEven (m * tn * Nat.pow 10 places) td
    let whole := n / Nat.pow 10 places
    let frac := n % Nat.pow 10 places
    let body :=
      if places = 0 then Nat.repr whole else Nat.repr whole ++ "." ++ padded frac places
    (if negative then "-" else "") ++ body

/-- The general text of `x`. -/
def general (x : Float) : String := x.render Layout.general

/-- The text of a complex number as `(re±imi)`, both parts in the general format. -/
def complexText (re im : Float) : String :=
  "(" ++ re.render Layout.general ++ im.render Layout.signed ++ "i)"

end Float
