import AccessLayer.Decimal.Shortest
/-!
Reading exact magnitudes as doubles. `nearest` takes a positive fraction `num / den` to the
binary64 value nearest to it, a tie going to the value with an even mantissa, and reports when
the fraction lies beyond the largest finite double (it then reads as an infinity). The whole
computation is exact natural-number arithmetic: the quotient is taken once at the precision of
the result, and its remainder decides the rounding.
-/
namespace AccessLayer.Decimal

/-- The number of binary digits of `n`; zero has none. -/
def bitLength (n : Nat) : Nat := if n = 0 then 0 else n.log2 + 1

/-- A binary64 value in the making: a magnitude `mantissa * 2 ^ exponent` with
`mantissa < 2 ^ 53`, or one too large for the format. -/
inductive Rounded where
  | finite (mantissa : Nat) (exponent : Int)
  | overflow
  deriving Repr, DecidableEq

/-- `num / den` scaled by `2 ^ -e` and rounded to the nearest natural number, a tie going to
the even one. -/
def scaledRound (num den : Nat) (e : Int) : Nat :=
  let (n, d) := if 0 ≤ e then (num, den * Nat.pow 2 e.toNat) else (num * Nat.pow 2 (-e).toNat, den)
  let q := n / d
  let r := n % d
  if 2 * r > d || (2 * r = d && q % 2 = 1) then q + 1 else q

/-- The binary exponent at which a positive `num / den` gets 53 significant bits, never below
the exponent of the smallest subnormal. -/
def exponentFor (num den : Nat) : Int :=
  let e₀ : Int := (bitLength num : Int) - bitLength den - 53
  -- `num / den / 2 ^ e₀` lies in `[2 ^ 52, 2 ^ 54)`; one more bit of exponent when it is too wide
  let wide : Bool :=
    if 0 ≤ e₀ then num ≥ Nat.pow 2 53 * (den * Nat.pow 2 e₀.toNat) else num * Nat.pow 2 (-e₀).toNat ≥ Nat.pow 2 53 * den
  max (if wide then e₀ + 1 else e₀) (-1074)

/-- The double nearest to the positive fraction `num / den`, as mantissa and exponent. -/
def roundFraction (num den : Nat) : Rounded :=
  let e := exponentFor num den
  let q := scaledRound num den e
  -- rounding up may carry into a 54th bit
  let (q, e) := if q = Nat.pow 2 53 then (Nat.pow 2 52, e + 1) else (q, e)
  if q ≥ Nat.pow 2 52 && e + 1075 ≥ 2047 then .overflow else .finite q e

/-- The bits of a double with sign `negative` and magnitude `r`; an overflow is an infinity. -/
def Rounded.bits (negative : Bool) : Rounded → UInt64
  | .overflow => UInt64.ofNat ((if negative then Nat.pow 2 63 else 0) + 2047 * Nat.pow 2 52)
  | .finite q e =>
    let sign := if negative then Nat.pow 2 63 else 0
    if q ≥ Nat.pow 2 52 then UInt64.ofNat (sign + (e + 1075).toNat * Nat.pow 2 52 + (q - Nat.pow 2 52))
    else UInt64.ofNat (sign + q)

/-- The double nearest to `num / den` with the sign `negative`, and whether the fraction is
too large for a finite double. A zero numerator gives a zero of that sign. -/
def nearest (negative : Bool) (num den : Nat) : Float × Bool :=
  if num = 0 || den = 0 then (Float.ofBits (if negative then UInt64.ofNat (Nat.pow 2 63) else 0), false)
  else
    let r := roundFraction num den
    (Float.ofBits (r.bits negative), r = .overflow)

end AccessLayer.Decimal
