/-!
Exact decimal views of binary64 values. A finite double is `mantissa * 2 ^ exponent`; every
decimal written from it is computed in exact natural-number arithmetic, so the digits never
depend on the rounding of an intermediate float. The main function, `Float.shortest`, finds the
fewest significant digits that read back to the same double, and of those the nearest.
-/
namespace AccessLayer.Decimal

/-- What a binary64 value is, decoded from its bits: not a number, an infinity, or a finite
magnitude `mantissa * 2 ^ exponent` with its sign. -/
inductive Kind where
  | nan
  | infinite (negative : Bool)
  | finite (negative : Bool) (mantissa : Nat) (exponent : Int) (lowerIsCloser : Bool)
  deriving Repr, DecidableEq

/-- Splits a double into its kind. For a finite value the mantissa includes the hidden bit;
`lowerIsCloser` marks the values whose lower neighbour is half as far as the upper one (the
first value of every binade except the smallest). -/
def classify (x : Float) : Kind :=
  let bits : Nat := x.toBits.toNat
  let negative : Bool := bits / Nat.pow 2 63 % 2 == 1
  let biased : Nat := bits / Nat.pow 2 52 % Nat.pow 2 11
  let fraction : Nat := bits % Nat.pow 2 52
  if biased == 2047 then
    if fraction == 0 then .infinite negative else .nan
  else if biased == 0 then
    .finite negative fraction (-1074) false
  else
    .finite negative (fraction + Nat.pow 2 52) ((biased : Int) - 1075) (fraction == 0 && biased > 1)

/-- `2 ^ e` split into a numerator and a denominator that are both natural numbers. -/
def twoPow (e : Int) : Nat × Nat :=
  if 0 ≤ e then (Nat.pow 2 e.toNat, 1) else (1, Nat.pow 2 (-e).toNat)

/-- `10 ^ e` split into a numerator and a denominator that are both natural numbers. -/
def tenPow (e : Int) : Nat × Nat :=
  if 0 ≤ e then (Nat.pow 10 e.toNat, 1) else (1, Nat.pow 10 (-e).toNat)

/-- Compares `c * 2 ^ e` with `d * 10 ^ k` exactly, by clearing both denominators. -/
def compareScaled (c : Nat) (e : Int) (d : Nat) (k : Int) : Ordering :=
  let (tn, td) := twoPow e
  let (fn, fd) := tenPow k
  compare (c * tn * fd) (d * fn * td)

/-- The number of decimal digits of `n` (none for zero). -/
def digitCount (n : Nat) : Nat :=
  if n < 10 then (if n = 0 then 0 else 1) else digitCount (n / 10) + 1
termination_by n
decreasing_by omega

/-- The decimal exponent of a positive `m * 2 ^ q`: the `E` with `10 ^ E ≤ m * 2 ^ q < 10 ^ (E+1)`.
The estimate from the integer part is corrected by at most a few steps either way. -/
def decimalExponent (m : Nat) (q : Int) : Int :=
  let (tn, td) := twoPow q
  let whole := m * tn / td
  if whole ≠ 0 then (digitCount whole : Int) - 1
  else
    -- below one: the least `j` with `m * 2^q * 10^j ≥ 1`, counted from the denominator's size
    let guess : Nat := digitCount (td / (m * tn)) - 1
    let fits (j : Nat) : Bool := m * tn * Nat.pow 10 j ≥ td
    let j := if fits guess then guess else if fits (guess + 1) then guess + 1 else guess + 2
    Int.neg j

/-- A decimal `digits * 10 ^ exponent`. -/
structure Scientific where
  digits : Nat
  exponent : Int
  deriving Repr, DecidableEq, Inhabited

/-- Removes trailing zero digits, moving them into the exponent. -/
def Scientific.normalize (s : Scientific) : Scientific :=
  if s.digits = 0 then ⟨0, 0⟩
  else if s.digits % 10 = 0 then Scientific.normalize ⟨s.digits / 10, s.exponent + 1⟩
  else s
termination_by s.digits
decreasing_by omega

/-- The number of significant digits. -/
def Scientific.length (s : Scientific) : Nat := digitCount s.digits

/-- The decimal exponent of the leading digit: `digits * 10 ^ exponent` lies in
`[10 ^ lead, 10 ^ (lead + 1))`. -/
def Scientific.lead (s : Scientific) : Int := s.exponent + s.length - 1

/-- Whether `d * 10 ^ k` reads back as the double `m * 2 ^ q`: it lies in the rounding interval,
whose ends belong to it exactly when `m` is even. All ends are written over `2 ^ (q - 2)`. -/
def readsBack (m : Nat) (q : Int) (lowerIsCloser : Bool) (d : Nat) (k : Int) : Bool :=
  let lo := if lowerIsCloser then 4 * m - 1 else 4 * m - 2
  let hi := 4 * m + 2
  let inclusive := m % 2 == 0
  let aboveLo := match compareScaled lo (q - 2) d k with
    | .lt => true
    | .eq => inclusive
    | .gt => false
  let belowHi := match compareScaled hi (q - 2) d k with
    | .gt => true
    | .eq => inclusive
    | .lt => false
  aboveLo && belowHi

/-- Of two decimals on one grid around `m * 2 ^ q`, the nearer; an exact tie goes to the even
one. -/
def nearer (m : Nat) (q : Int) (k : Int) (d₀ d₁ : Nat) : Nat :=
  -- distances scaled by the common denominator of both grids
  let (tn, td) := twoPow q
  let (fn, fd) := tenPow k
  let v := m * tn * fd
  let a := d₀ * fn * td
  let b := d₁ * fn * td
  let da := if v ≥ a then v - a else a - v
  let db := if v ≥ b then v - b else b - v
  if da < db then d₀ else if db < da then d₁ else if d₀ % 2 = 0 then d₀ else d₁

/-- The shortest decimal that reads back as `m * 2 ^ q`, trying 1 to 17 significant digits.
On each grid only the two neighbours of the value can be the answer, since the rounding
interval is convex and holds the value. -/
def shortestOf (m : Nat) (q : Int) (lowerIsCloser : Bool) : Scientific :=
  let lead := decimalExponent m q
  let (tn, td) := twoPow q
  let rec go (n : Nat) (fuel : Nat) : Scientific :=
    let k := lead - (n : Int) + 1
    let (fn, fd) := tenPow k
    let d₀ := m * tn * fd / (fn * td)
    let d₁ := d₀ + 1
    let ok₀ := readsBack m q lowerIsCloser d₀ k
    let ok₁ := readsBack m q lowerIsCloser d₁ k
    match fuel with
    | 0 => (Scientific.mk (nearer m q k d₀ d₁) k).normalize
    | fuel + 1 =>
      if ok₀ && ok₁ then (Scientific.mk (nearer m q k d₀ d₁) k).normalize
      else if ok₀ then (Scientific.mk d₀ k).normalize
      else if ok₁ then (Scientific.mk d₁ k).normalize
      else go (n + 1) fuel
  go 1 17

end AccessLayer.Decimal

namespace Float

open AccessLayer.Decimal in
/-- The shortest decimal that reads back as the magnitude of `x`; zero for zero and for values
that are not finite. -/
def shortest (x : Float) : Scientific :=
  match classify x with
  | .finite _ m q lowerIsCloser => if m = 0 then ⟨0, 0⟩ else shortestOf m q lowerIsCloser
  | _ => ⟨0, 0⟩

end Float
