import Mathlib
import AccessLayer.Proofs.SliceReads
/-!
The order of binary64 floats. A float that is a number stands for an extended real
(`UnpackedFloat.toEReal`): its exact value `± m * 2 ^ e` when finite, zero for either zero, `⊤`
and `⊥` for the infinities. Every bit pattern unpacks to a canonical form, where a finite value
has the smallest exponent the format allows (`UnpackedFloat.Canonical`), and on canonical forms
the comparison of the float model is the comparison of those extended reals
(`UnpackedFloat.compare_canonical`). So `<`, `≤` and `==` on floats that are numbers are the
order of their values: a linear order, blind to the sign of zero.

The reals' side of rounding stands here too: `roundEven`, the nearest integer with ties to even;
`roundFinite`, the nearest value on the binary64 grid; `rounded`, which turns a grid value at
`2 ^ 1024` or beyond into an infinity; and `ExtendedMantissa.Holds`, what the round and sticky
bits of the float model say of the exact value they were cut from.
-/

open Float.Model Float.Model.UnpackedFloat

namespace AccessLayer

/-! ## Values of unpacked floats -/

/-- The extended real an unpacked float stands for. Not a number stands for none; it is sent to
`⊥`, and every statement about the order below excludes it. -/
noncomputable def UnpackedFloat.toEReal : UnpackedFloat → EReal
  | .infinity .positive => ⊤
  | .infinity .negative => ⊥
  | .notANumber => ⊥
  | .zero _ => 0
  | .finite .positive m e _ => ((m : ℝ) * 2 ^ e : ℝ)
  | .finite .negative m e _ => ((-((m : ℝ) * 2 ^ e)) : ℝ)

/-- The forms bit patterns unpack to: a finite float has a mantissa of at most 53 bits and an
exponent from the smallest one to the largest finite one, and its mantissa has all 53 bits
unless its exponent is the smallest (a subnormal). -/
def UnpackedFloat.Canonical : UnpackedFloat → Prop
  | .finite _ m e _ => m < 2 ^ 53 ∧ -1074 ≤ e ∧ e ≤ 971 ∧ (2 ^ 52 ≤ m ∨ e = -1074)
  | _ => True

/-- A float's extended real value. -/
noncomputable def Float.toEReal (x : Float) : EReal := UnpackedFloat.toEReal x.toModel.unpack

/-! ## Canonical forms compare as their values -/

/-- A mantissa of at most 53 bits at a smaller exponent lies below a full mantissa at a larger
one. -/
theorem scaled_lt_of_exponent_lt {m₁ m₂ : Nat} {e₁ e₂ : Int} (short : m₁ < 2 ^ 53)
    (full : 2 ^ 52 ≤ m₂) (smaller : e₁ < e₂) : (m₁ : ℝ) * 2 ^ e₁ < m₂ * 2 ^ e₂ := by
  have below : (m₁ : ℝ) < 2 ^ (53 : ℤ) := by exact_mod_cast short
  have above : (2 : ℝ) ^ (52 : ℤ) ≤ m₂ := by exact_mod_cast full
  have two : (0 : ℝ) < 2 := by norm_num
  calc (m₁ : ℝ) * 2 ^ e₁ < 2 ^ (53 : ℤ) * 2 ^ e₁ := by gcongr
    _ = 2 ^ (e₁ + 53) := by rw [zpow_add₀ two.ne', mul_comm]
    _ ≤ 2 ^ (e₂ + 52) := zpow_le_zpow_right₀ (by norm_num) (by omega)
    _ = 2 ^ (52 : ℤ) * 2 ^ e₂ := by rw [zpow_add₀ two.ne', mul_comm]
    _ ≤ m₂ * 2 ^ e₂ := by gcongr

theorem compare_coe (a b : ℝ) : compare (a : EReal) b = compare a b := by
  rcases lt_trichotomy a b with lt | rfl | gt
  · rw [compare_lt_iff_lt.mpr lt, compare_lt_iff_lt.mpr (EReal.coe_lt_coe_iff.mpr lt)]
  · rw [compare_eq_iff_eq.mpr rfl, compare_eq_iff_eq.mpr rfl]
  · rw [compare_gt_iff_gt.mpr gt, compare_gt_iff_gt.mpr (EReal.coe_lt_coe_iff.mpr gt)]

/-- Two canonical positive finite floats compare by exponent first, then mantissa, which is the
order of their values. -/
theorem compare_scaled {m₁ m₂ : Nat} {e₁ e₂ : Int}
    (first : m₁ < 2 ^ 53 ∧ -1074 ≤ e₁ ∧ (2 ^ 52 ≤ m₁ ∨ e₁ = -1074))
    (second : m₂ < 2 ^ 53 ∧ -1074 ≤ e₂ ∧ (2 ^ 52 ≤ m₂ ∨ e₂ = -1074)) :
    (compare e₁ e₂).then (compare m₁ m₂) = compare ((m₁ : ℝ) * 2 ^ e₁) ((m₂ : ℝ) * 2 ^ e₂) := by
  rcases lt_trichotomy e₁ e₂ with lt | rfl | gt
  · -- a larger exponent than the smallest one comes with a full mantissa
    have full : 2 ^ 52 ≤ m₂ := second.2.2.resolve_right (by omega)
    rw [compare_lt_iff_lt.mpr lt, compare_lt_iff_lt.mpr (scaled_lt_of_exponent_lt first.1 full lt)]
    rfl
  · have scale : (0 : ℝ) < 2 ^ e₁ := zpow_pos (by norm_num) e₁
    rw [compare_eq_iff_eq.mpr rfl]
    rcases lt_trichotomy m₁ m₂ with lt | rfl | gt
    · have values : (m₁ : ℝ) * 2 ^ e₁ < m₂ * 2 ^ e₁ := by gcongr
      rw [compare_lt_iff_lt.mpr lt, compare_lt_iff_lt.mpr values]
      rfl
    · rw [compare_eq_iff_eq.mpr rfl, compare_eq_iff_eq.mpr rfl]
      rfl
    · have values : (m₂ : ℝ) * 2 ^ e₁ < m₁ * 2 ^ e₁ := by gcongr
      rw [compare_gt_iff_gt.mpr gt, compare_gt_iff_gt.mpr values]
      rfl
  · have full : 2 ^ 52 ≤ m₁ := first.2.2.resolve_right (by omega)
    rw [compare_gt_iff_gt.mpr gt, compare_gt_iff_gt.mpr (scaled_lt_of_exponent_lt second.1 full gt)]
    rfl

namespace UnpackedFloat

theorem toEReal_positive {m : Nat} (e : Int) (hm : 0 < m) :
    0 < UnpackedFloat.toEReal (.finite .positive m e hm) :=
  EReal.coe_pos.mpr (by positivity)

theorem toEReal_negative {m : Nat} (e : Int) (hm : 0 < m) :
    UnpackedFloat.toEReal (.finite .negative m e hm) < 0 :=
  EReal.coe_neg'.mpr (by simp only [Left.neg_neg_iff]; positivity)

theorem bot_lt_toEReal_finite (s : Sign) {m : Nat} (e : Int) (hm : 0 < m) :
    ⊥ < UnpackedFloat.toEReal (.finite s m e hm) := by
  cases s <;> exact EReal.bot_lt_coe _

theorem toEReal_finite_lt_top (s : Sign) {m : Nat} (e : Int) (hm : 0 < m) :
    UnpackedFloat.toEReal (.finite s m e hm) < ⊤ := by
  cases s <;> exact EReal.coe_lt_top _

theorem compare_neg_neg (a b : ℝ) : compare (-a) (-b) = (compare a b).swap := by
  rcases lt_trichotomy a b with lt | rfl | gt
  · rw [compare_lt_iff_lt.mpr lt, compare_gt_iff_gt.mpr (neg_lt_neg lt)]
    rfl
  · rw [compare_eq_iff_eq.mpr rfl, compare_eq_iff_eq.mpr rfl]
    rfl
  · rw [compare_gt_iff_gt.mpr gt, compare_lt_iff_lt.mpr (neg_lt_neg gt)]
    rfl

theorem compare_finite_positive {m n : Nat} {e f : Int} {hm : 0 < m} {hn : 0 < n}
    (cu : UnpackedFloat.Canonical (.finite .positive m e hm))
    (cv : UnpackedFloat.Canonical (.finite .positive n f hn)) :
    (compare e f).then (compare m n) =
      compare (UnpackedFloat.toEReal (.finite .positive m e hm))
        (UnpackedFloat.toEReal (.finite .positive n f hn)) := by
  simp only [UnpackedFloat.toEReal, compare_coe]
  exact compare_scaled ⟨cu.1, cu.2.1, cu.2.2.2⟩ ⟨cv.1, cv.2.1, cv.2.2.2⟩

theorem compare_finite_negative {m n : Nat} {e f : Int} {hm : 0 < m} {hn : 0 < n}
    (cu : UnpackedFloat.Canonical (.finite .negative m e hm))
    (cv : UnpackedFloat.Canonical (.finite .negative n f hn)) :
    ((compare e f).then (compare m n)).swap =
      compare (UnpackedFloat.toEReal (.finite .negative m e hm))
        (UnpackedFloat.toEReal (.finite .negative n f hn)) := by
  simp only [UnpackedFloat.toEReal, compare_coe, compare_neg_neg]
  rw [compare_scaled ⟨cu.1, cu.2.1, cu.2.2.2⟩ ⟨cv.1, cv.2.1, cv.2.2.2⟩]

/-- On canonical forms that are numbers, the comparison of the float model is the comparison of
their values. -/
theorem compare_canonical {u v : UnpackedFloat} (cu : UnpackedFloat.Canonical u)
    (cv : UnpackedFloat.Canonical v) (nu : u ≠ .notANumber) (nv : v ≠ .notANumber) :
    u.compare v = some (compare (UnpackedFloat.toEReal u) (UnpackedFloat.toEReal v)) := by
  rcases u with s | _ | s | ⟨s, m, e, hm⟩ <;> rcases v with t | _ | t | ⟨t, n, f, hn⟩ <;>
    (try cases s) <;> (try cases t) <;> simp only [UnpackedFloat.compare, Option.some.injEq] <;>
    first
    | exact absurd rfl nu
    | exact absurd rfl nv
    | exact compare_finite_positive cu cv
    | exact compare_finite_negative cu cv
    | (change Ordering.lt = _; refine (compare_lt_iff_lt.mpr ?_).symm)
    | (change Ordering.gt = _; refine (compare_gt_iff_gt.mpr ?_).symm)
    | (change Ordering.eq = _; refine (compare_eq_iff_eq.mpr ?_).symm)
  -- what is left orders values of different kinds: the infinities, either sign, zero
  all_goals first
    | rfl
    | exact bot_lt_top
    | exact EReal.bot_lt_zero
    | exact EReal.zero_lt_top
    | exact bot_lt_toEReal_finite _ _ _
    | exact toEReal_finite_lt_top _ _ _
    | exact toEReal_negative _ _
    | exact toEReal_positive _ _
    | exact (toEReal_negative _ _).trans (toEReal_positive _ _)
end UnpackedFloat

/-! ## Every bit pattern is canonical -/

theorem toNat_one_append {w : Nat} (v : BitVec w) : (1#1 ++ v).toNat = 2 ^ w + v.toNat := by
  rw [BitVec.toNat_append, ← Nat.shiftLeft_add_eq_or_of_lt v.isLt, Nat.shiftLeft_eq]
  simp

/-- Every bit pattern unpacks to a canonical form: a zero exponent field gives a zero or a
subnormal at the smallest exponent, any other field but the all-ones one gives a mantissa with
its hidden bit set. -/
theorem unpack_canonical (b : BitVec Format.binary64.numBits) :
    UnpackedFloat.Canonical (UnpackedFloat.unpack Format.binary64 b) := by
  have mantissaBound := (@unpackMantissa Format.binary64 b).isLt
  have exponentBound := (@unpackExponent Format.binary64 b).isLt
  have offset : ((Format.binary64.exponentBias : Nat) : Int) +
      ((Format.binary64.mantissaBitsWithoutImplicit : Nat) : Int) = 1075 := rfl
  unfold UnpackedFloat.unpack
  dsimp only
  split
  · split <;> trivial
  · rename_i notAllOnes
    split
    · rename_i allZero
      split
      · trivial
      · -- a subnormal: the mantissa field as it is, at the smallest exponent
        have zero : (@unpackExponent Format.binary64 b).toNat = 0 := by
          rw [allZero]; rfl
        simp only [Format.binary64] at mantissaBound
        refine ⟨by omega, ?_, ?_, Or.inr ?_⟩ <;> simp only [zero, offset] <;> decide
    · rename_i notZero
      -- a normal float: the hidden bit on top of the mantissa field
      have nonzero : (@unpackExponent Format.binary64 b).toNat ≠ 0 := fun h =>
        notZero (BitVec.toNat_inj.mp (by simpa using h))
      have notMax : (@unpackExponent Format.binary64 b).toNat ≠ 2 ^ 11 - 1 := fun h =>
        notAllOnes (BitVec.toNat_inj.mp (by simpa using h))
      have hidden := toNat_one_append (@unpackMantissa Format.binary64 b)
      simp only [Format.binary64] at mantissaBound exponentBound nonzero notMax hidden ⊢
      refine ⟨by omega, ?_, ?_, Or.inl (by omega)⟩ <;> simp only [offset] <;> omega

theorem Float.canonical (x : Float) : UnpackedFloat.Canonical x.toModel.unpack :=
  unpack_canonical _

/-! ## The order of floats -/

namespace Float

variable {x y z : Float}

/-- Floats that are numbers compare as their values. -/
theorem compare_toEReal (hx : x.isNaN = false) (hy : y.isNaN = false) :
    x.toModel.unpack.compare y.toModel.unpack = some (compare (Float.toEReal x) (Float.toEReal y)) :=
  UnpackedFloat.compare_canonical (Float.canonical x) (Float.canonical y)
    (Float.unpack_ne_nan hx) (Float.unpack_ne_nan hy)

theorem lt_iff_toEReal (hx : x.isNaN = false) (hy : y.isNaN = false) :
    x < y ↔ Float.toEReal x < Float.toEReal y := by
  rw [Float.lt_iff_compare, Float.compare_toEReal hx hy, Option.some.injEq, compare_lt_iff_lt]

theorem le_iff_toEReal (hx : x.isNaN = false) (hy : y.isNaN = false) :
    x ≤ y ↔ Float.toEReal x ≤ Float.toEReal y := by
  rw [Float.le_iff_compare, Float.compare_toEReal hx hy, Option.any_some, Std.LawfulBCmp.isLE_iff_le]

theorem beq_iff_toEReal (hx : x.isNaN = false) (hy : y.isNaN = false) :
    (x == y) = true ↔ Float.toEReal x = Float.toEReal y := by
  rw [Float.beq_eq_compare, Float.compare_toEReal hx hy, beq_iff_eq, Option.some.injEq,
    compare_eq_iff_eq]

/-- Of two floats that are numbers, one is below the other or at least it. -/
theorem not_le_iff_lt (hx : x.isNaN = false) (hy : y.isNaN = false) : ¬ x ≤ y ↔ y < x := by
  rw [Float.le_iff_toEReal hx hy, Float.lt_iff_toEReal hy hx, not_le]

theorem le_trans' (hx : x.isNaN = false) (hy : y.isNaN = false) (hz : z.isNaN = false)
    (first : x ≤ y) (second : y ≤ z) : x ≤ z := by
  rw [Float.le_iff_toEReal hx hy] at first
  rw [Float.le_iff_toEReal hy hz] at second
  exact (Float.le_iff_toEReal hx hz).mpr (first.trans second)

theorem lt_of_lt_of_le' (hx : x.isNaN = false) (hy : y.isNaN = false) (hz : z.isNaN = false)
    (first : x < y) (second : y ≤ z) : x < z := by
  rw [Float.lt_iff_toEReal hx hy] at first
  rw [Float.le_iff_toEReal hy hz] at second
  exact (Float.lt_iff_toEReal hx hz).mpr (first.trans_le second)

theorem lt_of_le_of_lt' (hx : x.isNaN = false) (hy : y.isNaN = false) (hz : z.isNaN = false)
    (first : x ≤ y) (second : y < z) : x < z := by
  rw [Float.le_iff_toEReal hx hy] at first
  rw [Float.lt_iff_toEReal hy hz] at second
  exact (Float.lt_iff_toEReal hx hz).mpr (first.trans_lt second)

/-- A comparison that holds has a number on either side. -/
theorem numbers_of_le (le : x ≤ y) : x.isNaN = false ∧ y.isNaN = false := by
  rw [Float.le_iff_compare] at le
  have left : x.isNaN = x.toModel.unpack.isNaN := rfl
  have right : y.isNaN = y.toModel.unpack.isNaN := rfl
  rw [left, right]
  cases hx : x.toModel.unpack <;> cases hy : y.toModel.unpack <;>
    simp_all [UnpackedFloat.compare, UnpackedFloat.isNaN]

theorem le_of_lt' (hx : x.isNaN = false) (hy : y.isNaN = false) (lt : x < y) : x ≤ y :=
  (Float.le_iff_toEReal hx hy).mpr ((Float.lt_iff_toEReal hx hy).mp lt).le

end Float

/-! ## Nearest integers, ties to even -/

/-- The integer nearest to `x`, the even one of two at the same distance. -/
noncomputable def roundEven (x : ℝ) : ℤ :=
  if x - ⌊x⌋ < 1 / 2 then ⌊x⌋
  else if 1 / 2 < x - ⌊x⌋ then ⌊x⌋ + 1
  else ⌊x⌋ + ⌊x⌋ % 2

theorem roundEven_of_lt_half {x : ℝ} (near : x - ⌊x⌋ < 1 / 2) : roundEven x = ⌊x⌋ := by
  rw [roundEven, if_pos near]

theorem roundEven_of_half_lt {x : ℝ} (far : 1 / 2 < x - ⌊x⌋) : roundEven x = ⌊x⌋ + 1 := by
  rw [roundEven, if_neg (not_lt.mpr far.le), if_pos far]

theorem roundEven_of_half {x : ℝ} (half : x - ⌊x⌋ = 1 / 2) : roundEven x = ⌊x⌋ + ⌊x⌋ % 2 := by
  rw [roundEven, if_neg half.not_lt, if_neg half.symm.not_lt]

theorem roundEven_bounds (x : ℝ) : ⌊x⌋ ≤ roundEven x ∧ roundEven x ≤ ⌊x⌋ + 1 := by
  have parity := Int.emod_two_eq_zero_or_one ⌊x⌋
  rcases lt_trichotomy (x - ⌊x⌋) (1 / 2) with near | half | far
  · rw [roundEven_of_lt_half near]; omega
  · rw [roundEven_of_half half]; omega
  · rw [roundEven_of_half_lt far]; omega

@[simp] theorem roundEven_intCast (k : ℤ) : roundEven k = k := by
  simp [roundEven]

theorem roundEven_mono {x y : ℝ} (le : x ≤ y) : roundEven x ≤ roundEven y := by
  rcases (Int.floor_mono le).lt_or_eq with lt | same
  · calc roundEven x ≤ ⌊x⌋ + 1 := (roundEven_bounds x).2
      _ ≤ ⌊y⌋ := lt
      _ ≤ roundEven y := (roundEven_bounds y).1
  · -- the same integer part: the fractional parts decide
    have frac : x - ⌊x⌋ ≤ y - ⌊y⌋ := by rw [same]; linarith
    have parity := Int.emod_two_eq_zero_or_one ⌊y⌋
    rcases lt_trichotomy (y - ⌊y⌋) (1 / 2) with near | half | far
    · rw [roundEven_of_lt_half near, roundEven_of_lt_half (frac.trans_lt near), same]
    · rw [roundEven_of_half half]
      rcases frac.lt_or_eq with below | equal
      · rw [roundEven_of_lt_half (below.trans_eq half), same]
        omega
      · rw [roundEven_of_half (equal.trans half), same]
    · have := (roundEven_bounds x).2
      rw [roundEven_of_half_lt far]
      omega

theorem roundEven_neg (x : ℝ) : roundEven (-x) = -roundEven x := by
  by_cases whole : x = ⌊x⌋
  · rw [whole, ← Int.cast_neg, roundEven_intCast, roundEven_intCast]
  · -- the fractional part of `-x` is one minus that of `x`
    have below : (⌊x⌋ : ℝ) < x := lt_of_le_of_ne (Int.floor_le x) (Ne.symm whole)
    have above := Int.lt_floor_add_one x
    have floorNeg : ⌊-x⌋ = -⌊x⌋ - 1 := by
      rw [Int.floor_eq_iff]
      push_cast
      constructor <;> linarith
    have frac : -x - ⌊-x⌋ = 1 - (x - ⌊x⌋) := by rw [floorNeg]; push_cast; ring
    have parity := Int.emod_two_eq_zero_or_one ⌊x⌋
    have parityNeg := Int.emod_two_eq_zero_or_one (-⌊x⌋ - 1)
    rcases lt_trichotomy (x - ⌊x⌋) (1 / 2) with near | half | far
    · rw [roundEven_of_half_lt (by linarith), roundEven_of_lt_half near, floorNeg]
      omega
    · rw [roundEven_of_half (by linarith), roundEven_of_half half, floorNeg]
      omega
    · rw [roundEven_of_lt_half (by linarith), roundEven_of_half_lt far, floorNeg]
      omega

/-- An integer below `n` rounds to at most `n`. -/
theorem roundEven_le_of_lt {x : ℝ} {n : ℤ} (lt : x < n) : roundEven x ≤ n := by
  have floor : ⌊x⌋ < n := Int.floor_lt.mpr lt
  have := (roundEven_bounds x).2
  omega

theorem le_roundEven {x : ℝ} {n : ℤ} (le : (n : ℝ) ≤ x) : n ≤ roundEven x :=
  (Int.le_floor.mpr le).trans (roundEven_bounds x).1

/-! ## The binary64 grid -/

/-- The exponent of the last place of the binary64 numbers around `x`: 53 significant bits from
the leading one of `x`, never below the subnormal exponent `-1074`. -/
noncomputable def quantumExponent (x : ℝ) : ℤ := max (Int.log 2 |x| - 52) (-1074)

/-- `x` rounded to the nearest multiple of its quantum, ties to an even last bit; no exponent
bounds it from above. -/
noncomputable def roundFinite (x : ℝ) : ℝ :=
  roundEven (x / 2 ^ quantumExponent x) * 2 ^ quantumExponent x

theorem quantumExponent_neg (x : ℝ) : quantumExponent (-x) = quantumExponent x := by
  simp [quantumExponent]

theorem roundFinite_neg (x : ℝ) : roundFinite (-x) = -roundFinite x := by
  simp only [roundFinite, quantumExponent_neg, neg_div, roundEven_neg, Int.cast_neg, neg_mul]

theorem roundFinite_nonneg {x : ℝ} (nonneg : 0 ≤ x) : 0 ≤ roundFinite x := by
  have scaled : (0 : ℝ) ≤ x / 2 ^ quantumExponent x := by positivity
  have nearest : (0 : ℤ) ≤ roundEven (x / 2 ^ quantumExponent x) := le_roundEven (by simpa)
  unfold roundFinite
  have : (0 : ℝ) ≤ roundEven (x / 2 ^ quantumExponent x) := by exact_mod_cast nearest
  positivity

/-- A positive value lies below the power of two after its leading bit, which the quantum
reaches in 53 steps. -/
theorem scaled_lt {x : ℝ} (pos : 0 < x) : x / 2 ^ quantumExponent x < 2 ^ (53 : ℤ) := by
  have two : (0 : ℝ) < 2 := by norm_num
  have top := Int.lt_zpow_succ_log_self (by norm_num : 1 < 2) x
  have exponent : Int.log 2 x + 1 ≤ quantumExponent x + 53 := by
    have := le_max_left (Int.log 2 |x| - 52) (-1074)
    rw [abs_of_pos pos] at this
    unfold quantumExponent
    rw [abs_of_pos pos]
    omega
  rw [div_lt_iff₀ (zpow_pos two _), ← zpow_add₀ two.ne', add_comm]
  exact top.trans_le (zpow_le_zpow_right₀ (by norm_num) exponent)

/-- Above the subnormal range the scaled value keeps its leading bit at place 52. -/
theorem le_scaled {x : ℝ} (pos : 0 < x) (normal : quantumExponent x ≠ -1074) :
    2 ^ (52 : ℤ) ≤ x / 2 ^ quantumExponent x := by
  have two : (0 : ℝ) < 2 := by norm_num
  have bottom := Int.zpow_log_le_self (by norm_num : 1 < 2) pos
  have exponent : quantumExponent x + 52 = Int.log 2 x := by
    unfold quantumExponent at normal ⊢
    rw [abs_of_pos pos] at normal ⊢
    omega
  rw [le_div_iff₀ (zpow_pos two _), ← zpow_add₀ two.ne', add_comm, exponent]
  exact bottom

theorem quantumExponent_mono {x y : ℝ} (pos : 0 < x) (le : x ≤ y) :
    quantumExponent x ≤ quantumExponent y := by
  have logs : Int.log 2 x ≤ Int.log 2 y := Int.log_mono_right pos le
  unfold quantumExponent
  rw [abs_of_pos pos, abs_of_pos (pos.trans_le le)]
  omega

/-- Rounding is monotone on positive values: within one quantum as integers are, and across a
change of quantum because the smaller value rounds to at most the power of two the larger one
starts from. -/
theorem roundFinite_mono_of_pos {x y : ℝ} (pos : 0 < x) (le : x ≤ y) :
    roundFinite x ≤ roundFinite y := by
  have two : (0 : ℝ) < 2 := by norm_num
  rcases (quantumExponent_mono pos le).lt_or_eq with lt | same
  · have normal : quantumExponent y ≠ -1074 := by
      have := le_max_right (Int.log 2 |x| - 52) (-1074)
      unfold quantumExponent at lt ⊢
      omega
    have upper : roundEven (x / 2 ^ quantumExponent x) ≤ 2 ^ 53 :=
      roundEven_le_of_lt (by exact_mod_cast scaled_lt pos)
    have lower : (2 : ℤ) ^ 52 ≤ roundEven (y / 2 ^ quantumExponent y) :=
      le_roundEven (by exact_mod_cast le_scaled (pos.trans_le le) normal)
    have upperReal : (roundEven (x / 2 ^ quantumExponent x) : ℝ) ≤ 2 ^ (53 : ℤ) := by
      exact_mod_cast upper
    have lowerReal : (2 : ℝ) ^ (52 : ℤ) ≤ roundEven (y / 2 ^ quantumExponent y) := by
      exact_mod_cast lower
    unfold roundFinite
    calc (roundEven (x / 2 ^ quantumExponent x) : ℝ) * 2 ^ quantumExponent x
        ≤ 2 ^ (53 : ℤ) * 2 ^ quantumExponent x := by gcongr
      _ = 2 ^ (quantumExponent x + 53) := by rw [zpow_add₀ two.ne', mul_comm]
      _ ≤ 2 ^ (quantumExponent y + 52) := zpow_le_zpow_right₀ (by norm_num) (by omega)
      _ = 2 ^ (52 : ℤ) * 2 ^ quantumExponent y := by rw [zpow_add₀ two.ne', mul_comm]
      _ ≤ roundEven (y / 2 ^ quantumExponent y) * 2 ^ quantumExponent y := by gcongr
  · have scaled : x / 2 ^ quantumExponent x ≤ y / 2 ^ quantumExponent y := by
      rw [same]
      gcongr
    have integers : (roundEven (x / 2 ^ quantumExponent x) : ℝ) ≤
        roundEven (y / 2 ^ quantumExponent y) := by
      exact_mod_cast roundEven_mono scaled
    unfold roundFinite
    rw [same] at integers ⊢
    gcongr

@[simp] theorem roundFinite_zero : roundFinite 0 = 0 := by
  have zero : roundEven 0 = 0 := by exact_mod_cast roundEven_intCast 0
  simp [roundFinite, zero]

theorem roundFinite_mono {x y : ℝ} (le : x ≤ y) : roundFinite x ≤ roundFinite y := by
  rcases lt_trichotomy 0 x with pos | zero | neg
  · exact roundFinite_mono_of_pos pos le
  · subst zero
    simpa using roundFinite_nonneg le
  · rcases lt_or_ge y 0 with negY | nonnegY
    · -- both negative: the mirror image of the positive case
      have mirrored := roundFinite_mono_of_pos (neg_pos.mpr negY) (neg_le_neg le)
      rw [roundFinite_neg, roundFinite_neg] at mirrored
      linarith
    · have belowZero : roundFinite x ≤ 0 := by
        have := roundFinite_nonneg (neg_nonneg.mpr neg.le)
        rw [roundFinite_neg] at this
        linarith
      exact belowZero.trans (roundFinite_nonneg nonnegY)

/-! ## The round and sticky bits of the float model -/

/-- What a mantissa cut from `x`, in units of its last place, says with its round and sticky
bits: `x` is the mantissa itself, below or above the half-way point to the next one, or on it. -/
def ExtendedMantissa.Holds (em : ExtendedMantissa) (x : ℝ) : Prop :=
  match em.roundBit, em.stickyBit with
  | false, false => x = em.mantissa
  | false, true => (em.mantissa : ℝ) < x ∧ x < em.mantissa + 1 / 2
  | true, false => x = em.mantissa + 1 / 2
  | true, true => (em.mantissa : ℝ) + 1 / 2 < x ∧ x < em.mantissa + 1

namespace ExtendedMantissa.Holds

theorem exact (m : Nat) :
    ExtendedMantissa.Holds (ExtendedMantissa.ofMantissaAndAccuracy m .exact) m := rfl

theorem bounds {em : ExtendedMantissa} {x : ℝ} (holds : ExtendedMantissa.Holds em x) :
    (em.mantissa : ℝ) ≤ x ∧ x < em.mantissa + 1 := by
  obtain ⟨m, r, s⟩ := em
  cases r <;> cases s <;> simp only [ExtendedMantissa.Holds] at holds ⊢
  · rw [holds]; constructor <;> linarith
  · constructor <;> linarith [holds.1, holds.2]
  · rw [holds]; constructor <;> linarith
  · constructor <;> linarith [holds.1, holds.2]

theorem floor {em : ExtendedMantissa} {x : ℝ} (holds : ExtendedMantissa.Holds em x) :
    ⌊x⌋ = em.mantissa := by
  rw [Int.floor_eq_iff]
  push_cast
  exact holds.bounds

/-- The round and sticky bits round the mantissa to the integer nearest to `x`, ties to even. -/
theorem rounded {em : ExtendedMantissa} {x : ℝ} (holds : ExtendedMantissa.Holds em x) :
    (em.roundedMantissa : ℤ) = roundEven x := by
  have floor := holds.floor
  obtain ⟨m, r, s⟩ := em
  simp only at floor
  cases r <;> cases s <;> simp only [ExtendedMantissa.Holds] at holds
  · rw [holds]
    exact (roundEven_intCast m).symm
  · rw [roundEven_of_lt_half (by rw [floor]; push_cast; linarith [holds.2]), floor]
    rfl
  · rw [roundEven_of_half (by rw [floor, holds]; push_cast; ring), floor]
    simp [ExtendedMantissa.roundedMantissa, ExtendedMantissa.accuracy,
      Accuracy.roundToNearestEven]
  · rw [roundEven_of_half_lt (by rw [floor]; push_cast; linarith [holds.1]), floor]
    simp [ExtendedMantissa.roundedMantissa, ExtendedMantissa.accuracy,
      Accuracy.roundToNearestEven]

/-- Shifting out one bit halves what the bits say, the dropped bit becoming the round bit. -/
theorem shiftRightOne {em : ExtendedMantissa} {x : ℝ} (holds : ExtendedMantissa.Holds em x) :
    ExtendedMantissa.Holds em.shiftRightOne (x / 2) := by
  obtain ⟨m, r, s⟩ := em
  have halves : (m : ℝ) = 2 * ((m / 2 : Nat) : ℝ) + ((m % 2 : Nat) : ℝ) := by
    exact_mod_cast (Nat.div_add_mod m 2).symm
  rcases Nat.mod_two_eq_zero_or_one m with even | odd
  · rw [even] at halves
    cases r <;> cases s <;>
      simp only [ExtendedMantissa.Holds, ExtendedMantissa.shiftRightOne, even,
        bne_self_eq_false, Bool.or_false, Bool.or_true, Nat.cast_zero, add_zero] at holds halves ⊢
    · rw [holds, halves]; ring
    · constructor <;> linarith [holds.1, holds.2]
    · constructor <;> linarith
    · constructor <;> linarith [holds.1, holds.2]
  · rw [odd] at halves
    have dropped : ((1 : Nat) != 0) = true := rfl
    cases r <;> cases s <;>
      simp only [ExtendedMantissa.Holds, ExtendedMantissa.shiftRightOne, odd, dropped,
        Bool.or_false, Bool.or_true, Nat.cast_one] at holds halves ⊢
    · rw [holds, halves]; ring
    · constructor <;> linarith [holds.1, holds.2]
    · constructor <;> linarith
    · constructor <;> linarith [holds.1, holds.2]

theorem shiftRight {em : ExtendedMantissa} {x : ℝ} (holds : ExtendedMantissa.Holds em x)
    (n : Nat) : ExtendedMantissa.Holds (em >>> n) (x / 2 ^ n) := by
  change ExtendedMantissa.Holds (n.repeat ExtendedMantissa.shiftRightOne em) _
  induction n with
  | zero => simpa [Nat.repeat] using holds
  | succ n ih =>
    rw [Nat.repeat, pow_succ, ← div_div]
    exact ih.shiftRightOne

end ExtendedMantissa.Holds

/-! ## Rounding to binary64 -/

/-- `x` rounded to binary64: the nearest value on the grid, or an infinity when that lies at
`2 ^ 1024` or beyond. -/
noncomputable def rounded (x : ℝ) : EReal :=
  if 2 ^ 1024 ≤ roundFinite x then ⊤ else if roundFinite x ≤ -2 ^ 1024 then ⊥ else roundFinite x

theorem rounded_of_abs_lt {x : ℝ} (within : |roundFinite x| < 2 ^ 1024) :
    rounded x = roundFinite x := by
  rw [abs_lt] at within
  rw [rounded, if_neg (not_le.mpr within.2), if_neg (not_le.mpr within.1)]


@[simp] theorem rounded_zero : rounded 0 = 0 := by
  rw [rounded_of_abs_lt (by simp), roundFinite_zero]
  rfl

theorem rounded_mono {x y : ℝ} (le : x ≤ y) : rounded x ≤ rounded y := by
  have nearer := roundFinite_mono le
  by_cases upX : 2 ^ 1024 ≤ roundFinite x
  · rw [rounded, if_pos upX, rounded, if_pos (upX.trans nearer)]
  by_cases downX : roundFinite x ≤ -2 ^ 1024
  · rw [rounded, if_neg upX, if_pos downX]
    exact bot_le
  rw [rounded, if_neg upX, if_neg downX]
  by_cases upY : 2 ^ 1024 ≤ roundFinite y
  · rw [rounded, if_pos upY]
    exact le_top
  have downY : ¬ roundFinite y ≤ -2 ^ 1024 := fun down => downX (nearer.trans down)
  rw [rounded, if_neg upY, if_neg downY]
  exact EReal.coe_le_coe_iff.mpr nearer

theorem rounded_neg (x : ℝ) : rounded (-x) = -rounded x := by
  rw [rounded, rounded, roundFinite_neg]
  by_cases up : 2 ^ 1024 ≤ roundFinite x
  · have down : -roundFinite x ≤ -2 ^ 1024 := neg_le_neg up
    have notUp : ¬ 2 ^ 1024 ≤ -roundFinite x :=
      not_le.mpr (down.trans_lt (neg_lt_self (by positivity)))
    rw [if_pos up, if_neg notUp, if_pos down]
    rfl
  by_cases down : roundFinite x ≤ -2 ^ 1024
  · have upNeg : 2 ^ 1024 ≤ -roundFinite x := le_neg_of_le_neg down
    rw [if_pos upNeg, if_neg up, if_pos down]
    rfl
  have notUp : ¬ 2 ^ 1024 ≤ -roundFinite x := fun upNeg => down (le_neg_of_le_neg upNeg)
  have notDown : ¬ -roundFinite x ≤ -2 ^ 1024 := fun downNeg => up (neg_le_neg_iff.mp downNeg)
  rw [if_neg notUp, if_neg notDown, if_neg up, if_neg down]
  rfl


end AccessLayer
