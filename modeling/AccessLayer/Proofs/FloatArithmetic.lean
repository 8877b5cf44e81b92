import Mathlib
import AccessLayer.Proofs.FloatOrder
/-!
Rounded arithmetic of binary64 floats. The float model computes a sum or a difference exactly
as a signed mantissa at the smaller exponent, then shifts it right to the exponent its leading
bit asks for, keeping a round bit and a sticky bit, and rounds to the nearest mantissa, ties
to even. Read over the reals this is `roundFinite`: the nearest multiple of the quantum
`2 ^ quantumExponent x`, which has 53 significant bits below the leading one of `x` and is never
below `2 ^ -1074`; a rounded value of `2 ^ 1024` or more becomes an infinity (`rounded`).

The steps are followed one lemma each: the bits of a shift (`ExtendedMantissa.Holds.shiftRight`),
the rounding of the model (`roundWithAccuracy_exact`, `round_eq`, `normalize_eq`), packing
(`toEReal_pack_ofParts`), and so the value of a difference or a sum of floats that stand for
reals (`Float.toEReal_sub`, `Float.toEReal_add`). Rounding is monotone and odd and leaves floats
as they are, so subtraction of finite floats is monotone (`Float.sub_le_sub`), the nearer of two
floats on one side of `x` is at most as far from it (`Float.abs_sub_le_of_le_of_le`), and the
distance between two floats does not depend on the order of subtraction
(`Float.abs_sub_comm_le`). Signs multiply, so a product of values that are not negative is not
negative (`UnpackedFloat.NotNegative`), and adding such a value to a finite float gives not a
number or at least that float (`Float.le_add_of_notNegative`).
-/
open Float.Model Float.Model.UnpackedFloat

namespace AccessLayer

/-! ## Rounding a mantissa to its quantum -/

theorem log_mantissa_mul {m : Nat} (pos : 0 < m) (e : ℤ) :
    Int.log 2 ((m : ℝ) * 2 ^ e) = m.log2 + e := by
  have two : (2 : ℝ) ≠ 0 := by norm_num
  have value : (0 : ℝ) < m * 2 ^ e := by positivity
  have lower : (2 : ℝ) ^ ((m.log2 : ℤ) + e) ≤ m * 2 ^ e := by
    have leading : (2 : ℝ) ^ m.log2 ≤ m := by exact_mod_cast Nat.log2_self_le pos.ne'
    rw [zpow_add₀ two, zpow_natCast]
    gcongr
  have upper : (m : ℝ) * 2 ^ e < 2 ^ (((m.log2 + 1 : Nat) : ℤ) + e) := by
    have next : (m : ℝ) < 2 ^ (m.log2 + 1) := by exact_mod_cast Nat.lt_log2_self
    rw [zpow_add₀ two, zpow_natCast]
    gcongr
  have atLeast := (Int.zpow_le_iff_le_log (b := 2) (by norm_num) value).mp (by exact_mod_cast lower)
  have below := (Int.lt_zpow_iff_log_lt (b := 2) (by norm_num) value).mp (by exact_mod_cast upper)
  push_cast at below
  omega

/-- The exponent the model shifts a positive mantissa to is the exponent of its quantum. -/
theorem targetExponent_eq_quantumExponent {m : Nat} (pos : 0 < m) (e : ℤ) :
    Format.binary64.targetExponent (totalExponent m e) = quantumExponent ((m : ℝ) * 2 ^ e) := by
  have value : (0 : ℝ) < m * 2 ^ e := by positivity
  rw [quantumExponent, abs_of_pos value, log_mantissa_mul pos]
  simp only [Format.targetExponent, totalExponent, Format.mantissaBits, Format.minExponent]
  norm_num
  omega

/-- A mantissa of at most 53 bits needs no shift past the exponent it has. -/
theorem targetExponent_le {m : Nat} (fits : m < 2 ^ 53) {e : ℤ} (floor : -1074 ≤ e) :
    Format.binary64.targetExponent (totalExponent m e) ≤ e := by
  have bits : m.log2 ≤ 52 := by
    rcases Nat.eq_zero_or_pos m with zero | pos
    · simp [zero]
    · have := (Nat.log2_lt pos.ne').mpr fits
      omega
  simp only [Format.targetExponent, totalExponent, Format.mantissaBits, Format.minExponent]
  norm_num
  omega

theorem shiftToExponent_of_le (m : Nat) {e t : ℤ} (a : Accuracy) (le : t ≤ e) :
    shiftToExponent m e a t = (ExtendedMantissa.ofMantissaAndAccuracy m a, e) := by
  have none : (t - e).toNat = 0 := by omega
  simp [shiftToExponent, none, HShiftRight.hShiftRight, Nat.repeat]

/-- Shifting an exact mantissa up to a larger exponent keeps in its bits the value it had. -/
theorem shiftToExponent_holds (m : Nat) {e t : ℤ} (le : e ≤ t) :
    (shiftToExponent m e .exact t).2 = t ∧
      ExtendedMantissa.Holds (shiftToExponent m e .exact t).1 ((m : ℝ) * 2 ^ e / 2 ^ t) := by
  have two : (2 : ℝ) ≠ 0 := by norm_num
  have amount : ((t - e).toNat : ℤ) = t - e := Int.toNat_of_nonneg (by omega)
  refine ⟨by simp [shiftToExponent, amount], ?_⟩
  have scaled : (m : ℝ) * 2 ^ e / 2 ^ t = m / 2 ^ (t - e).toNat := by
    rw [← zpow_natCast, amount, zpow_sub₀ two]
    field_simp
  rw [scaled]
  exact (ExtendedMantissa.Holds.exact m).shiftRight _


/-- The unpacked float of sign `s` with mantissa `m` at exponent `e`, a zero of that sign when
`m` is zero: the form in which rounding returns its result. -/
def UnpackedFloat.ofParts (s : Sign) (m : Nat) (e : ℤ) : UnpackedFloat :=
  if h : m = 0 then .zero s else .finite s m e (Nat.pos_of_ne_zero h)

/-- The value of a finite float, its sign applied to the mantissa. -/
theorem UnpackedFloat.toEReal_finite (s : Sign) {m : Nat} (e : ℤ) (pos : 0 < m) :
    UnpackedFloat.toEReal (.finite s m e pos) = ((s.apply (m : ℤ) : ℝ) * 2 ^ e : ℝ) := by
  cases s <;> simp [UnpackedFloat.toEReal, Sign.apply]

/-- A mantissa and exponent as rounding leaves them: at most 53 bits, an exponent no smaller
than the subnormal one, and all 53 bits unless the exponent is that one. No bound from above:
packing turns an exponent past the largest into an infinity. -/
def OnGrid (m : Nat) (e : ℤ) : Prop := m < 2 ^ 53 ∧ -1074 ≤ e ∧ (2 ^ 52 ≤ m ∨ e = -1074)

/-- Rounding a mantissa held exactly at an exponent at most its quantum's: the result is the
nearest multiple of the quantum, its mantissa carried to the next exponent when rounding up
reaches `2 ^ 53`. The sign is carried along and takes no part. -/
theorem roundWithAccuracy_exact {m : Nat} (pos : 0 < m) {e : ℤ}
    (below : e ≤ quantumExponent ((m : ℝ) * 2 ^ e)) :
    ∃ M E, OnGrid M E ∧ (M : ℝ) * 2 ^ E = roundFinite (m * 2 ^ e) ∧
      ∀ s, roundWithAccuracy Format.binary64 s m e .exact = UnpackedFloat.ofParts s M E := by
  have two : (0 : ℝ) < 2 := by norm_num
  have value : (0 : ℝ) < m * 2 ^ e := by positivity
  set q := quantumExponent ((m : ℝ) * 2 ^ e) with quantum
  have floor : -1074 ≤ q := le_max_right _ _
  have first : shiftToTargetExponent Format.binary64 m e .exact = shiftToExponent m e .exact q := by
    rw [shiftToTargetExponent, targetExponent_eq_quantumExponent pos]
  obtain ⟨exponent, holds⟩ := shiftToExponent_holds m below
  generalize shiftToExponent m e .exact q = shifted at exponent holds first
  obtain ⟨em, e₁⟩ := shifted
  dsimp only at exponent holds
  subst exponent
  -- the first shift leaves the scaled value, which rounds to at most `2 ^ 53`
  have nearest : (em.roundedMantissa : ℤ) = roundEven (m * 2 ^ e / 2 ^ q) := holds.rounded
  have atMost : em.roundedMantissa ≤ 2 ^ 53 := by
    have := roundEven_le_of_lt (x := m * 2 ^ e / 2 ^ q) (n := 2 ^ 53)
      (by exact_mod_cast scaled_lt value)
    omega
  have full : q ≠ -1074 → 2 ^ 52 ≤ em.roundedMantissa := fun normal => by
    have := le_roundEven (x := m * 2 ^ e / 2 ^ q) (n := 2 ^ 52)
      (by exact_mod_cast le_scaled value normal)
    omega
  have exact : (em.roundedMantissa : ℝ) * 2 ^ q = roundFinite (m * 2 ^ e) := by
    rw [roundFinite, ← quantum, ← nearest]
    norm_cast
  rcases atMost.lt_or_eq with fits | carry
  · -- the rounded mantissa fits: the second shift leaves it
    have second : shiftToTargetExponent Format.binary64 em.roundedMantissa q .exact =
        (ExtendedMantissa.ofMantissaAndAccuracy em.roundedMantissa .exact, q) :=
      shiftToExponent_of_le _ _ (targetExponent_le fits floor)
    refine ⟨em.roundedMantissa, q, ⟨fits, floor, ?_⟩, exact, fun s => ?_⟩
    · by_cases normal : q = -1074
      · exact .inr normal
      · exact .inl (full normal)
    · rw [roundWithAccuracy, first]
      dsimp only
      rw [second]
      rfl
  · -- rounding up reached `2 ^ 53`: one more shift, which drops a zero bit
    have second : shiftToTargetExponent Format.binary64 (2 ^ 53) q .exact =
        (ExtendedMantissa.ofMantissaAndAccuracy (2 ^ 53) .exact >>> 1, q + 1) := by
      have target : Format.binary64.targetExponent (totalExponent (2 ^ 53) q) = q + 1 := by
        simp only [Format.targetExponent, totalExponent, Nat.log2_two_pow, Format.mantissaBits,
          Format.minExponent]
        norm_num
        omega
      rw [shiftToTargetExponent, target, shiftToExponent]
      simp only [show (q + 1 - q).toNat = 1 by omega]
      rfl
    refine ⟨2 ^ 52, q + 1, ⟨by norm_num, by omega, .inl le_rfl⟩, ?_, fun s => ?_⟩
    · rw [← exact, carry, zpow_add_one₀ two.ne']
      push_cast
      ring
    · rw [roundWithAccuracy, first]
      dsimp only
      rw [carry, second]
      rfl

theorem decreaseExponent_value (m : Nat) (e t : ℤ) :
    ((decreaseExponent m e t).1 : ℝ) * 2 ^ (decreaseExponent m e t).2 = m * 2 ^ e := by
  have two : (2 : ℝ) ≠ 0 := by norm_num
  simp only [decreaseExponent, Nat.shiftLeft_eq]
  push_cast
  rw [mul_assoc, ← zpow_natCast, ← zpow_add₀ two]
  congr 2
  omega

theorem decreaseExponent_exponent (m : Nat) (e t : ℤ) : (decreaseExponent m e t).2 = min e t := by
  simp only [decreaseExponent]
  omega

/-- Rounding a positive mantissa at any exponent: the model lowers the exponent to the quantum's,
keeping the value, and rounds from there. -/
theorem round_eq {m : Nat} (pos : 0 < m) (e : ℤ) :
    ∃ M E, OnGrid M E ∧ (M : ℝ) * 2 ^ E = roundFinite (m * 2 ^ e) ∧
      ∀ s, round Format.binary64 s m e = UnpackedFloat.ofParts s M E := by
  have value : (0 : ℝ) < m * 2 ^ e := by positivity
  have unfolded : ∀ s, round Format.binary64 s m e =
      roundWithAccuracy Format.binary64 s (decreaseExponent m e (quantumExponent (m * 2 ^ e))).1
        (decreaseExponent m e (quantumExponent (m * 2 ^ e))).2 .exact := fun s => by
    rw [← targetExponent_eq_quantumExponent pos]
    rfl
  have kept := decreaseExponent_value m e (quantumExponent (m * 2 ^ e))
  have lowered := decreaseExponent_exponent m e (quantumExponent (m * 2 ^ e))
  generalize decreaseExponent m e (quantumExponent (m * 2 ^ e)) = shifted at unfolded kept lowered
  obtain ⟨m', e'⟩ := shifted
  dsimp only at unfolded kept lowered
  have pos' : 0 < m' := by
    rcases Nat.eq_zero_or_pos m' with zero | pos'
    · rw [zero, Nat.cast_zero, zero_mul] at kept
      linarith
    · exact pos'
  obtain ⟨M, E, grid, nearest, eq⟩ := roundWithAccuracy_exact pos' (e := e') (by rw [kept]; omega)
  exact ⟨M, E, grid, by rw [nearest, kept], fun s => by rw [unfolded, eq]⟩

/-- Normalizing a signed mantissa at an exponent gives its rounded value, with the mantissa's
sign, or a zero of the given sign for a zero mantissa. -/
theorem normalize_eq (M E : ℤ) (z : Sign) :
    ∃ s R E', OnGrid R E' ∧ (s.apply (R : ℤ) : ℝ) * 2 ^ E' = roundFinite (M * 2 ^ E) ∧
      normalize Format.binary64 M E z = UnpackedFloat.ofParts s R E' := by
  rcases lt_trichotomy M 0 with neg | zero | pos
  · obtain ⟨R, E', grid, value, eq⟩ := round_eq (m := (-M).toNat) (by omega) E
    have magnitude : (((-M).toNat : Nat) : ℝ) = -M := by
      exact_mod_cast Int.toNat_of_nonneg (by omega)
    rw [magnitude, neg_mul, roundFinite_neg] at value
    refine ⟨.negative, R, E', grid, ?_, ?_⟩
    · simp only [Sign.apply, Int.cast_neg, Int.cast_natCast, neg_mul, value, neg_neg]
    · rw [UnpackedFloat.normalize, Int.compare_eq_lt.mpr neg]
      exact eq .negative
  · subst zero
    refine ⟨z, 0, -1074, ⟨by norm_num, le_rfl, .inr rfl⟩, by cases z <;> simp [Sign.apply], ?_⟩
    cases z <;> rfl
  · obtain ⟨R, E', grid, value, eq⟩ := round_eq (m := M.toNat) (by omega) E
    have magnitude : ((M.toNat : Nat) : ℝ) = M := by exact_mod_cast Int.toNat_of_nonneg pos.le
    rw [magnitude] at value
    refine ⟨.positive, R, E', grid, by simpa [Sign.apply] using value, ?_⟩
    rw [UnpackedFloat.normalize, Int.compare_eq_gt.mpr pos]
    exact eq .positive

/-! ## Packing rounded results -/

theorem unpack_pack_zero (s : Sign) : (Float.Model.pack (.zero s)).unpack = .zero s := by
  cases s <;> rfl

theorem unpack_pack_infinity (s : Sign) :
    (Float.Model.pack (.infinity s)).unpack = .infinity s := by
  cases s <;> rfl

/-- A finite float on the grid, its exponent at most the largest, packs and unpacks to itself. -/
theorem unpack_pack_finite (s : Sign) {m : Nat} {e : ℤ} (pos : 0 < m) (grid : OnGrid m e)
    (fits : e ≤ 971) : (Float.Model.pack (.finite s m e pos)).unpack = .finite s m e pos := by
  obtain ⟨bits, floor, full⟩ := grid
  have signBack : Sign.ofBitVec s.toBitVec = s := by cases s <;> rfl
  have bias : ((Format.binary64.exponentBias : Nat) : ℤ) = 1023 := rfl
  have width : Format.binary64.mantissaBits = 53 := rfl
  have noOverflow : ¬ 2 ^ 11 ≤ (e + 1023 + 52).toNat + 1 := by omega
  simp only [Float.Model.unpack, Float.Model.pack, UnpackedFloat.pack, bias, width, Nat.cast_ofNat,
    noOverflow, if_false]
  by_cases normal : 2 ^ 52 ≤ m
  · have log : m.log2 = 52 := (Nat.log2_eq_iff pos.ne').mpr ⟨normal, bits⟩
    have field : (BitVec.ofNat 11 (e + 1023 + 52).toNat).toNat = (e + 1075).toNat := by
      rw [BitVec.toNat_ofNat]
      omega
    have notMax : BitVec.ofNat 11 (e + 1023 + 52).toNat ≠ -1#11 := fun h => by
      have := congrArg BitVec.toNat h
      rw [field] at this
      simp at this
      omega
    have notZero : BitVec.ofNat 11 (e + 1023 + 52).toNat ≠ 0#11 := fun h => by
      have := congrArg BitVec.toNat h
      rw [field] at this
      simp at this
      omega
    simp only [log, if_true]
    unfold UnpackedFloat.unpack
    simp only [unpackExponent_packComponents, unpackMantissa_packComponents,
      unpackSign_packComponents, signBack, notMax, notZero, if_false, bias,
      UnpackedFloat.finite.injEq, true_and]
    have hidden := toNat_one_append (BitVec.ofNat 52 m)
    rw [BitVec.toNat_ofNat] at hidden
    constructor
    · rw [hidden]
      omega
    · rw [field]
      omega
  · -- a subnormal: an all-zero exponent field, the mantissa as it is
    have subnormal : e = -1074 := full.resolve_left normal
    have log : m.log2 + 1 ≠ 53 := by
      have := (Nat.log2_lt pos.ne').mpr (Nat.lt_of_not_le normal : m < 2 ^ 52)
      omega
    have notZero : BitVec.ofNat 52 m ≠ 0#52 := fun h => by
      have := congrArg BitVec.toNat h
      simp at this
      omega
    simp only [log, if_false]
    unfold UnpackedFloat.unpack
    have zeroNotMax : (0#11 : BitVec 11) ≠ -1#11 := by decide
    simp only [unpackExponent_packComponents, unpackMantissa_packComponents,
      unpackSign_packComponents, signBack, notZero, bias, zeroNotMax, if_false, if_true,
      dite_false, UnpackedFloat.finite.injEq, true_and, BitVec.toNat_ofNat]
    constructor
    · omega
    · rw [subnormal]
      rfl

/-- A finite float past the largest exponent packs to an infinity of its sign. -/
theorem unpack_pack_overflow (s : Sign) {m : Nat} {e : ℤ} (pos : 0 < m) (past : 971 < e) :
    (Float.Model.pack (.finite s m e pos)).unpack = .infinity s := by
  have bias : ((Format.binary64.exponentBias : Nat) : ℤ) = 1023 := rfl
  have overflow : 2 ^ 11 ≤ (e + 1023 + 52).toNat + 1 := by omega
  simp only [Float.Model.unpack, Float.Model.pack, UnpackedFloat.pack, bias, Nat.cast_ofNat,
    overflow, if_true]
  cases s <;> rfl

/-- A mantissa of at most 53 bits at an exponent at most the largest stays below `2 ^ 1024`. -/
theorem magnitude_lt {m : Nat} {e : ℤ} (bits : m < 2 ^ 53) (fits : e ≤ 971) :
    (m : ℝ) * 2 ^ e < 2 ^ 1024 := by
  have two : (2 : ℝ) ≠ 0 := by norm_num
  have mantissa : (m : ℝ) < 2 ^ (53 : ℤ) := by exact_mod_cast bits
  calc (m : ℝ) * 2 ^ e < 2 ^ (53 : ℤ) * 2 ^ e := by gcongr
    _ ≤ 2 ^ (53 : ℤ) * 2 ^ (971 : ℤ) :=
        mul_le_mul_of_nonneg_left (zpow_le_zpow_right₀ (by norm_num) fits) (by positivity)
    _ = 2 ^ 1024 := by rw [← zpow_add₀ two]; norm_num

/-- A full mantissa past the largest exponent reaches `2 ^ 1024`. -/
theorem le_magnitude {m : Nat} {e : ℤ} (full : 2 ^ 52 ≤ m) (past : 971 < e) :
    2 ^ 1024 ≤ (m : ℝ) * 2 ^ e := by
  have two : (2 : ℝ) ≠ 0 := by norm_num
  have mantissa : (2 : ℝ) ^ (52 : ℤ) ≤ m := by exact_mod_cast full
  calc (2 : ℝ) ^ 1024 = 2 ^ (52 : ℤ) * 2 ^ (972 : ℤ) := by rw [← zpow_add₀ two]; norm_num
    _ ≤ 2 ^ (52 : ℤ) * 2 ^ e :=
        mul_le_mul_of_nonneg_left (zpow_le_zpow_right₀ (by norm_num) (by omega)) (by positivity)
    _ ≤ m * 2 ^ e := by gcongr

/-- The value a rounded result stands for once packed: the rounded value of any `x` whose
nearest grid value it holds, and never not a number. -/
theorem toEReal_pack_ofParts (s : Sign) {m : Nat} {e : ℤ} (grid : OnGrid m e) {x : ℝ}
    (value : (s.apply (m : ℤ) : ℝ) * 2 ^ e = roundFinite x) :
    UnpackedFloat.toEReal (Float.Model.pack (UnpackedFloat.ofParts s m e)).unpack = rounded x ∧
      (Float.Model.pack (UnpackedFloat.ofParts s m e)).unpack ≠ .notANumber := by
  rcases Nat.eq_zero_or_pos m with zero | pos
  · -- a zero: the nearest grid value is zero
    subst zero
    have nothing : roundFinite x = 0 := by
      rw [← value]
      cases s <;> simp [Sign.apply]
    have packed : (Float.Model.pack (UnpackedFloat.ofParts s 0 e)).unpack = .zero s :=
      unpack_pack_zero s
    rw [packed, rounded_of_abs_lt (by rw [nothing]; norm_num), nothing]
    exact ⟨rfl, by simp⟩
  · have finite : UnpackedFloat.ofParts s m e = .finite s m e pos := dif_neg pos.ne'
    have magnitude : |roundFinite x| = m * 2 ^ e := by
      rw [← value]
      cases s <;> simp [Sign.apply, abs_mul]
    rw [finite]
    by_cases fits : e ≤ 971
    · rw [unpack_pack_finite s pos grid fits,
        rounded_of_abs_lt (by rw [magnitude]; exact magnitude_lt grid.1 fits),
        UnpackedFloat.toEReal_finite, value]
      exact ⟨rfl, by simp⟩
    · have past : 971 < e := not_le.mp fits
      have full : 2 ^ 52 ≤ m := grid.2.2.resolve_right (by omega)
      have large := le_magnitude full past
      rw [unpack_pack_overflow s pos past]
      refine ⟨?_, by simp⟩
      cases s with
      | positive =>
        have up : 2 ^ 1024 ≤ roundFinite x := by
          rw [← value]
          simpa [Sign.apply] using large
        rw [rounded, if_pos up]
        rfl
      | negative =>
        have down : roundFinite x ≤ -2 ^ 1024 := by
          rw [← value]
          simpa [Sign.apply] using large
        have notUp : ¬ 2 ^ 1024 ≤ roundFinite x :=
          not_le.mpr (down.trans_lt (neg_lt_self (by positivity)))
        rw [rounded, if_neg notUp, if_pos down]
        rfl

/-- Grid values are their own nearest grid values: their quantum is their last place. -/
theorem quantumExponent_grid {m : Nat} (pos : 0 < m) {e : ℤ} (grid : OnGrid m e) :
    quantumExponent ((m : ℝ) * 2 ^ e) = e := by
  have value : (0 : ℝ) < m * 2 ^ e := by positivity
  have bits : m.log2 < 53 := (Nat.log2_lt pos.ne').mpr grid.1
  rw [quantumExponent, abs_of_pos value, log_mantissa_mul pos]
  rcases grid.2.2 with full | subnormal
  · have leading : 52 ≤ m.log2 := (Nat.le_log2 pos.ne').mpr full
    have := grid.2.1
    omega
  · omega

theorem roundFinite_grid (s : Sign) {m : Nat} {e : ℤ} (grid : OnGrid m e) :
    roundFinite ((s.apply (m : ℤ) : ℝ) * 2 ^ e) = (s.apply (m : ℤ) : ℝ) * 2 ^ e := by
  rcases Nat.eq_zero_or_pos m with zero | pos
  · subst zero
    cases s <;> simp [Sign.apply]
  · have whole : roundEven (m : ℝ) = m := by exact_mod_cast roundEven_intCast m
    have magnitude : roundFinite ((m : ℝ) * 2 ^ e) = m * 2 ^ e := by
      rw [roundFinite, quantumExponent_grid pos grid, mul_div_cancel_right₀ _ (by positivity),
        whole]
      push_cast
      rfl
    cases s with
    | positive => simpa [Sign.apply] using magnitude
    | negative =>
      simp only [Sign.apply, Int.cast_neg, Int.cast_natCast, neg_mul, roundFinite_neg, magnitude]

/-- A finite float of the canonical form packs and unpacks to itself, standing for its value
rounded, which is its value. -/
theorem toEReal_pack_finite (s : Sign) {m : Nat} {e : ℤ} (pos : 0 < m) (grid : OnGrid m e) :
    UnpackedFloat.toEReal (Float.Model.pack (.finite s m e pos)).unpack =
        rounded ((s.apply (m : ℤ) : ℝ) * 2 ^ e) ∧
      (Float.Model.pack (.finite s m e pos)).unpack ≠ .notANumber := by
  have finite : UnpackedFloat.ofParts s m e = .finite s m e pos := dif_neg pos.ne'
  rw [← finite]
  exact toEReal_pack_ofParts s grid (roundFinite_grid s grid).symm

theorem toEReal_pack_normalize (M E : ℤ) (z : Sign) :
    UnpackedFloat.toEReal (Float.Model.pack (normalize Format.binary64 M E z)).unpack =
        rounded (M * 2 ^ E) ∧
      (Float.Model.pack (normalize Format.binary64 M E z)).unpack ≠ .notANumber := by
  obtain ⟨s, R, E', grid, value, eq⟩ := normalize_eq M E z
  rw [eq]
  exact toEReal_pack_ofParts s grid value

/-- A mantissa brought down to a smaller exponent keeps its signed value. -/
theorem aligned_value (s : Sign) (m : Nat) {e t : ℤ} (le : t ≤ e) :
    (s.apply ((decreaseExponent m e t).1 : ℤ) : ℝ) * 2 ^ t = (s.apply (m : ℤ) : ℝ) * 2 ^ e := by
  have kept := decreaseExponent_value m e t
  rw [decreaseExponent_exponent, min_eq_right le] at kept
  cases s with
  | positive => simpa [Sign.apply] using kept
  | negative => simp only [Sign.apply, Int.cast_neg, Int.cast_natCast, neg_mul, kept]

/-- A zero or a finite float in canonical form, with its value. -/
theorem UnpackedFloat.cases_of_toEReal {u : UnpackedFloat} (canonical : UnpackedFloat.Canonical u)
    {a : ℝ} (value : UnpackedFloat.toEReal u = a) :
    (∃ s, u = .zero s ∧ a = 0) ∨
      ∃ s m e, ∃ pos : 0 < m, u = .finite s m e pos ∧ OnGrid m e ∧ e ≤ 971 ∧
        a = (s.apply (m : ℤ) : ℝ) * 2 ^ e := by
  cases u with
  | notANumber => exact absurd value (EReal.bot_ne_coe a)
  | infinity s =>
    cases s
    · exact absurd value (EReal.bot_ne_coe a)
    · exact absurd value (EReal.top_ne_coe a)
  | zero s => exact .inl ⟨s, rfl, (EReal.coe_eq_zero.mp value.symm)⟩
  | finite s m e pos =>
    obtain ⟨bits, floor, fits, full⟩ := canonical
    rw [UnpackedFloat.toEReal_finite] at value
    exact .inr ⟨s, m, e, pos, rfl, ⟨bits, floor, full⟩, fits, (EReal.coe_eq_coe_iff.mp value).symm⟩

theorem Sign.apply_neg (s : Sign) (n : ℤ) : (-s).apply n = -s.apply n := by
  cases s
  · exact (neg_neg n).symm
  · rfl

/-- The difference of two zeros or finite floats in canonical form stands for their exact
difference rounded. -/
theorem sub_toEReal {u v : UnpackedFloat} (cu : UnpackedFloat.Canonical u)
    (cv : UnpackedFloat.Canonical v) {a b : ℝ} (hu : UnpackedFloat.toEReal u = a)
    (hv : UnpackedFloat.toEReal v = b) :
    UnpackedFloat.toEReal (Float.Model.pack (sub Format.binary64 u v)).unpack = rounded (a - b) ∧
      (Float.Model.pack (sub Format.binary64 u v)).unpack ≠ .notANumber := by
  rcases UnpackedFloat.cases_of_toEReal cu hu with
    ⟨s₁, rfl, rfl⟩ | ⟨s₁, m₁, e₁, pos₁, rfl, grid₁, -, rfl⟩ <;>
  rcases UnpackedFloat.cases_of_toEReal cv hv with
    ⟨s₂, rfl, rfl⟩ | ⟨s₂, m₂, e₂, pos₂, rfl, grid₂, -, rfl⟩
  · -- two zeros give a zero
    obtain ⟨s, zero⟩ : ∃ s, sub Format.binary64 (.zero s₁) (.zero s₂) = .zero s := by
      simp only [UnpackedFloat.sub]
      split
      · exact ⟨_, rfl⟩
      · exact ⟨_, rfl⟩
    rw [zero, unpack_pack_zero, sub_zero, rounded_zero]
    exact ⟨rfl, by simp⟩
  · -- a zero minus a finite float is that float negated
    have negated : sub Format.binary64 (.zero s₁) (.finite s₂ m₂ e₂ pos₂) =
        .finite (-s₂) m₂ e₂ pos₂ := rfl
    have value : ((-s₂).apply (m₂ : ℤ) : ℝ) * 2 ^ e₂ = 0 - (s₂.apply (m₂ : ℤ) : ℝ) * 2 ^ e₂ := by
      rw [Sign.apply_neg]
      push_cast
      ring
    rw [negated, ← value]
    exact toEReal_pack_finite (-s₂) pos₂ grid₂
  · -- a finite float minus a zero is that float
    have same : sub Format.binary64 (.finite s₁ m₁ e₁ pos₁) (.zero s₂) = .finite s₁ m₁ e₁ pos₁ := rfl
    rw [same, sub_zero]
    exact toEReal_pack_finite s₁ pos₁ grid₁
  · -- two finite floats: their signed mantissas at the smaller exponent, normalized
    have aligned : sub Format.binary64 (.finite s₁ m₁ e₁ pos₁) (.finite s₂ m₂ e₂ pos₂) =
        normalize Format.binary64 (s₁.apply (decreaseExponent m₁ e₁ (min e₁ e₂)).1 -
          s₂.apply (decreaseExponent m₂ e₂ (min e₁ e₂)).1) (min e₁ e₂) .positive := rfl
    have exact : ((s₁.apply (decreaseExponent m₁ e₁ (min e₁ e₂)).1 -
          s₂.apply (decreaseExponent m₂ e₂ (min e₁ e₂)).1 : ℤ) : ℝ) * 2 ^ min e₁ e₂ =
        (s₁.apply (m₁ : ℤ) : ℝ) * 2 ^ e₁ - (s₂.apply (m₂ : ℤ) : ℝ) * 2 ^ e₂ := by
      rw [Int.cast_sub, sub_mul, aligned_value s₁ m₁ (min_le_left _ _),
        aligned_value s₂ m₂ (min_le_right _ _)]
    rw [aligned, ← exact]
    exact toEReal_pack_normalize _ _ _

/-- The sum of two zeros or finite floats in canonical form stands for their exact sum
rounded. -/
theorem add_toEReal {u v : UnpackedFloat} (cu : UnpackedFloat.Canonical u)
    (cv : UnpackedFloat.Canonical v) {a b : ℝ} (hu : UnpackedFloat.toEReal u = a)
    (hv : UnpackedFloat.toEReal v = b) :
    UnpackedFloat.toEReal (Float.Model.pack (add Format.binary64 u v)).unpack = rounded (a + b) ∧
      (Float.Model.pack (add Format.binary64 u v)).unpack ≠ .notANumber := by
  rcases UnpackedFloat.cases_of_toEReal cu hu with
    ⟨s₁, rfl, rfl⟩ | ⟨s₁, m₁, e₁, pos₁, rfl, grid₁, -, rfl⟩ <;>
  rcases UnpackedFloat.cases_of_toEReal cv hv with
    ⟨s₂, rfl, rfl⟩ | ⟨s₂, m₂, e₂, pos₂, rfl, grid₂, -, rfl⟩
  · -- two zeros give a zero
    obtain ⟨s, zero⟩ : ∃ s, add Format.binary64 (.zero s₁) (.zero s₂) = .zero s := by
      simp only [UnpackedFloat.add]
      split
      · exact ⟨_, rfl⟩
      · exact ⟨_, rfl⟩
    rw [zero, unpack_pack_zero, add_zero, rounded_zero]
    exact ⟨rfl, by simp⟩
  · have same : add Format.binary64 (.zero s₁) (.finite s₂ m₂ e₂ pos₂) = .finite s₂ m₂ e₂ pos₂ := rfl
    rw [same, zero_add]
    exact toEReal_pack_finite s₂ pos₂ grid₂
  · have same : add Format.binary64 (.finite s₁ m₁ e₁ pos₁) (.zero s₂) = .finite s₁ m₁ e₁ pos₁ := rfl
    rw [same, add_zero]
    exact toEReal_pack_finite s₁ pos₁ grid₁
  · have aligned : add Format.binary64 (.finite s₁ m₁ e₁ pos₁) (.finite s₂ m₂ e₂ pos₂) =
        normalize Format.binary64 (s₁.apply (decreaseExponent m₁ e₁ (min e₁ e₂)).1 +
          s₂.apply (decreaseExponent m₂ e₂ (min e₁ e₂)).1) (min e₁ e₂) .positive := rfl
    have exact : ((s₁.apply (decreaseExponent m₁ e₁ (min e₁ e₂)).1 +
          s₂.apply (decreaseExponent m₂ e₂ (min e₁ e₂)).1 : ℤ) : ℝ) * 2 ^ min e₁ e₂ =
        (s₁.apply (m₁ : ℤ) : ℝ) * 2 ^ e₁ + (s₂.apply (m₂ : ℤ) : ℝ) * 2 ^ e₂ := by
      rw [Int.cast_add, add_mul, aligned_value s₁ m₁ (min_le_left _ _),
        aligned_value s₂ m₂ (min_le_right _ _)]
    rw [aligned, ← exact]
    exact toEReal_pack_normalize _ _ _

/-- The magnitude of a number in canonical form stands for the larger of its value and the value
negated. -/
theorem abs_toEReal {u : UnpackedFloat} (canonical : UnpackedFloat.Canonical u)
    (number : u ≠ .notANumber) :
    UnpackedFloat.toEReal (Float.Model.pack u.abs).unpack =
        max (UnpackedFloat.toEReal u) (-UnpackedFloat.toEReal u) ∧
      (Float.Model.pack u.abs).unpack ≠ .notANumber := by
  cases u with
  | notANumber => exact absurd rfl number
  | infinity s =>
    have positive : (UnpackedFloat.infinity s).abs = .infinity .positive := rfl
    rw [positive, unpack_pack_infinity]
    refine ⟨?_, by simp⟩
    cases s <;> simp [UnpackedFloat.toEReal]
  | zero s =>
    have positive : (UnpackedFloat.zero s).abs = .zero .positive := rfl
    rw [positive, unpack_pack_zero]
    refine ⟨?_, by simp⟩
    simp [UnpackedFloat.toEReal]
  | finite s m e pos =>
    obtain ⟨bits, floor, fits, full⟩ := canonical
    have positive : (UnpackedFloat.finite s m e pos).abs = .finite .positive m e pos := rfl
    rw [positive, unpack_pack_finite .positive pos ⟨bits, floor, full⟩ fits]
    refine ⟨?_, by simp⟩
    have nonneg : (0 : ℝ) ≤ m * 2 ^ e := by positivity
    rw [UnpackedFloat.toEReal_finite, UnpackedFloat.toEReal_finite, ← EReal.coe_neg]
    cases s with
    | positive =>
      simp only [Sign.apply, Int.cast_natCast]
      exact (max_eq_left (EReal.coe_le_coe_iff.mpr (by linarith))).symm
    | negative =>
      simp only [Sign.apply, Int.cast_neg, Int.cast_natCast, neg_mul, neg_neg]
      exact (max_eq_right (EReal.coe_le_coe_iff.mpr (by linarith))).symm

/-! ## The arithmetic of floats -/

namespace Float

variable {x y z w : Float} {a b : ℝ}

theorem isNaN_eq_false (number : x.toModel.unpack ≠ .notANumber) : x.isNaN = false := by
  show x.toModel.unpack.isNaN = false
  revert number
  cases x.toModel.unpack <;> simp [UnpackedFloat.isNaN]

/-- A finite float stands for a real. -/
theorem exists_toEReal_eq (finite : x.isFinite = true) : ∃ a : ℝ, Float.toEReal x = a := by
  have unpacked : x.toModel.unpack.isFinite = true := finite
  unfold Float.toEReal
  cases h : x.toModel.unpack with
  | zero s => exact ⟨0, rfl⟩
  | finite s m e pos => exact ⟨_, UnpackedFloat.toEReal_finite s e pos⟩
  | infinity s => simp [h, UnpackedFloat.isFinite] at unpacked
  | notANumber => simp [h, UnpackedFloat.isFinite] at unpacked

/-- A float that stands for a real is a number. -/
theorem isNaN_of_toEReal_eq (value : Float.toEReal x = a) : x.isNaN = false := by
  apply isNaN_eq_false
  intro nan
  have : Float.toEReal x = ⊥ := by
    unfold Float.toEReal
    rw [nan]
    rfl
  rw [this] at value
  exact EReal.bot_ne_coe a value

theorem isNaN_of_isFinite (finite : x.isFinite = true) : x.isNaN = false :=
  isNaN_of_toEReal_eq (exists_toEReal_eq finite).choose_spec

/-- The difference of floats that stand for reals stands for their exact difference rounded. -/
theorem toEReal_sub (hx : Float.toEReal x = a) (hy : Float.toEReal y = b) :
    Float.toEReal (x - y) = rounded (a - b) :=
  (sub_toEReal (Float.canonical x) (Float.canonical y) hx hy).1

theorem isNaN_sub (hx : Float.toEReal x = a) (hy : Float.toEReal y = b) : (x - y).isNaN = false :=
  isNaN_eq_false (sub_toEReal (Float.canonical x) (Float.canonical y) hx hy).2

/-- The sum of floats that stand for reals stands for their exact sum rounded. -/
theorem toEReal_add (hx : Float.toEReal x = a) (hy : Float.toEReal y = b) :
    Float.toEReal (x + y) = rounded (a + b) :=
  (add_toEReal (Float.canonical x) (Float.canonical y) hx hy).1

theorem isNaN_add (hx : Float.toEReal x = a) (hy : Float.toEReal y = b) : (x + y).isNaN = false :=
  isNaN_eq_false (add_toEReal (Float.canonical x) (Float.canonical y) hx hy).2

theorem toEReal_abs (notNaN : x.isNaN = false) :
    Float.toEReal x.abs = max (Float.toEReal x) (-Float.toEReal x) :=
  (abs_toEReal (Float.canonical x) (Float.unpack_ne_nan notNaN)).1

theorem isNaN_abs (notNaN : x.isNaN = false) : x.abs.isNaN = false :=
  isNaN_eq_false (abs_toEReal (Float.canonical x) (Float.unpack_ne_nan notNaN)).2

theorem isNaN_sub_of_isFinite (finiteX : x.isFinite = true) (finiteY : y.isFinite = true) :
    (x - y).isNaN = false :=
  isNaN_sub (exists_toEReal_eq finiteX).choose_spec (exists_toEReal_eq finiteY).choose_spec

/-- The distance between finite floats is a number. -/
theorem isNaN_abs_sub (finiteX : x.isFinite = true) (finiteY : y.isFinite = true) :
    (x - y).abs.isNaN = false :=
  isNaN_abs (isNaN_sub_of_isFinite finiteX finiteY)

theorem toEReal_abs_of_nonneg (notNaN : x.isNaN = false) (nonneg : 0 ≤ Float.toEReal x) :
    Float.toEReal x.abs = Float.toEReal x := by
  rw [toEReal_abs notNaN]
  exact max_eq_left ((EReal.neg_le_zero.mpr nonneg).trans nonneg)

theorem toEReal_abs_of_nonpos (notNaN : x.isNaN = false) (nonpos : Float.toEReal x ≤ 0) :
    Float.toEReal x.abs = -Float.toEReal x := by
  rw [toEReal_abs notNaN]
  exact max_eq_right (nonpos.trans (EReal.neg_nonneg.mpr nonpos))

theorem le_of_toEReal (hx : Float.toEReal x = a) (hy : Float.toEReal y = b) (le : x ≤ y) : a ≤ b := by
  rw [le_iff_toEReal (isNaN_of_toEReal_eq hx) (isNaN_of_toEReal_eq hy), hx, hy] at le
  exact EReal.coe_le_coe_iff.mp le

/-- Subtraction of finite floats is monotone in what is subtracted from and antitone in what is
subtracted, as the exact difference is and rounding keeps. -/
theorem sub_le_sub (finiteX : x.isFinite = true) (finiteY : y.isFinite = true)
    (finiteZ : z.isFinite = true) (finiteW : w.isFinite = true) (xz : x ≤ z) (wy : w ≤ y) :
    x - y ≤ z - w := by
  obtain ⟨a, hx⟩ := exists_toEReal_eq finiteX
  obtain ⟨b, hy⟩ := exists_toEReal_eq finiteY
  obtain ⟨c, hz⟩ := exists_toEReal_eq finiteZ
  obtain ⟨d, hw⟩ := exists_toEReal_eq finiteW
  have ac := le_of_toEReal hx hz xz
  have db := le_of_toEReal hw hy wy
  rw [le_iff_toEReal (isNaN_sub hx hy) (isNaN_sub hz hw), toEReal_sub hx hy, toEReal_sub hz hw]
  exact rounded_mono (by linarith)

/-- A number lies at or below its magnitude. -/
theorem le_abs_self' (notNaN : x.isNaN = false) : x ≤ x.abs := by
  rw [le_iff_toEReal notNaN (isNaN_abs notNaN), toEReal_abs notNaN]
  exact le_max_left _ _

/-- Of two finite floats at or above `x`, the nearer one is at most as far from `x`. -/
theorem abs_sub_le_of_le_of_le (finiteX : x.isFinite = true) (finiteY : y.isFinite = true)
    (finiteZ : z.isFinite = true) (xy : x ≤ y) (yz : y ≤ z) : (x - y).abs ≤ (x - z).abs := by
  obtain ⟨a, hx⟩ := exists_toEReal_eq finiteX
  obtain ⟨b, hy⟩ := exists_toEReal_eq finiteY
  obtain ⟨c, hz⟩ := exists_toEReal_eq finiteZ
  have ab := le_of_toEReal hx hy xy
  have bc := le_of_toEReal hy hz yz
  -- both differences are at most zero, the farther one lower
  have near : rounded (a - b) ≤ 0 := rounded_zero ▸ rounded_mono (by linarith)
  have far : rounded (a - c) ≤ rounded (a - b) := rounded_mono (by linarith)
  rw [le_iff_toEReal (isNaN_abs (isNaN_sub hx hy)) (isNaN_abs (isNaN_sub hx hz)),
    toEReal_abs_of_nonpos (isNaN_sub hx hy) (by rw [toEReal_sub hx hy]; exact near),
    toEReal_abs_of_nonpos (isNaN_sub hx hz) (by rw [toEReal_sub hx hz]; exact far.trans near),
    toEReal_sub hx hy, toEReal_sub hx hz]
  exact EReal.neg_le_neg_iff.mpr far

/-- Of two finite floats at or below `x`, the nearer one is at most as far from `x`. -/
theorem abs_sub_le_of_ge_of_ge (finiteX : x.isFinite = true) (finiteY : y.isFinite = true)
    (finiteZ : z.isFinite = true) (yx : y ≤ x) (zy : z ≤ y) : (x - y).abs ≤ (x - z).abs := by
  obtain ⟨a, hx⟩ := exists_toEReal_eq finiteX
  obtain ⟨b, hy⟩ := exists_toEReal_eq finiteY
  obtain ⟨c, hz⟩ := exists_toEReal_eq finiteZ
  have ba := le_of_toEReal hy hx yx
  have cb := le_of_toEReal hz hy zy
  -- both differences are at least zero, the farther one higher
  have near : 0 ≤ rounded (a - b) := rounded_zero ▸ rounded_mono (by linarith)
  have far : rounded (a - b) ≤ rounded (a - c) := rounded_mono (by linarith)
  rw [le_iff_toEReal (isNaN_abs (isNaN_sub hx hy)) (isNaN_abs (isNaN_sub hx hz)),
    toEReal_abs_of_nonneg (isNaN_sub hx hy) (by rw [toEReal_sub hx hy]; exact near),
    toEReal_abs_of_nonneg (isNaN_sub hx hz) (by rw [toEReal_sub hx hz]; exact near.trans far),
    toEReal_sub hx hy, toEReal_sub hx hz]
  exact far

/-- The distance between finite floats does not depend on the order of subtraction: rounding is
odd, and the magnitude drops the sign. -/
theorem abs_sub_comm_le (finiteX : x.isFinite = true) (finiteY : y.isFinite = true)
    (notNaN : z.isNaN = false) : (x - y).abs ≤ z ↔ (y - x).abs ≤ z := by
  obtain ⟨a, hx⟩ := exists_toEReal_eq finiteX
  obtain ⟨b, hy⟩ := exists_toEReal_eq finiteY
  have same : Float.toEReal (x - y).abs = Float.toEReal (y - x).abs := by
    rw [toEReal_abs (isNaN_sub hx hy), toEReal_abs (isNaN_sub hy hx), toEReal_sub hx hy,
      toEReal_sub hy hx, ← neg_sub a b, rounded_neg, neg_neg, max_comm]
  rw [le_iff_toEReal (isNaN_abs (isNaN_sub hx hy)) notNaN,
    le_iff_toEReal (isNaN_abs (isNaN_sub hy hx)) notNaN, same]

/-- The magnitude of a difference that is not negative is the difference. -/
theorem abs_sub_le_sub (finiteX : x.isFinite = true) (finiteY : y.isFinite = true) (yx : y ≤ x) :
    (x - y).abs ≤ x - y := by
  obtain ⟨a, hx⟩ := exists_toEReal_eq finiteX
  obtain ⟨b, hy⟩ := exists_toEReal_eq finiteY
  have ba := le_of_toEReal hy hx yx
  have nonneg : 0 ≤ Float.toEReal (x - y) := by
    rw [toEReal_sub hx hy]
    exact rounded_zero ▸ rounded_mono (by linarith)
  rw [le_iff_toEReal (isNaN_abs (isNaN_sub hx hy)) (isNaN_sub hx hy),
    toEReal_abs_of_nonneg (isNaN_sub hx hy) nonneg]

end Float

/-! ## Values that are not negative -/

/-- An unpacked float that is not below zero: not a number, a zero of either sign, or a finite
value or an infinity of positive sign. Products keep it, and so does packing. -/
def UnpackedFloat.NotNegative : UnpackedFloat → Prop
  | .finite .negative .. => False
  | .infinity .negative => False
  | _ => True

namespace UnpackedFloat

theorem toEReal_nonneg {u : UnpackedFloat} (hu : UnpackedFloat.NotNegative u)
    (number : u ≠ .notANumber) : 0 ≤ UnpackedFloat.toEReal u := by
  cases u with
  | notANumber => exact absurd rfl number
  | infinity s =>
    cases s
    · exact hu.elim
    · exact le_top
  | zero s => exact le_rfl
  | finite s m e pos =>
    cases s
    · exact hu.elim
    · exact (UnpackedFloat.toEReal_positive e pos).le

/-- Rounding keeps the sign it is given. -/
theorem notNegative_roundWithAccuracy (m : Nat) (e : Int) (a : Accuracy) :
    UnpackedFloat.NotNegative (roundWithAccuracy Format.binary64 .positive m e a) := by
  unfold roundWithAccuracy
  dsimp only
  split <;> trivial

/-- Of two values that are not negative, the product is not negative: signs multiply, and a zero
times an infinity is not a number. -/
theorem NotNegative.mul {u v : UnpackedFloat} (hu : UnpackedFloat.NotNegative u)
    (hv : UnpackedFloat.NotNegative v) :
    UnpackedFloat.NotNegative (UnpackedFloat.mul Format.binary64 u v) := by
  rcases u with s | _ | s | ⟨s, m, e, _⟩ <;> rcases v with t | _ | t | ⟨t, n, f, _⟩ <;>
    (try cases s) <;> (try cases t) <;>
    first
    | exact hu.elim
    | exact hv.elim
    | trivial
    | exact notNegative_roundWithAccuracy _ _ _

/-- A pattern whose sign bit is clear unpacks to a value that is not negative. -/
theorem notNegative_unpack {b : BitVec 64}
    (clear : @UnpackedFloat.unpackSign Format.binary64 b = UnpackedFloat.Sign.positive.toBitVec) :
    UnpackedFloat.NotNegative (UnpackedFloat.unpack Format.binary64 b) := by
  have positive : UnpackedFloat.Sign.ofBitVec UnpackedFloat.Sign.positive.toBitVec = .positive := rfl
  unfold UnpackedFloat.unpack
  simp only [clear, positive]
  split_ifs <;> trivial

/-- Packing keeps a value that is not negative: every form but a negative zero packs with a clear
sign bit, and a zero packs and unpacks to itself. -/
theorem NotNegative.unpack_pack {u : UnpackedFloat} (hu : UnpackedFloat.NotNegative u) :
    UnpackedFloat.NotNegative (Float.Model.pack u).unpack := by
  have clear : ∀ e m, UnpackedFloat.NotNegative (UnpackedFloat.unpack Format.binary64
      (UnpackedFloat.packComponents Format.binary64 .positive e m)) :=
    fun e m => notNegative_unpack (unpackSign_packComponents _ _ _)
  cases u with
  | notANumber => exact clear _ _
  | infinity s =>
    cases s
    · exact hu.elim
    · exact clear _ _
  | zero s =>
    rw [unpack_pack_zero]
    trivial
  | finite s m e pos =>
    cases s
    · exact hu.elim
    · show UnpackedFloat.NotNegative
        (UnpackedFloat.unpack Format.binary64 (UnpackedFloat.pack Format.binary64 _))
      unfold UnpackedFloat.pack
      dsimp only
      split
      · exact clear _ _
      · split <;> exact clear _ _

theorem notNegative_normalize (k : Nat) (e : Int) :
    UnpackedFloat.NotNegative (UnpackedFloat.normalize Format.binary64 k e .positive) := by
  unfold UnpackedFloat.normalize
  split
  · rename_i below
    have negative : (k : Int) < 0 := compare_lt_iff_lt.mp below
    omega
  · trivial
  · exact notNegative_roundWithAccuracy _ _ _

/-- A mantissa scaled up by a power of ten is not negative. -/
theorem notNegative_ofScientific (m : Nat) {e : Int} (nonneg : 0 ≤ e) :
    UnpackedFloat.NotNegative (UnpackedFloat.ofScientific Format.binary64 m e) := by
  unfold UnpackedFloat.ofScientific
  split_ifs
  all_goals first | trivial | exact NotNegative.mul trivial trivial

end UnpackedFloat

namespace Float

variable {x y : Float} {a : ℝ}

theorem notNegative_mul (hx : UnpackedFloat.NotNegative x.toModel.unpack)
    (hy : UnpackedFloat.NotNegative y.toModel.unpack) :
    UnpackedFloat.NotNegative (x * y).toModel.unpack :=
  (hx.mul hy).unpack_pack

/-- The first of the exact powers of ten that conversions scale by, one, is not negative. -/
theorem notNegative_one (p : 0 < Float.exactlyRepresentablePowersOfTen.size) :
    UnpackedFloat.NotNegative (Float.exactlyRepresentablePowersOfTen[0]).toModel.unpack := by
  apply UnpackedFloat.notNegative_unpack
  revert p
  decide +kernel

/-- A natural number converts to a float that is not negative, by either way of converting. -/
theorem notNegative_toFloat (k : Nat) : UnpackedFloat.NotNegative k.toFloat.toModel.unpack := by
  show UnpackedFloat.NotNegative (Float.ofScientific k false 0).toModel.unpack
  unfold Float.ofScientific
  split
  · exact notNegative_mul (UnpackedFloat.notNegative_normalize _ _).unpack_pack (notNegative_one _)
  · exact (UnpackedFloat.notNegative_ofScientific k (by simp)).unpack_pack

theorem toEReal_zero : Float.toEReal 0 = 0 := by
  unfold Float.toEReal
  rw [show (0 : Float).toModel.unpack = .zero .positive from rfl]
  rfl

/-- A float not at most zero is not negative. -/
theorem notNegative_of_not_le_zero (above : ¬ x ≤ 0) : UnpackedFloat.NotNegative x.toModel.unpack := by
  have numberZero : (0 : Float).isNaN = false := rfl
  -- a negative value lies below zero, so it would be at most zero
  have atMost : x.toModel.unpack ≠ .notANumber → UnpackedFloat.toEReal x.toModel.unpack < 0 →
      x ≤ 0 := fun number below => by
    rw [le_iff_toEReal (isNaN_eq_false number) numberZero, toEReal_zero]
    exact below.le
  cases held : x.toModel.unpack with
  | infinity s =>
    cases s
    · exact absurd (atMost (by rw [held]; simp) (by rw [held]; exact EReal.bot_lt_zero)) above
    · trivial
  | notANumber => trivial
  | zero s => trivial
  | finite s m e pos =>
    cases s
    · exact absurd (atMost (by rw [held]; simp) (by rw [held]; exact UnpackedFloat.toEReal_negative e pos))
        above
    · trivial

/-- The value of a float is its own rounding. -/
theorem rounded_toEReal (hx : Float.toEReal x = a) : rounded a = a := by
  rcases UnpackedFloat.cases_of_toEReal (Float.canonical x) hx with
    ⟨s, -, rfl⟩ | ⟨s, m, e, -, -, grid, fits, rfl⟩
  · exact rounded_zero
  · have within : |roundFinite ((s.apply (m : ℤ) : ℝ) * 2 ^ e)| < 2 ^ 1024 := by
      rw [roundFinite_grid s grid]
      cases s <;> simpa [Sign.apply, abs_mul] using magnitude_lt grid.1 fits
    rw [rounded_of_abs_lt within, roundFinite_grid s grid]

/-- Adding what is not negative to a finite float gives not a number or at least that float. -/
theorem le_add_of_notNegative (finiteX : x.isFinite = true)
    (hy : UnpackedFloat.NotNegative y.toModel.unpack) : (x + y).isNaN = true ∨ x ≤ x + y := by
  obtain ⟨a, hx⟩ := exists_toEReal_eq finiteX
  have numberX := isNaN_of_toEReal_eq hx
  by_cases finiteY : y.isFinite = true
  · -- two reals: the rounded sum lies at or above the rounded summand
    obtain ⟨b, hb⟩ := exists_toEReal_eq finiteY
    have nonneg : (0 : ℝ) ≤ b := EReal.coe_nonneg.mp
      (hb ▸ UnpackedFloat.toEReal_nonneg hy (unpack_ne_nan (isNaN_of_toEReal_eq hb)))
    right
    rw [le_iff_toEReal numberX (isNaN_add hx hb), toEReal_add hx hb, hx]
    calc (a : EReal) = rounded a := (rounded_toEReal hx).symm
      _ ≤ rounded (a + b) := rounded_mono (by linarith)
  -- otherwise the right is an infinity or not a number, which a finite left passes through
  have sum : (x + y).toModel.unpack =
      (Float.Model.pack (UnpackedFloat.add Format.binary64 x.toModel.unpack y.toModel.unpack)).unpack :=
    rfl
  have finiteLeft : x.toModel.unpack.isFinite = true := finiteX
  have infiniteRight : y.toModel.unpack.isFinite = false := Bool.eq_false_iff.mpr finiteY
  cases held : y.toModel.unpack with
  | notANumber =>
    left
    have nan : UnpackedFloat.add Format.binary64 x.toModel.unpack .notANumber = .notANumber := by
      cases x.toModel.unpack <;> rfl
    show (x + y).toModel.unpack.isNaN = true
    rw [sum, held, nan]
    rfl
  | infinity s =>
    cases s
    · rw [held] at hy
      exact hy.elim
    right
    have top : UnpackedFloat.add Format.binary64 x.toModel.unpack (.infinity .positive) =
        .infinity .positive := by
      revert finiteLeft
      cases x.toModel.unpack <;> simp [UnpackedFloat.isFinite, UnpackedFloat.add]
    have infinite : (x + y).toModel.unpack = .infinity .positive := by
      rw [sum, held, top, unpack_pack_infinity]
    rw [le_iff_toEReal numberX (isNaN_eq_false (by rw [infinite]; simp))]
    show _ ≤ UnpackedFloat.toEReal (x + y).toModel.unpack
    rw [infinite]
    exact le_top
  | zero s => simp [held, UnpackedFloat.isFinite] at infiniteRight
  | finite s m e pos => simp [held, UnpackedFloat.isFinite] at infiniteRight

end Float

end AccessLayer
