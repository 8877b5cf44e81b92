import Mathlib
import AccessLayer.Tree.Codec
/-!
The wire format read back. A varint below `2 ^ 64` reads as its value, a tag as its field number
and wire type, and a length-delimited value as its payload, each leaving the rest of the input
as it was. A message written field by field (`Encodes`) is then walked field by field, so a fold
over its fields is a fold over the list of them. The packed forms of the codec (varints, eight
byte words) read back the same way, and so do the integer codes of a leaf (two's complement of
a shape, zigzag of an element).
-/

namespace AccessLayer.Wire

/-! ## Varints -/

theorem varintBytes_lt {n : Nat} (small : n < 128) : varintBytes n = [n.toUInt8] := by
  rw [varintBytes, dif_pos small]

theorem varintBytes_ge {n : Nat} (large : ¬n < 128) :
    varintBytes n = (n % 128 + 128).toUInt8 :: varintBytes (n / 128) := by
  rw [varintBytes, dif_neg large]

theorem varintBytes_ne_nil (n : Nat) : varintBytes n ≠ [] := by
  rw [varintBytes]
  split <;> simp

/-- The bytes of a varint read from the `i`-th on, into the `acc` that the bytes before it
gave: the rest adds `n` at its place, and the tenth byte fits. -/
theorem readVarintFrom_varintBytes (n : Nat) :
    ∀ (i acc : Nat) (rest : List UInt8), i ≤ 9 → n < 2 ^ (64 - 7 * i) → acc < 2 ^ (7 * i) →
      readVarintFrom acc i (varintBytes n ++ rest) = .ok (acc + n * 2 ^ (7 * i), rest) := by
  induction n using Nat.strong_induction_on with
  | _ n ih =>
  intro i acc rest below fits accFits
  have place : 2 ^ (7 * (i + 1)) = 2 ^ (7 * i) * 128 := by
    rw [show 7 * (i + 1) = 7 * i + 7 by omega, Nat.pow_add]
  by_cases small : n < 128
  · -- the last byte: a plain seven-bit group, or the tenth byte, which is 0 or 1
    have byte : (n.toUInt8).toNat = n := by
      simp only [Nat.toUInt8, UInt8.toNat_ofNat']
      omega
    rw [varintBytes_lt small, List.singleton_append, readVarintFrom]
    simp only [byte, Nat.pow_eq, Nat.mod_eq_of_lt small]
    by_cases tenth : i = 9
    · subst tenth
      have one : n < 2 := by simpa using fits
      simp only [if_pos, one, Nat.mod_eq_of_lt (show acc + n * 2 ^ 63 < 2 ^ 64 by
        have : n * 2 ^ 63 ≤ 2 ^ 63 := by
          calc n * 2 ^ 63 ≤ 1 * 2 ^ 63 := Nat.mul_le_mul_right _ (by omega)
            _ = 2 ^ 63 := one_mul _
        simp only [Nat.reduceMul] at accFits
        omega)]
    · simp only [if_neg tenth, if_pos small]
  · -- a byte with its continuation bit, then the varint of what is left
    have notTenth : i ≠ 9 := by
      rintro rfl
      have : n < 2 := by simpa using fits
      omega
    have byte : ((n % 128 + 128).toUInt8).toNat = n % 128 + 128 := by
      simp only [Nat.toUInt8, UInt8.toNat_ofNat']
      omega
    have restFits : n / 128 < 2 ^ (64 - 7 * (i + 1)) := by
      rw [Nat.div_lt_iff_lt_mul (by decide)]
      rwa [show 64 - 7 * i = 64 - 7 * (i + 1) + 7 by omega, Nat.pow_add] at fits
    have lowFits : acc + n % 128 * 2 ^ (7 * i) < 2 ^ (7 * (i + 1)) := by
      rw [place]
      have : n % 128 * 2 ^ (7 * i) ≤ 127 * 2 ^ (7 * i) := Nat.mul_le_mul_right _ (by omega)
      omega
    rw [varintBytes_ge small, List.cons_append, readVarintFrom]
    simp only [byte, Nat.pow_eq, Nat.add_mod_right, Nat.mod_mod, if_neg notTenth,
      show ¬n % 128 + 128 < 128 by omega, if_false]
    rw [ih (n / 128) (Nat.div_lt_self (by omega) (by decide)) (i + 1) _ rest (by omega) restFits
      lowFits, place]
    congr 2
    calc acc + n % 128 * 2 ^ (7 * i) + n / 128 * (2 ^ (7 * i) * 128)
        = acc + (n % 128 + 128 * (n / 128)) * 2 ^ (7 * i) := by ring
      _ = acc + n * 2 ^ (7 * i) := by rw [Nat.mod_add_div]

/-- A varint below `2 ^ 64` reads as its value and leaves the rest. -/
theorem readVarint_varintBytes {n : Nat} (fits : n < 2 ^ 64) (rest : List UInt8) :
    readVarint (varintBytes n ++ rest) = .ok (n, rest) := by
  have read := readVarintFrom_varintBytes n 0 0 rest (by decide) (by simpa using fits) (by decide)
  simpa [readVarint] using read

/-- A tag reads as its field number and wire type. -/
theorem readTag_varintBytes {num typ : Nat} (numbered : 1 ≤ num ∧ num ≤ 2147483647) (small : typ < 8)
    (rest : List UInt8) : readTag (varintBytes (num * 8 + typ) ++ rest) = .ok (num, typ, rest) := by
  unfold readTag
  rw [readVarint_varintBytes (by omega)]
  have first : (num * 8 + typ) / 8 = num := by omega
  have second : (num * 8 + typ) % 8 = typ := by omega
  simp only [bind, Except.bind, first, second]
  rw [if_neg (by simp; omega)]

/-- A length-delimited value reads as its payload. -/
theorem readBytes_varintBytes {p : List UInt8} (fits : p.length < 2 ^ 64) (rest : List UInt8) :
    readBytes (varintBytes p.length ++ (p ++ rest)) = .ok (p, rest) := by
  unfold readBytes
  rw [readVarint_varintBytes fits]
  simp only [bind, Except.bind, List.length_append]
  rw [if_neg (by omega), List.take_left', List.drop_left'] <;> rfl

/-! ## Fields -/

/-- A field as the codec writes it reads back as that field. -/
theorem readField_bytesField {num : Nat} (numbered : 1 ≤ num ∧ num ≤ 2147483647) {p : List UInt8}
    (fits : p.length < 2 ^ 64) (rest : List UInt8) :
    readField (bytesField num p ++ rest) = .ok (⟨num, bytesType, 0, p⟩, rest) := by
  unfold readField bytesField
  rw [List.append_assoc, List.append_assoc, readTag_varintBytes numbered (by decide)]
  simp only [bind, Except.bind, if_pos, readBytes_varintBytes fits]

theorem readField_varintField {num : Nat} (numbered : 1 ≤ num ∧ num ≤ 2147483647) {x : Nat}
    (fits : x < 2 ^ 64) (rest : List UInt8) :
    readField (varintField num x ++ rest) = .ok (⟨num, varintType, x, []⟩, rest) := by
  unfold readField varintField
  rw [List.append_assoc, readTag_varintBytes numbered (by decide)]
  simp only [bind, Except.bind, show varintType ≠ bytesType by decide, if_false, if_pos,
    readVarint_varintBytes fits]

/-- `bs` holds the fields `fs` one after another, each read back whatever follows it. -/
inductive Encodes : List UInt8 → List Field → Prop
  | nil : Encodes [] []
  | cons {chunk bs : List UInt8} {f : Field} {fs : List Field} (nonempty : chunk ≠ [])
      (reads : ∀ rest, readField (chunk ++ rest) = .ok (f, rest)) (tail : Encodes bs fs) :
      Encodes (chunk ++ bs) (f :: fs)

namespace Encodes

theorem single {chunk : List UInt8} {f : Field} (nonempty : chunk ≠ [])
    (reads : ∀ rest, readField (chunk ++ rest) = .ok (f, rest)) : Encodes chunk [f] := by
  have one := Encodes.cons nonempty reads .nil
  rwa [List.append_nil] at one

theorem append {a b : List UInt8} {fs gs : List Field} (first : Encodes a fs) (second : Encodes b gs) :
    Encodes (a ++ b) (fs ++ gs) := by
  induction first with
  | nil => exact second
  | cons nonempty reads _ ih =>
    rw [List.append_assoc]
    exact .cons nonempty reads ih

/-- Every field takes at least one byte. -/
theorem length_le {bs : List UInt8} {fs : List Field} (encodes : Encodes bs fs) :
    fs.length ≤ bs.length := by
  induction encodes with
  | nil => exact le_refl 0
  | cons nonempty _ _ ih =>
    have : 0 < _ := List.length_pos_iff.2 nonempty
    simp only [List.length_cons, List.length_append]
    omega

theorem bytesField {num : Nat} (numbered : 1 ≤ num ∧ num ≤ 2147483647) {p : List UInt8}
    (fits : p.length < 2 ^ 64) : Encodes (Wire.bytesField num p) [⟨num, bytesType, 0, p⟩] :=
  single (by simp [Wire.bytesField, varintBytes_ne_nil]) (readField_bytesField numbered fits)

theorem varintField {num : Nat} (numbered : 1 ≤ num ∧ num ≤ 2147483647) {x : Nat}
    (fits : x < 2 ^ 64) : Encodes (Wire.varintField num x) [⟨num, varintType, x, []⟩] :=
  single (by simp [Wire.varintField, varintBytes_ne_nil]) (readField_varintField numbered fits)

end Encodes

/-- Walking the fields of a message with fuel for all of them is a fold over the fields. -/
theorem foldFieldsUpTo_of_encodes {σ : Type} (step : σ → Field → Except Failure σ)
    {bs : List UInt8} {fs : List Field} (encodes : Encodes bs fs) :
    ∀ (fuel : Nat) (s : σ), fs.length < fuel → foldFieldsUpTo step fuel s bs = fs.foldlM step s := by
  induction encodes with
  | nil =>
    intro fuel s enough
    obtain ⟨k, rfl⟩ : ∃ k, fuel = k + 1 := ⟨fuel - 1, by simp at enough; omega⟩
    rfl
  | @cons chunk bs f fs nonempty reads _ ih =>
    intro fuel s enough
    obtain ⟨k, rfl⟩ : ∃ k, fuel = k + 1 := ⟨fuel - 1, by simp at enough; omega⟩
    have full : (chunk ++ bs).isEmpty = false := by simp [nonempty]
    rw [foldFieldsUpTo, full, if_neg Bool.false_ne_true, reads, List.foldlM_cons]
    dsimp only
    cases step s f with
    | error e => rfl
    | ok s' => exact ih k s' (by simp at enough; omega)

theorem foldFields_of_encodes {σ : Type} (step : σ → Field → Except Failure σ) (s : σ)
    {bs : List UInt8} {fs : List Field} (encodes : Encodes bs fs) :
    foldFields step s bs = fs.foldlM step s :=
  foldFieldsUpTo_of_encodes step encodes _ s (Nat.lt_succ_of_le encodes.length_le)

theorem length_lt_bytesField (num : Nat) (p : List UInt8) : p.length < (bytesField num p).length := by
  have tag : 0 < (varintBytes (num * 8 + bytesType)).length :=
    List.length_pos_iff.2 (varintBytes_ne_nil _)
  simp only [bytesField, List.length_append]
  omega

theorem length_le_packedField (num : Nat) (p : List UInt8) : p.length ≤ (packedField num p).length := by
  unfold packedField
  split
  · case isTrue empty => simp [List.isEmpty_iff.1 empty]
  · exact le_of_lt (length_lt_bytesField num p)

/-- The fields a packed field holds: none when its payload is empty. -/
def packedFields (num : Nat) (p : List UInt8) : List Field :=
  if p.isEmpty then [] else [⟨num, bytesType, 0, p⟩]

theorem Encodes.packedField {num : Nat} (numbered : 1 ≤ num ∧ num ≤ 2147483647) {p : List UInt8}
    (fits : (Wire.packedField num p).length < 2 ^ 64) :
    Encodes (Wire.packedField num p) (packedFields num p) := by
  have payload := lt_of_le_of_lt (length_le_packedField num p) fits
  unfold Wire.packedField packedFields
  split
  · exact .nil
  · exact .bytesField numbered payload

theorem packedFields_nil (num : Nat) : packedFields num [] = [] := rfl

theorem foldlM_packedFields {σ : Type} (step : σ → Field → Except Failure σ) (s : σ) (num : Nat)
    {p : List UInt8} (full : p ≠ []) :
    (packedFields num p).foldlM step s = step s ⟨num, bytesType, 0, p⟩ := by
  simp only [packedFields, List.isEmpty_iff, full, if_false, List.foldlM_cons, List.foldlM_nil]
  cases step s ⟨num, bytesType, 0, p⟩ <;> rfl

theorem length_le_flatMap_varintBytes (xs : List Nat) :
    xs.length ≤ (xs.flatMap varintBytes).length := by
  induction xs with
  | nil => exact le_refl 0
  | cons x rest ih =>
    have : 0 < (varintBytes x).length := List.length_pos_iff.2 (varintBytes_ne_nil x)
    simp only [List.flatMap_cons, List.length_append, List.length_cons]
    omega

/-- Packed varints read back as their values. -/
theorem packedVarints_flatMap {xs : List Nat} (fits : ∀ x ∈ xs, x < 2 ^ 64) :
    packedVarints (xs.flatMap varintBytes) = .ok xs := by
  suffices walk : ∀ fuel, xs.length < fuel → packedVarints.go (xs.flatMap varintBytes) fuel = .ok xs from
    walk _ (Nat.lt_succ_of_le (length_le_flatMap_varintBytes xs))
  induction xs with
  | nil =>
    intro fuel enough
    obtain ⟨k, rfl⟩ : ∃ k, fuel = k + 1 := ⟨fuel - 1, by simp at enough; omega⟩
    rfl
  | cons x rest ih =>
    intro fuel enough
    obtain ⟨k, rfl⟩ : ∃ k, fuel = k + 1 := ⟨fuel - 1, by simp at enough; omega⟩
    have full : (varintBytes x ++ rest.flatMap varintBytes).isEmpty = false := by
      simp [varintBytes_ne_nil]
    rw [List.flatMap_cons, packedVarints.go, full, if_neg Bool.false_ne_true,
      readVarint_varintBytes (fits x List.mem_cons_self)]
    dsimp only
    rw [ih (fun y mem => fits y (List.mem_cons_of_mem _ mem)) k (by simp at enough; omega)]
    rfl

/-! ## Eight-byte words -/

theorem length_fixed64Bytes (n : UInt64) : (fixed64Bytes n).length = 8 := by
  simp [fixed64Bytes]

/-- Putting a byte below a word of at most seven bytes. -/
theorem toNat_shiftLeft_or {acc : UInt64} (fits : acc.toNat < 2 ^ 56) (b : UInt8) :
    ((acc <<< 8) ||| b.toUInt64).toNat = acc.toNat * 256 + b.toNat := by
  rw [UInt64.toNat_or, UInt64.toNat_shiftLeft, UInt8.toNat_toUInt64]
  have low : b.toNat < 2 ^ 8 := b.toNat_lt
  rw [show (8 : UInt64).toNat % 64 = 8 from rfl, Nat.shiftLeft_eq,
    Nat.mod_eq_of_lt (by omega), Nat.mul_comm, ← Nat.two_pow_add_eq_or_of_lt low]

/-- The bytes of a word read little-endian, as a number. -/
theorem toNat_fixed64Of {bs : List UInt8} (short : bs.length ≤ 8) :
    (fixed64Of bs).toNat = bs.foldr (fun b acc => acc * 256 + b.toNat) 0 ∧
      bs.foldr (fun b acc => acc * 256 + b.toNat) 0 < 256 ^ bs.length := by
  induction bs with
  | nil => exact ⟨rfl, by decide⟩
  | cons b rest ih =>
    obtain ⟨value, bound⟩ := ih (by simp at short; omega)
    have seven : 256 ^ rest.length ≤ 2 ^ 56 :=
      calc 256 ^ rest.length ≤ 256 ^ 7 := Nat.pow_le_pow_right (by decide) (by simp at short; omega)
        _ = 2 ^ 56 := by norm_num
    have byte : b.toNat < 256 := b.toNat_lt
    refine ⟨?_, ?_⟩
    · simp only [fixed64Of, List.foldr_cons] at value ⊢
      rw [toNat_shiftLeft_or (by omega) b, value]
    · simp only [List.foldr_cons, List.length_cons, pow_succ]
      nlinarith

/-- A word reads back from its eight bytes. -/
theorem fixed64Of_fixed64Bytes (n : UInt64) : fixed64Of (fixed64Bytes n) = n := by
  apply UInt64.toNat_inj.mp
  rw [(toNat_fixed64Of (le_of_eq (length_fixed64Bytes n))).1]
  have whole : n.toNat < 2 ^ 64 := n.toNat_lt
  simp only [fixed64Bytes, show List.range 8 = [0, 1, 2, 3, 4, 5, 6, 7] from rfl, List.map_cons,
    List.map_nil, List.foldr_cons, List.foldr_nil, UInt64.toNat_toUInt8, UInt64.toNat_shiftRight,
    Nat.shiftRight_eq_div_pow]
  simp
  omega

/-- Cutting eight-byte words back out of their concatenation. -/
theorem eights_flatten {cs : List (List UInt8)} (eight : ∀ c ∈ cs, c.length = 8) :
    eights cs.flatten = cs := by
  induction cs with
  | nil => rw [eights]; simp
  | cons c rest ih =>
    have len : c.length = 8 := eight c List.mem_cons_self
    rw [eights, List.flatten_cons, dif_neg (by simp [len]), List.take_left' len,
      List.drop_left' len, ih fun c' mem => eight c' (List.mem_cons_of_mem _ mem)]

end AccessLayer.Wire

namespace AccessLayer

/-! ## Integer codes -/

theorem unzigzag_zigzag (v : Int) : unzigzag (zigzag v) = v := by
  unfold zigzag unzigzag
  by_cases nonneg : v ≥ 0
  · rw [if_pos nonneg, if_pos (by omega)]
    omega
  · rw [if_neg nonneg, if_neg (by omega)]
    omega

theorem zigzag_lt (x : Int32) : zigzag x.toInt < 2 ^ 64 := by
  have lo := x.le_toInt
  have hi := x.toInt_lt
  unfold zigzag
  split <;> omega

/-- A 64-bit signed value comes back from its two's complement. -/
theorem signedOf_unsignedOf {i : Int} (lo : -2 ^ 63 ≤ i) (hi : i < 2 ^ 63) :
    signedOf (unsignedOf i) = i := by
  unfold signedOf unsignedOf
  simp only [Nat.pow_eq]
  split <;> split <;> omega

theorem unsignedOf_lt {i : Int} (lo : -2 ^ 63 ≤ i) (hi : i < 2 ^ 63) : unsignedOf i < 2 ^ 64 := by
  unfold unsignedOf
  simp only [Nat.pow_eq]
  split <;> omega

/-! ## Doubles

A double is an IEEE `binary64` pattern whose NaN is always the canonical one, so a double that is
no NaN comes back from its bits, and the one NaN comes back from every NaN pattern. -/

section Doubles

open Float.Model

theorem toNat_append_eq {m n : Nat} (x : BitVec m) (y : BitVec n) :
    (x ++ y).toNat = x.toNat * 2 ^ n + y.toNat := by
  rw [BitVec.toNat_append, Nat.shiftLeft_eq, Nat.mul_comm, ← Nat.two_pow_add_eq_or_of_lt y.isLt]

theorem toNat_unpackMantissa (b : BitVec 64) :
    (@UnpackedFloat.unpackMantissa Format.binary64 b).toNat = b.toNat % 2 ^ 52 := by
  simp [UnpackedFloat.unpackMantissa, BitVec.extractLsb]

theorem toNat_unpackExponent (b : BitVec 64) :
    (@UnpackedFloat.unpackExponent Format.binary64 b).toNat = b.toNat / 2 ^ 52 % 2 ^ 11 := by
  simp [UnpackedFloat.unpackExponent, BitVec.extractLsb]
  omega

theorem toNat_unpackSign (b : BitVec 64) :
    (@UnpackedFloat.unpackSign Format.binary64 b).toNat = b.toNat / 2 ^ 63 := by
  simp [UnpackedFloat.unpackSign, BitVec.extractLsb]
  omega

theorem toBitVec_ofBitVec (v : BitVec 1) : (UnpackedFloat.Sign.ofBitVec v).toBitVec = v := by
  revert v
  decide

/-- A pattern is its sign, exponent and mantissa put back together. -/
theorem packComponents_unpack (b : BitVec 64) :
    UnpackedFloat.packComponents Format.binary64
      (UnpackedFloat.Sign.ofBitVec (@UnpackedFloat.unpackSign Format.binary64 b))
      (@UnpackedFloat.unpackExponent Format.binary64 b)
      (@UnpackedFloat.unpackMantissa Format.binary64 b) = b := by
  apply BitVec.eq_of_toNat_eq
  simp only [UnpackedFloat.packComponents, toNat_append_eq, toBitVec_ofBitVec, toNat_unpackSign,
    toNat_unpackExponent, toNat_unpackMantissa]
  have := b.isLt
  omega

/-- Every pattern but a NaN packs back to itself: an infinity, a zero, a subnormal with its
exponent field 0, or a normal number whose mantissa carries the implicit bit. -/
theorem pack_unpack {b : BitVec 64} (notNaN : UnpackedFloat.unpack Format.binary64 b ≠ .notANumber) :
    UnpackedFloat.pack Format.binary64 (UnpackedFloat.unpack Format.binary64 b) = b := by
  conv => rhs; rw [← packComponents_unpack b]
  unfold UnpackedFloat.unpack
  dsimp only
  split
  · case isTrue top =>
    split
    · case isTrue zero =>
      simp only [UnpackedFloat.pack, UnpackedFloat.packedInfinity, top, zero]
      rfl
    · exact absurd (by simp [UnpackedFloat.unpack, *]) notNaN
  · split
    · case isTrue bottom =>
      split
      · case isTrue zero =>
        simp only [UnpackedFloat.pack, UnpackedFloat.packedZero, bottom, zero]
        rfl
      · case isFalse subnormal =>
        have low : (@UnpackedFloat.unpackMantissa Format.binary64 b).toNat < 2 ^ 52 :=
          (@UnpackedFloat.unpackMantissa Format.binary64 b).isLt
        have present : (@UnpackedFloat.unpackMantissa Format.binary64 b).toNat ≠ 0 :=
          fun zero => subnormal (BitVec.eq_of_toNat_eq zero)
        have bits : (@UnpackedFloat.unpackMantissa Format.binary64 b).toNat.log2 < 52 :=
          (Nat.log2_lt present).2 low
        have zeroExponent : (@UnpackedFloat.unpackExponent Format.binary64 b).toNat = 0 := by
          rw [bottom]
          rfl
        simp only [UnpackedFloat.pack]
        rw [if_neg (by simp [zeroExponent, Format.exponentBias]),
          if_neg (by simp [Format.mantissaBits]; omega), bottom]
        congr 1
        apply BitVec.eq_of_toNat_eq
        simp
    · case isFalse notTop notBottom =>
      have low : (@UnpackedFloat.unpackMantissa Format.binary64 b).toNat < 2 ^ 52 :=
        (@UnpackedFloat.unpackMantissa Format.binary64 b).isLt
      have belowTop : (@UnpackedFloat.unpackExponent Format.binary64 b).toNat < 2047 := by
        have field := (@UnpackedFloat.unpackExponent Format.binary64 b).isLt
        have notAllOnes : (@UnpackedFloat.unpackExponent Format.binary64 b).toNat ≠ 2047 :=
          fun ones => notTop (BitVec.eq_of_toNat_eq (by rw [ones]; rfl))
        simp at field
        omega
      have withImplicit : (1#1 ++ @UnpackedFloat.unpackMantissa Format.binary64 b).toNat =
          2 ^ 52 + (@UnpackedFloat.unpackMantissa Format.binary64 b).toNat := by
        rw [toNat_append_eq]
        simp
      have bits : (1#1 ++ @UnpackedFloat.unpackMantissa Format.binary64 b).toNat.log2 = 52 := by
        rw [Nat.log2_eq_iff (by rw [withImplicit]; omega), withImplicit]
        omega
      simp only [UnpackedFloat.pack]
      rw [if_neg (by simp [Format.exponentBias]; omega), if_pos (by rw [bits]; rfl)]
      congr 1
      · apply BitVec.eq_of_toNat_eq
        simp [Format.exponentBias]
        omega
      · apply BitVec.eq_of_toNat_eq
        rw [BitVec.toNat_ofNat, withImplicit]
        simp
        omega

theorem unpack_eq_notANumber {b : BitVec 64}
    (nan : UnpackedFloat.unpack Format.binary64 b = .notANumber) :
    @UnpackedFloat.unpackExponent Format.binary64 b = -1#11 ∧
      @UnpackedFloat.unpackMantissa Format.binary64 b ≠ 0#52 := by
  unfold UnpackedFloat.unpack at nan
  dsimp only at nan
  split at nan
  · case isTrue top =>
    split at nan
    · cases nan
    · case isFalse present => exact ⟨top, present⟩
  · split at nan
    · split at nan <;> cases nan
    · cases nan

theorem model_eq_of_toBits {m m' : Float.Model} (bits : m.toBits = m'.toBits) : m = m' := by
  cases m
  cases m'
  cases bits
  rfl

theorem ofBits_toBits {x : Float} (notNaN : x.isNaN = false) : Float.ofBits x.toBits = x := by
  show Float.ofModel _ = Float.ofModel x.toModel
  congr 1
  apply model_eq_of_toBits
  show UInt64.ofBitVec (UnpackedFloat.pack Format.binary64
    (UnpackedFloat.unpack Format.binary64 x.toModel.toBits.toBitVec)) = x.toModel.toBits
  rw [pack_unpack]
  intro nan
  have isNaN : x.isNaN = true := by
    show (UnpackedFloat.unpack Format.binary64 x.toModel.toBits.toBitVec).isNaN = true
    rw [nan]
    rfl
  rw [isNaN] at notNaN
  cases notNaN

/-- Every NaN is the canonical one, which the pattern a NaN is written with reads back as. -/
theorem ofBits_quietNaN {x : Float} (nan : x.isNaN = true) : Float.ofBits 0x7FF8000000000001 = x := by
  have unpacked : UnpackedFloat.unpack Format.binary64 x.toModel.toBits.toBitVec = .notANumber := by
    have isNaN : (UnpackedFloat.unpack Format.binary64 x.toModel.toBits.toBitVec).isNaN = true := nan
    revert isNaN
    cases UnpackedFloat.unpack Format.binary64 x.toModel.toBits.toBitVec <;>
      simp [UnpackedFloat.isNaN]
  obtain ⟨top, present⟩ := unpack_eq_notANumber unpacked
  have canonical := x.toModel.valid.eq_packedNaN top present
  show Float.ofModel _ = Float.ofModel x.toModel
  congr 1
  apply model_eq_of_toBits
  show UInt64.ofBitVec (UnpackedFloat.pack Format.binary64
    (UnpackedFloat.unpack Format.binary64 (0x7FF8000000000001 : UInt64).toBitVec)) = x.toModel.toBits
  have written : UnpackedFloat.unpack Format.binary64 (0x7FF8000000000001 : UInt64).toBitVec =
      .notANumber := by
    unfold UnpackedFloat.unpack
    rw [if_pos (by decide), if_neg (by decide)]
  rw [written]
  apply UInt64.toBitVec_inj.mp
  rw [canonical]
  rfl

/-- A double comes back from the pattern it is written with. -/
theorem ofBits_doubleBits (x : Float) : Float.ofBits (doubleBits x) = x := by
  unfold doubleBits
  split
  · case isTrue nan => exact ofBits_quietNaN nan
  · case isFalse notNaN => exact ofBits_toBits (by simpa using notNaN)

end Doubles

end AccessLayer
