import Mathlib
import AccessLayer.Text.Utf8
/-!
Reading bytes as text gives back every string from its UTF-8 bytes. Each character is written in
one to four bytes, and the reader takes each well-formed sequence back to its character: the
lead byte gives the width, the continuation bytes stay in their range (which is where the
shortest form and the exclusion of surrogates come in), and the character is the bits of the
sequence.
-/

namespace AccessLayer.Text

theorem toList_loop (bs : ByteArray) (i : Nat) (r : List UInt8) :
    ByteArray.toList.loop bs i r = r.reverse ++ bs.data.toList.drop i := by
  fun_induction ByteArray.toList.loop bs i r with
  | case1 i r inside ih =>
    have index : i < bs.data.toList.length := by simpa using inside
    rw [ih, List.drop_eq_getElem_cons index]
    simp [ByteArray.get!, inside]
  | case2 i r past =>
    rw [List.drop_eq_nil_of_le (by simpa using Nat.le_of_not_lt past)]
    simp

theorem toList_toByteArray (l : List UInt8) : l.toByteArray.toList = l := by
  rw [ByteArray.toList, toList_loop, List.toList_data_toByteArray]
  simp

/-- The UTF-8 bytes of a string are those of its characters, one after another. -/
theorem toList_toUTF8 (s : String) :
    s.toUTF8.toList = s.toList.flatMap String.utf8EncodeChar := by
  rw [String.toUTF8, ← String.utf8Encode_toList, List.utf8Encode, toList_toByteArray]

theorem isContinuation_add {x : Nat} (small : x < 64) :
    isContinuation (UInt8.ofNat (x + 128)) = true := by
  have all := (by decide : ∀ i : Fin 64, isContinuation (UInt8.ofNat (i.val + 128)) = true)
  exact all ⟨x, small⟩

theorem toNat_ofNat_lt {x : Nat} (small : x < 256) : (UInt8.ofNat x).toNat = x := by
  rw [UInt8.toNat_ofNat']
  omega

section Widths

variable (c : Char) (rest : List UInt8)

/-- A character of two bytes. -/
theorem multiByte_two (wide : 127 < c.toNat) (two : c.toNat ≤ 2047) :
    multiByte (c.toNat / 64 % 32 + 192) (UInt8.ofNat (c.toNat % 64 + 128) :: rest) = some (c, 1) := by
  have second : (UInt8.ofNat (c.toNat % 64 + 128)).toNat = c.toNat % 64 + 128 :=
    toNat_ofNat_lt (by omega)
  have value : (c.toNat / 64 % 32 + 192) % 32 * 64 + (c.toNat % 64 + 128) % 64 = c.toNat := by
    omega
  unfold multiByte
  dsimp only
  rw [if_pos (by simp; omega), if_pos (isContinuation_add (by omega)), second, value,
    Char.ofNat_toNat]

/-- A character of three bytes, which is no surrogate. -/
theorem multiByte_three (wide : 2047 < c.toNat) (three : c.toNat ≤ 65535)
    (surrogate : c.toNat < 0xD800 ∨ 0xDFFF < c.toNat) :
    multiByte (c.toNat / 4096 % 16 + 224)
      (UInt8.ofNat (c.toNat / 64 % 64 + 128) :: UInt8.ofNat (c.toNat % 64 + 128) :: rest) =
        some (c, 2) := by
  have second : (UInt8.ofNat (c.toNat / 64 % 64 + 128)).toNat = c.toNat / 64 % 64 + 128 :=
    toNat_ofNat_lt (by omega)
  have third : (UInt8.ofNat (c.toNat % 64 + 128)).toNat = c.toNat % 64 + 128 :=
    toNat_ofNat_lt (by omega)
  -- the second byte of the shortest form, and of no surrogate, lies in the reader's window
  have window : ((if c.toNat / 4096 % 16 + 224 = 0xE0 then 0xA0
      else if c.toNat / 4096 % 16 + 224 = 0xF0 then 0x90 else 0x80) ≤ c.toNat / 64 % 64 + 128) ∧
      (c.toNat / 64 % 64 + 128 ≤ if c.toNat / 4096 % 16 + 224 = 0xED then 0x9F
        else if c.toNat / 4096 % 16 + 224 = 0xF4 then 0x8F else 0xBF) := by
    constructor <;> split_ifs <;> omega
  have value : (c.toNat / 4096 % 16 + 224) % 16 * 4096 + (c.toNat / 64 % 64 + 128) % 64 * 64 +
      (c.toNat % 64 + 128) % 64 = c.toNat := by
    omega
  unfold multiByte
  dsimp only
  simp only [second, third, window, isContinuation_add (show c.toNat % 64 < 64 by omega), value,
    Char.ofNat_toNat, show ¬c.toNat / 4096 % 16 + 224 ≤ 223 by omega,
    show 224 ≤ c.toNat / 4096 % 16 + 224 by omega, show c.toNat / 4096 % 16 + 224 ≤ 239 by omega,
    decide_true, decide_false, Bool.and_true, Bool.and_false, Bool.not_true, Bool.false_eq_true,
    if_false, if_true]

/-- A character of four bytes, which is at most U+10FFFF. -/
theorem multiByte_four (wide : 65535 < c.toNat) (top : c.toNat < 0x110000) :
    multiByte (c.toNat / 262144 % 8 + 240)
      (UInt8.ofNat (c.toNat / 4096 % 64 + 128) :: UInt8.ofNat (c.toNat / 64 % 64 + 128) ::
        UInt8.ofNat (c.toNat % 64 + 128) :: rest) = some (c, 3) := by
  have second : (UInt8.ofNat (c.toNat / 4096 % 64 + 128)).toNat = c.toNat / 4096 % 64 + 128 :=
    toNat_ofNat_lt (by omega)
  have third : (UInt8.ofNat (c.toNat / 64 % 64 + 128)).toNat = c.toNat / 64 % 64 + 128 :=
    toNat_ofNat_lt (by omega)
  have fourth : (UInt8.ofNat (c.toNat % 64 + 128)).toNat = c.toNat % 64 + 128 :=
    toNat_ofNat_lt (by omega)
  -- the second byte of the shortest form, below U+110000, lies in the reader's window
  have window : ((if c.toNat / 262144 % 8 + 240 = 0xE0 then 0xA0
      else if c.toNat / 262144 % 8 + 240 = 0xF0 then 0x90 else 0x80) ≤ c.toNat / 4096 % 64 + 128) ∧
      (c.toNat / 4096 % 64 + 128 ≤ if c.toNat / 262144 % 8 + 240 = 0xED then 0x9F
        else if c.toNat / 262144 % 8 + 240 = 0xF4 then 0x8F else 0xBF) := by
    constructor <;> split_ifs <;> omega
  have value : (c.toNat / 262144 % 8 + 240) % 8 * 262144 + (c.toNat / 4096 % 64 + 128) % 64 * 4096 +
      (c.toNat / 64 % 64 + 128) % 64 * 64 + (c.toNat % 64 + 128) % 64 = c.toNat := by
    omega
  unfold multiByte
  dsimp only
  simp only [second, third, fourth, window, isContinuation_add (show c.toNat / 64 % 64 < 64 by omega),
    isContinuation_add (show c.toNat % 64 < 64 by omega), value, Char.ofNat_toNat,
    show ¬c.toNat / 262144 % 8 + 240 ≤ 223 by omega, show ¬c.toNat / 262144 % 8 + 240 ≤ 239 by omega,
    show 240 ≤ c.toNat / 262144 % 8 + 240 by omega, show c.toNat / 262144 % 8 + 240 ≤ 244 by omega,
    show 224 ≤ c.toNat / 262144 % 8 + 240 by omega, decide_true, decide_false, Bool.and_true,
    Bool.and_false, Bool.not_true, Bool.false_eq_true, if_false, if_true]

/-- The bytes of a character read back as that character, whatever follows them. -/
theorem decodeLossy_utf8EncodeChar :
    decodeLossy (String.utf8EncodeChar c ++ rest) = c :: decodeLossy rest := by
  have valid := c.valid
  simp only [UInt32.isValidChar, Nat.isValidChar] at valid
  rw [show c.val.toNat = c.toNat from rfl] at valid
  unfold String.utf8EncodeChar
  simp only [show c.val.toNat = c.toNat from rfl]
  split
  · case isTrue one =>
    rw [List.singleton_append, decodeLossy, if_pos (by rw [toNat_ofNat_lt (by omega)]; omega),
      toNat_ofNat_lt (by omega), Char.ofNat_toNat]
  · split
    · case isTrue two =>
      rw [List.cons_append, List.cons_append, List.nil_append, decodeLossy,
        toNat_ofNat_lt (by omega), if_neg (by omega), multiByte_two c rest (by omega) two]
      rfl
    · split
      · case isTrue three =>
        rw [List.cons_append, List.cons_append, List.cons_append, List.nil_append, decodeLossy,
          toNat_ofNat_lt (by omega), if_neg (by omega),
          multiByte_three c rest (by omega) three (by omega)]
        rfl
      · case isFalse four =>
        rw [List.cons_append, List.cons_append, List.cons_append, List.cons_append, List.nil_append,
          decodeLossy, toNat_ofNat_lt (by omega), if_neg (by omega),
          multiByte_four c rest (by omega) (by omega)]
        rfl

end Widths

theorem decodeLossy_flatMap (l : List Char) :
    decodeLossy (l.flatMap String.utf8EncodeChar) = l := by
  induction l with
  | nil => rw [List.flatMap_nil, decodeLossy]
  | cons c rest ih => rw [List.flatMap_cons, decodeLossy_utf8EncodeChar, ih]

/-- A string reads back from its UTF-8 bytes. -/
theorem stringOfBytes_toUTF8 (s : String) : stringOfBytes s.toUTF8.toList = s := by
  rw [stringOfBytes, toList_toUTF8, decodeLossy_flatMap, String.ofList_toList]

end AccessLayer.Text
