import Mathlib
import AccessLayer.Proofs.FrameRoundTrip
/-!
What reading a frame checks. Reading is decided by the frame's three parts, the seven header
bytes, the thirty-two digest bytes and the compressed payload after them (`readFrame_split`), and
a frame reads back only when it has all three (`length_of_readFrame_ok`). So a frame that reads
back starts with the magic number and a version no newer than the reader's, carries the digest
of the payload it gives, and that payload is what the bytes after the digest decompress to
(`readFrame_ok_layout`). Changing the first four bytes of such a frame makes it fail on the magic
number (`readFrame_badMagic_of_ok`), and changing its digest alone makes it fail on the digest
(`readFrame_digestMismatch_of_ok`).
-/

namespace AccessLayer

theorem beBytes_succ (w n : Nat) : beBytes (w + 1) n = beBytes w (n / 256) ++ [n.toUInt8] := by
  simp only [beBytes, List.range_succ_eq_map, List.reverse_cons, List.map_append, List.map_reverse,
    List.map_map]
  congr 1
  · congr 1
    apply List.map_congr_left
    intro i _
    simp [Nat.pow_succ', Nat.div_div_eq_div_mul]
  · simp

theorem beValue_append_byte (bs : List UInt8) (b : UInt8) :
    beValue (bs ++ [b]) = beValue bs * 256 + b.toNat := by
  simp [beValue, List.foldl_append]

/-- Big-endian bytes are the bytes of their own value: a byte string is determined by its width
and its value. -/
theorem beBytes_beValue (bs : List UInt8) : beBytes bs.length (beValue bs) = bs := by
  induction bs using List.reverseRecOn with
  | nil => rfl
  | append_singleton bs b ih =>
    have low : b.toNat < 256 := b.toNat_lt
    have high : (beValue bs * 256 + b.toNat) / 256 = beValue bs := by omega
    have byte : (beValue bs * 256 + b.toNat).toUInt8 = b := by
      apply UInt8.toNat_inj.1
      simp only [Nat.toUInt8_eq, UInt8.toNat_ofNat', Nat.reducePow]
      omega
    rw [List.length_append, List.length_singleton, beBytes_succ, beValue_append_byte, high, byte,
      ih]

theorem eq_beBytes_of_beValue {bs : List UInt8} {w n : Nat} (width : bs.length = w)
    (value : beValue bs = n) : bs = beBytes w n := by
  rw [← width, ← value, beBytes_beValue]

/-- Reading a frame of at least 39 bytes, from its header, its digest and the rest. -/
theorem readFrame_split {header digest rest : List UInt8} (headerLen : header.length = 7)
    (digestLen : digest.length = 32) :
    readFrame (header ++ digest ++ rest) =
      if beValue (header.take 4) ≠ frameMagic then .error .badMagic
      else if beValue ((header.drop 4).take 2) > frameVersion then
        .error (.badVersion (beValue ((header.drop 4).take 2)))
      else match Zstd.decompress rest with
        | .error _ => .error .badPayload
        | .ok payload =>
          if Blake3.digest payload ≠ digest then .error .digestMismatch
          else .ok ⟨beValue (header.take 4), beValue ((header.drop 4).take 2),
            (header.getD 6 0).toNat, digest, payload⟩ := by
  have nonempty : (header ++ digest ++ rest).isEmpty = false := by
    simp [← List.length_eq_zero_iff, headerLen]
  have long : ¬ (header ++ digest ++ rest).length < 7 := by simp [headerLen]
  have magic : (header ++ digest ++ rest).take 4 = header.take 4 := by
    rw [List.append_assoc, List.take_append_of_le_length (by omega)]
  have version : ((header ++ digest ++ rest).drop 4).take 2 = (header.drop 4).take 2 := by
    rw [List.append_assoc, List.drop_append_of_le_length (by omega),
      List.take_append_of_le_length (by simp [headerLen])]
  have level : (header ++ digest ++ rest).getD 6 0 = header.getD 6 0 := by
    simp [List.getD_eq_getElem?_getD, List.getElem?_append_left (show 6 < header.length by omega)]
  have afterHeader : (header ++ digest ++ rest).drop 7 = digest ++ rest := by
    rw [List.append_assoc, ← headerLen, List.drop_left]
  have digestNonempty : (digest ++ rest).isEmpty = false := by
    simp [← List.length_eq_zero_iff, digestLen]
  have digestLong : ¬ (digest ++ rest).length < 32 := by simp [digestLen]
  unfold readFrame
  -- with the payload's decompression fixed, both matches reduce
  cases decompressed : Zstd.decompress rest <;>
    simp only [nonempty, long, magic, version, level, afterHeader, digestNonempty, digestLong,
      List.take_left' digestLen, List.drop_left' digestLen, decompressed, Bool.false_eq_true,
      if_false]

/-- A frame reads back only when it holds a header and a whole digest. -/
theorem length_of_readFrame_ok {bs : List UInt8} {c : FrameContent} (read : readFrame bs = .ok c) :
    39 ≤ bs.length := by
  unfold readFrame at read
  dsimp only at read
  -- the branches that answer an error are closed by the split itself
  split_ifs at read with empty short badMagic badVersion noDigest shortDigest
  simp only [List.length_drop] at shortDigest
  omega

/-- A byte string is its first seven bytes, the thirty-two after them, and the rest. -/
theorem eq_header_digest_rest (bs : List UInt8) :
    bs = bs.take 7 ++ (bs.drop 7).take 32 ++ bs.drop 39 := by
  have rest : bs.drop 39 = (bs.drop 7).drop 32 := by rw [List.drop_drop]
  rw [rest, List.append_assoc, List.take_append_drop, List.take_append_drop]

theorem length_take_header {bs : List UInt8} (long : 39 ≤ bs.length) : (bs.take 7).length = 7 := by
  simp only [List.length_take]
  omega

theorem length_take_digest {bs : List UInt8} (long : 39 ≤ bs.length) :
    ((bs.drop 7).take 32).length = 32 := by
  simp only [List.length_take, List.length_drop]
  omega


/-- A frame that reads back starts with the magic number and a version no newer than the
reader's, its bytes 7 to 38 are the digest of the payload it gives, and that payload is what the
bytes after them decompress to. -/
theorem readFrame_ok_layout {bs : List UInt8} {c : FrameContent} (read : readFrame bs = .ok c) :
    beBytes 4 frameMagic <+: bs ∧ beValue ((bs.drop 4).take 2) ≤ frameVersion ∧
      (bs.drop 7).take 32 = Blake3.digest c.payload ∧ Zstd.decompress (bs.drop 39) = .ok c.payload := by
  have long := length_of_readFrame_ok read
  rw [eq_header_digest_rest bs, readFrame_split (length_take_header long)
    (length_take_digest long)] at read
  simp only [List.take_take, List.drop_take] at read
  split_ifs at read with badMagic badVersion
  split at read
  · cases read
  · rename_i payload decompressed
    split_ifs at read with mismatch
    cases read
    have magic : bs.take 4 = beBytes 4 frameMagic :=
      eq_beBytes_of_beValue (by simp only [List.length_take]; omega) (not_not.1 badMagic)
    refine ⟨?_, Nat.le_of_not_gt badVersion, (not_not.1 mismatch).symm, decompressed⟩
    rw [← magic]
    exact List.take_prefix 4 bs

theorem take_magic_of_readFrame_ok {bs : List UInt8} {c : FrameContent}
    (read : readFrame bs = .ok c) : bs.take 4 = beBytes 4 frameMagic :=
  (List.prefix_iff_eq_take.1 (readFrame_ok_layout read).1).symm

/-- Changing the first four bytes of a frame that reads back makes it fail on the magic
number. -/
theorem readFrame_badMagic_of_ok {bs : List UInt8} {c : FrameContent}
    (read : readFrame bs = .ok c) {magic : List UInt8} (width : magic.length = 4)
    (changed : magic ≠ bs.take 4) : readFrame (magic ++ bs.drop 4) = .error .badMagic := by
  have long := length_of_readFrame_ok read
  have long' : 39 ≤ (magic ++ bs.drop 4).length := by
    simp only [List.length_append, List.length_drop]
    omega
  have header : ((magic ++ bs.drop 4).take 7).take 4 = magic := by
    rw [List.take_take, Nat.min_eq_left (by omega), List.take_left' width]
  -- a magic number with the value of the right one is the right one
  have refused : beValue magic ≠ frameMagic := fun same =>
    changed ((eq_beBytes_of_beValue width same).trans (take_magic_of_readFrame_ok read).symm)
  rw [eq_header_digest_rest (magic ++ bs.drop 4),
    readFrame_split (length_take_header long') (length_take_digest long'), header, if_pos refused]

/-- Changing the digest of a frame that reads back, and nothing else, makes it fail on the
digest. -/
theorem readFrame_digestMismatch_of_ok {bs : List UInt8} {c : FrameContent}
    (read : readFrame bs = .ok c) {digest : List UInt8} (width : digest.length = 32)
    (changed : digest ≠ (bs.drop 7).take 32) :
    readFrame (bs.take 7 ++ digest ++ bs.drop 39) = .error .digestMismatch := by
  have long := length_of_readFrame_ok read
  obtain ⟨-, version, signed, decompressed⟩ := readFrame_ok_layout read
  have magic : beValue ((bs.take 7).take 4) = frameMagic := by
    rw [List.take_take, Nat.min_eq_left (by omega), take_magic_of_readFrame_ok read]
    decide
  have current : beValue (((bs.take 7).drop 4).take 2) = beValue ((bs.drop 4).take 2) := by
    rw [List.drop_take, List.take_take]
    rfl
  have differs : Blake3.digest c.payload ≠ digest := by
    intro same
    rw [← same] at changed
    exact changed signed.symm
  rw [readFrame_split (length_take_header long) width, current, if_neg (not_not.2 magic),
    if_neg (Nat.not_lt.2 version), decompressed]
  simp only [differs, ne_eq, not_false_eq_true, if_true]

/-- Flipping every bit of one byte of a byte string changes it. -/
theorem modify_flip_ne {bs : List UInt8} {i : Nat} (inRange : i < bs.length) :
    bs.modify i (· ^^^ 0xff) ≠ bs := by
  intro same
  -- the byte at `i` would equal its own complement
  have at_i := congrArg (·[i]?) same
  simp [List.getElem?_eq_getElem inRange] at at_i

end AccessLayer
