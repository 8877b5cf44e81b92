import AccessLayer.Compression.Level
/-!
The Zstandard frame format, as far as payload storage needs it. Writing produces one frame of
raw (stored) blocks, with the content size in the header, and nothing at all for an empty
payload. Reading accepts a sequence of frames: skippable frames are passed over, and the raw
and run-length blocks of data frames are joined; anything else is refused.
-/
namespace AccessLayer.Zstd

/-- The magic number of a data frame, little-endian. -/
def frameMagic : List UInt8 := [0x28, 0xB5, 0x2F, 0xFD]

/-- The largest block. -/
def maxBlock : Nat := 131072

/-- `n` as `width` little-endian bytes. -/
def leBytes (width n : Nat) : List UInt8 := (List.range width).map fun i => (n / Nat.pow 256 i).toUInt8

/-- The value of little-endian bytes. -/
def leValue (bs : List UInt8) : Nat := bs.foldr (fun b acc => acc * 256 + b.toNat) 0

/-- Raw blocks carrying `data`, the last one marked. -/
def rawBlocks (data : List UInt8) : List UInt8 :=
  if _ : data.length ≤ maxBlock then leBytes 3 (data.length * 8 + 1) ++ data
  else leBytes 3 (maxBlock * 8) ++ data.take maxBlock ++ rawBlocks (data.drop maxBlock)
termination_by data.length
decreasing_by simp [maxBlock] at *; omega

/-- One frame holding `data` in raw blocks; nothing for empty data. The level does not change
the stored form. -/
def compress (_level : CompressionLevel) (data : List UInt8) : List UInt8 :=
  if data.isEmpty then []
  else frameMagic ++ [0xE0] ++ leBytes 8 data.length ++ rawBlocks data

/-- Why a stream cannot be read. -/
inductive StreamError where
  | truncated
  | badMagic
  | badHeader
  | unsupportedBlock
  | sizeMismatch
  deriving Repr, DecidableEq

/-- The blocks of a frame, appended to `out`, and the rest of the input. `fuel` bounds the
number of blocks. -/
def readBlocks (out : List UInt8) (bs : List UInt8) : Nat → Except StreamError (List UInt8 × List UInt8)
  | 0 => .error .truncated
  | fuel + 1 =>
    if bs.length < 3 then .error .truncated
    else
      let h := leValue (bs.take 3)
      let rest := bs.drop 3
      let last := h % 2 = 1
      let kind := h / 2 % 4
      let size := h / 8
      if size > maxBlock then .error .badHeader
      else
        let step : Except StreamError (List UInt8 × List UInt8) :=
          if kind = 0 then
            if rest.length < size then .error .truncated else .ok (rest.take size, rest.drop size)
          else if kind = 1 then
            match rest with
            | b :: more => .ok (List.replicate size b, more)
            | [] => .error .truncated
          else .error .unsupportedBlock
        match step with
        | .error e => .error e
        | .ok (block, more) =>
          if last then .ok (out ++ block, more) else readBlocks (out ++ block) more fuel

/-- One data frame after its magic number: header, blocks, and checksum when flagged. -/
def readFrame (bs : List UInt8) : Except StreamError (List UInt8 × List UInt8) := do
  match bs with
  | [] => .error .truncated
  | d :: rest =>
    let d := d.toNat
    let sizeFlag := d / 64
    let single := d / 32 % 2 = 1
    let checksum := d / 4 % 2 = 1
    let dictFlag := d % 4
    if d / 8 % 2 = 1 then .error .badHeader
    else
      let windowLen := if single then 0 else 1
      let dictLen := if dictFlag = 0 then 0 else if dictFlag = 1 then 1 else if dictFlag = 2 then 2 else 4
      let sizeLen := if sizeFlag = 0 then (if single then 1 else 0)
        else if sizeFlag = 1 then 2 else if sizeFlag = 2 then 4 else 8
      if rest.length < windowLen + dictLen + sizeLen then .error .truncated
      else
        let dict := leValue ((rest.drop windowLen).take dictLen)
        if dict ≠ 0 then .error .badHeader
        else
          let sizeBytes := (rest.drop (windowLen + dictLen)).take sizeLen
          let declared : Option Nat := if sizeLen = 0 then none
            else some (leValue sizeBytes + (if sizeFlag = 1 then 256 else 0))
          let afterHeader := rest.drop (windowLen + dictLen + sizeLen)
          let (content, more) ← readBlocks [] afterHeader (afterHeader.length + 1)
          if declared.isSome && declared ≠ some content.length then .error .sizeMismatch
          else if checksum then
            if more.length < 4 then .error .truncated else .ok (content, more.drop 4)
          else .ok (content, more)

/-- Reads a stream of frames, joining their contents. `fuel` bounds the number of frames. -/
def decompressUpTo (out : List UInt8) (bs : List UInt8) : Nat → Except StreamError (List UInt8)
  | 0 => .error .truncated
  | fuel + 1 =>
    if bs.isEmpty then .ok out
    else if bs.length < 4 then .error .truncated
    else
      let magic := bs.take 4
      let rest := bs.drop 4
      if magic = frameMagic then
        match readFrame rest with
        | .error e => .error e
        | .ok (content, more) => decompressUpTo (out ++ content) more fuel
      else if (magic.getD 0 0) &&& 0xF0 = 0x50 && magic.drop 1 = [0x2A, 0x4D, 0x18] then
        if rest.length < 4 then .error .truncated
        else
          let size := leValue (rest.take 4)
          if rest.length - 4 < size then .error .truncated
          else decompressUpTo out ((rest.drop 4).drop size) fuel
      else .error .badMagic

/-- Reads a stream of frames. -/
def decompress (bs : List UInt8) : Except StreamError (List UInt8) :=
  decompressUpTo [] bs (bs.length + 1)

end AccessLayer.Zstd
