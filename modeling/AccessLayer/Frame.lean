import AccessLayer.Compression.Zstd
import AccessLayer.Hash.Blake3
import AccessLayer.Tree.Codec
/-!
Frames: a stored data object. A frame is a header (the magic number `ALS\0`, the format
version 1, and the compression level), the BLAKE3 digest of the payload, and the compressed
payload:

    [magic 4][version 2][level 1][digest 32][compressed payload]

Numbers are big-endian. Reading checks the magic number, refuses versions above 1, decompresses
the rest and checks the digest of what it gets.
-/
namespace AccessLayer

/-- The magic number `ALS\0`. -/
def frameMagic : Nat := 0x414C5300

/-- The newest frame version. -/
def frameVersion : Nat := 1

/-- The header fields and payload of a frame that reads back. -/
structure FrameContent where
  magic : Nat
  version : Nat
  level : Nat
  digest : List UInt8
  payload : List UInt8

/-- Why a frame does not read back. -/
inductive FrameError where
  | headerEmpty
  | headerShort
  | badMagic
  | badVersion (version : Nat)
  | digestEmpty
  | digestShort
  | badPayload
  | digestMismatch
  deriving Repr, DecidableEq

/-- The text of each reason. -/
def FrameError.message : FrameError → String
  | .headerEmpty => "read frame header: EOF"
  | .headerShort => "read frame header: unexpected EOF"
  | .badMagic => "invalid frame magic number"
  | .badVersion v => "unsupported frame version: " ++ toString v
  | .digestEmpty => "read frame digest: EOF"
  | .digestShort => "read frame digest: unexpected EOF"
  | .badPayload => "decompress frame"
  | .digestMismatch => "frame payload digest mismatch"

/-- The value of big-endian bytes. -/
def beValue (bs : List UInt8) : Nat := bs.foldl (fun acc b => acc * 256 + b.toNat) 0

/-- `n` as `width` big-endian bytes. -/
def beBytes (width n : Nat) : List UInt8 :=
  (List.range width).reverse.map fun i => (n / Nat.pow 256 i).toUInt8

/-- The frame of `payload` compressed at `level`. -/
def frameBytes (payload : List UInt8) (level : CompressionLevel) : List UInt8 :=
  beBytes 4 frameMagic ++ beBytes 2 frameVersion ++ [level.code.toUInt8] ++
    Blake3.digest payload ++ Zstd.compress level payload

/-- Reads a frame back: its header fields and verified payload. -/
def readFrame (bs : List UInt8) : Except FrameError FrameContent :=
  if bs.isEmpty then .error .headerEmpty
  else if bs.length < 7 then .error .headerShort
  else
    let magic := beValue (bs.take 4)
    let version := beValue ((bs.drop 4).take 2)
    let level := (bs.getD 6 0).toNat
    if magic ≠ frameMagic then .error .badMagic
    else if version > frameVersion then .error (.badVersion version)
    else
      let rest := bs.drop 7
      if rest.isEmpty then .error .digestEmpty
      else if rest.length < 32 then .error .digestShort
      else
        let want := rest.take 32
        match Zstd.decompress (rest.drop 32) with
        | .error _ => .error .badPayload
        | .ok payload =>
          if Blake3.digest payload ≠ want then .error .digestMismatch
          else .ok ⟨magic, version, level, want, payload⟩

end AccessLayer
