import AccessLayer.Tree.Basic
import AccessLayer.Wire.Protobuf
import AccessLayer.Text.Utf8
import AccessLayer.Text.Quote
/-!
The wire form of data object trees, in the protocol buffer format:

    Tree  { repeated Entry entries = 1; }
    Entry { string path = 1; Leaf leaf = 2; StructArray array = 3; }
    Leaf  { int32 type = 1; repeated int64 shape = 2; string timebase = 3;
            repeated sint32 ints = 4; repeated double doubles = 5;
            bytes chars = 6; repeated double complex = 7; }
    StructArray { string timebase = 1; repeated Tree elements = 2; }

Entries are written in path order, so equal trees give equal bytes. A leaf writes only the
elements of its own type, packed, and leaves out empty lists and an empty time base; complex
values are written as real and imaginary parts. Reading takes each field as it comes: a later
entry for a path replaces an earlier one, repeated element fields add up, and a leaf's storage
of its own type is present (possibly empty) after reading.
-/
namespace AccessLayer

open Wire

/-- Two's complement of a signed 64-bit value, as the unsigned value of the same bits. -/
def unsignedOf (i : Int) : Nat := if i < 0 then (i + Nat.pow 2 64).toNat else i.toNat

/-- The signed 64-bit value of a 64-bit pattern. -/
def signedOf (n : Nat) : Int := if n ≥ Nat.pow 2 63 then (n : Int) - Nat.pow 2 64 else n

/-- The zigzag code of a signed value: non-negative `v` as `2v`, negative as `-2v - 1`. -/
def zigzag (v : Int) : Nat := if v ≥ 0 then (2 * v).toNat else (-2 * v - 1).toNat

/-- The signed value of a zigzag code. -/
def unzigzag (z : Nat) : Int := if z % 2 = 0 then (z / 2 : Nat) else -(((z + 1) / 2 : Nat) : Int)

/-- The eight little-endian bytes of a 64-bit pattern. -/
def fixed64Bytes (n : UInt64) : List UInt8 :=
  (List.range 8).map fun i => (n >>> (8 * i).toUInt64).toUInt8

/-- The 64-bit pattern of eight little-endian bytes. -/
def fixed64Of (bs : List UInt8) : UInt64 :=
  bs.foldr (fun b acc => (acc <<< 8) ||| b.toUInt64) 0

/-- The 64-bit pattern a double is written with. A NaN carries no payload here, so every NaN is
written as the quiet NaN `0x7FF8000000000001`, the one the files of this format hold for a
missing number. -/
def doubleBits (x : Float) : UInt64 := if x.isNaN then 0x7FF8000000000001 else x.toBits

/-- The elements of a leaf, as their packed field. -/
def cellsBytes : Option Cells → List UInt8
  | some (.ints v) => packedField 4 (v.flatMap fun x => varintBytes (zigzag x.toInt))
  | some (.doubles v) => packedField 5 (v.flatMap fun x => fixed64Bytes (doubleBits x))
  | some (.chars v) => packedField 6 v
  | some (.complex v) => packedField 7 (v.flatMap fun c => fixed64Bytes (doubleBits c.re) ++ fixed64Bytes (doubleBits c.im))
  | none => []

/-- The wire form of a leaf. -/
def Leaf.encode (l : Leaf) : List UInt8 :=
  varintField 1 (unsignedOf l.data.type.code) ++
    packedField 2 (l.data.shape.flatMap fun s => varintBytes (unsignedOf s)) ++
    (if l.timebase = "" then [] else bytesField 3 l.timebase.toUTF8.toList) ++
    (if l.data.type.valid then cellsBytes l.data.cells else [])

mutual
/-- The wire form of a tree. -/
def Tree.encode : Tree → List UInt8
  | .mk fs => encodeFields fs
/-- The wire form of a field list, one entry per field. -/
def encodeFields : List (String × Node) → List UInt8
  | [] => []
  | (k, n) :: rest => bytesField 1 (bytesField 1 k.toUTF8.toList ++ n.encode) ++ encodeFields rest
/-- The value part of an entry: the leaf when there is one, else the array. -/
def Node.encode : Node → List UInt8
  | .mk (some l) _ => bytesField 2 l.encode
  | .mk none (some a) => bytesField 3 a.encode
  | .mk none none => []
/-- The wire form of an array. -/
def StructArray.encode : StructArray → List UInt8
  | .mk tb es => (if tb = "" then [] else bytesField 1 tb.toUTF8.toList) ++ encodeElements es
/-- The elements of an array, an absent one as an empty tree. -/
def encodeElements : List (Option Tree) → List UInt8
  | [] => []
  | none :: rest => bytesField 2 [] ++ encodeElements rest
  | some e :: rest => bytesField 2 e.encode ++ encodeElements rest
end

/-- A leaf as it is read: every field so far. -/
structure LeafReading where
  type : Int := 0
  shape : List Int := []
  timebase : String := ""
  ints : List Int32 := []
  doubles : List Float := []
  chars : List UInt8 := []
  complex : List ComplexFloat := []

/-- Why a tree cannot be read. -/
def truncatedMessage : Failure := .plain "storage: truncated message"

/-- Reads the packed varints of a field. -/
def packedVarints (bs : List UInt8) : Except Failure (List Nat) :=
  let rec go (bs : List UInt8) : Nat → Except Failure (List Nat)
    | 0 => .ok []
    | fuel + 1 =>
      if bs.isEmpty then .ok []
      else match readVarint bs with
        | .error e => .error e.failure
        | .ok (x, rest) => (x :: ·) <$> go rest fuel
  go bs (bs.length + 1)

/-- Consecutive groups of eight bytes. -/
def eights (bs : List UInt8) : List (List UInt8) :=
  if _ : bs.length < 8 then [] else bs.take 8 :: eights (bs.drop 8)
termination_by bs.length
decreasing_by simp; omega

/-- Takes one field of a leaf into the reading. The type and the element lists take the field
whatever its wire type; a value that is not length-delimited reads as empty. -/
def LeafReading.take (r : LeafReading) (f : Field) : Except Failure LeafReading :=
  let v := f.bytes
  if f.num = 1 then .ok { r with type := signedOf f.varint }
  else if f.num = 2 then do
    let xs ← packedVarints v
    .ok { r with shape := r.shape ++ xs.map signedOf }
  else if f.num = 3 then .ok { r with timebase := Text.stringOfBytes v }
  else if f.num = 4 then do
    let xs ← packedVarints v
    .ok { r with ints := r.ints ++ xs.map fun z => Int32.ofInt (unzigzag z) }
  else if f.num = 5 then
    if v.length % 8 ≠ 0 then .error truncatedMessage
    else .ok { r with doubles := r.doubles ++ (eights v).map fun b => Float.ofBits (fixed64Of b) }
  else if f.num = 6 then .ok { r with chars := v }
  else if f.num = 7 then
    if v.length % 16 ≠ 0 then .error truncatedMessage
    else
      let parts := (eights v).map fun b => Float.ofBits (fixed64Of b)
      let rec pairs : List Float → List ComplexFloat
        | a :: b :: rest => ⟨a, b⟩ :: pairs rest
        | _ => []
      .ok { r with complex := r.complex ++ pairs parts }
  else .ok r

/-- The leaf of a finished reading; its type must be valid, and the storage of its type is
present. -/
def LeafReading.finish (r : LeafReading) : Except Failure Leaf :=
  let t : DataType := ⟨r.type⟩
  if !t.valid then .error (.plain ("storage: invalid data type " ++ toString r.type))
  else
    let cells : Cells :=
      if t = .char then .chars r.chars
      else if t = .integer then .ints r.ints
      else if t = .double then .doubles r.doubles
      else .complex r.complex
    .ok ⟨⟨t, r.shape, some cells⟩, r.timebase⟩

/-- Reads a leaf. -/
def decodeLeaf (bs : List UInt8) : Except Failure Leaf := do
  (← foldFields LeafReading.take {} bs).finish

/-- An entry as it is read. -/
structure EntryReading where
  path : String := ""
  leaf : Option Leaf := none
  array : Option StructArray := none

/-- Takes one field of an array: its time base, or one more element, read with `decode`. -/
def arrayStep (decode : List UInt8 → Except Failure Tree) (acc : String × List (Option Tree))
    (f : Field) : Except Failure (String × List (Option Tree)) :=
  if f.typ ≠ bytesType then .ok acc
  else if f.num = 1 then .ok (Text.stringOfBytes f.bytes, acc.2)
  else if f.num = 2 then do
    let e ← decode f.bytes
    .ok (acc.1, acc.2 ++ [some e])
  else .ok acc

/-- Reads an array of structures, each element with `decode`. -/
def readArrayWith (decode : List UInt8 → Except Failure Tree) (v : List UInt8) :
    Except Failure StructArray := do
  let (tb, es) ← foldFields (arrayStep decode) ("", []) v
  .ok (.mk tb es)

/-- Takes one field of an entry: its path, its leaf, or its array, whose elements are read with
`decode`. -/
def EntryReading.take (decode : List UInt8 → Except Failure Tree) (e : EntryReading) (f : Field) :
    Except Failure EntryReading :=
  if f.typ ≠ bytesType then .ok e
  else if f.num = 1 then .ok { e with path := Text.stringOfBytes f.bytes }
  else if f.num = 2 then do .ok { e with leaf := some (← decodeLeaf f.bytes) }
  else if f.num = 3 then do .ok { e with array := some (← readArrayWith decode f.bytes) }
  else .ok e

/-- Reads an entry into `t`, the elements of an array with `decode`. An entry with neither a
leaf nor an array is refused. -/
def readEntryWith (decode : List UInt8 → Except Failure Tree) (t : Tree) (v : List UInt8) :
    Except Failure Tree := do
  let e ← foldFields (EntryReading.take decode) {} v
  if e.leaf.isNone && e.array.isNone then
    .error (.plain ("storage: field " ++ Text.quote e.path ++ " has no value"))
  else .ok (t.set e.path (.mk e.leaf e.array))

/-- Takes one field of a tree: an entry, read into it. -/
def treeStep (decode : List UInt8 → Except Failure Tree) (t : Tree) (f : Field) :
    Except Failure Tree :=
  if f.num = 1 && f.typ = bytesType then readEntryWith decode t f.bytes else .ok t

/-- Reads a tree, nested at most `depth` deep; each nesting takes bytes of the enclosing
message, so the length of the input bounds the depth. -/
def decodeTreeUpTo : Nat → List UInt8 → Except Failure Tree
  | 0, _ => .ok Tree.empty
  | depth + 1, bs => foldFields (treeStep (decodeTreeUpTo depth)) Tree.empty bs

/-- Reads a tree from its wire form. -/
def Tree.decode (bs : List UInt8) : Except Failure Tree := decodeTreeUpTo (bs.length + 1) bs

end AccessLayer
