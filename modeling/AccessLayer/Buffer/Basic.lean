import AccessLayer.Failure
import AccessLayer.Modes
/-!
Typed data buffers. A buffer has an element type, a shape and its elements. For time-dependent
data the last dimension is time, so a buffer holds `shape[last]` slices of `sliceLen` elements.
The elements may be absent: a buffer whose storage has been handed on is released, which is
not the same as holding no elements.
-/
namespace AccessLayer

/-- The element type of a buffer, as its code: 0 characters, 1 integers, 2 doubles, 3 complex.
Other codes are kept and carry no elements. -/
structure DataType where
  code : Int
  deriving Repr, DecidableEq, Inhabited

namespace DataType
def char : DataType := ⟨0⟩
def integer : DataType := ⟨1⟩
def double : DataType := ⟨2⟩
def complex : DataType := ⟨3⟩
def name (t : DataType) : String :=
  codeName "DataType" ["CHAR_DATA", "INTEGER_DATA", "DOUBLE_DATA", "COMPLEX_DATA"] t.code
def valid (t : DataType) : Bool := 0 ≤ t.code && t.code ≤ 3
end DataType

/-- A complex number as a pair of doubles. -/
structure ComplexFloat where
  re : Float
  im : Float
  deriving Inhabited

namespace ComplexFloat

instance : Add ComplexFloat := ⟨fun a b => ⟨a.re + b.re, a.im + b.im⟩⟩
instance : Sub ComplexFloat := ⟨fun a b => ⟨a.re - b.re, a.im - b.im⟩⟩

/-- The product by the textbook formula, with no correction for infinities. -/
instance : Mul ComplexFloat := ⟨fun a b => ⟨a.re * b.re - a.im * b.im, a.re * b.im + a.im * b.re⟩⟩

/-- Equality of both parts as doubles: a part that is not a number equals nothing. -/
instance : BEq ComplexFloat := ⟨fun a b => a.re == b.re && a.im == b.im⟩

end ComplexFloat

/-- Elements of one type. -/
inductive Cells where
  | chars (bytes : List UInt8)
  | ints (values : List Int32)
  | doubles (values : List Float)
  | complex (values : List ComplexFloat)
  deriving Inhabited

namespace Cells

/-- The number of elements. -/
def length : Cells → Nat
  | .chars v => v.length
  | .ints v => v.length
  | .doubles v => v.length
  | .complex v => v.length

/-- The elements from index `lo` up to, and without, `hi`. -/
def extract (c : Cells) (lo hi : Nat) : Cells :=
  match c with
  | .chars v => .chars ((v.drop lo).take (hi - lo))
  | .ints v => .ints ((v.drop lo).take (hi - lo))
  | .doubles v => .doubles ((v.drop lo).take (hi - lo))
  | .complex v => .complex ((v.drop lo).take (hi - lo))

/-- The first `n` elements. -/
def take (c : Cells) (n : Nat) : Cells := c.extract 0 n

/-- The elements of `a` followed by those of `b`, when both have one type. -/
def append? : Cells → Cells → Option Cells
  | .chars a, .chars b => some (.chars (a ++ b))
  | .ints a, .ints b => some (.ints (a ++ b))
  | .doubles a, .doubles b => some (.doubles (a ++ b))
  | .complex a, .complex b => some (.complex (a ++ b))
  | _, _ => none

/-- `n` zero elements of type `t`, or nothing for a type without elements. -/
def zeros (t : DataType) (n : Nat) : Option Cells :=
  if t = .char then some (.chars (List.replicate n 0))
  else if t = .integer then some (.ints (List.replicate n 0))
  else if t = .double then some (.doubles (List.replicate n 0))
  else if t = .complex then some (.complex (List.replicate n ⟨0, 0⟩))
  else none

/-- The type code of the elements. -/
def type : Cells → DataType
  | .chars _ => .char
  | .ints _ => .integer
  | .doubles _ => .double
  | .complex _ => .complex

end Cells

/-- The integer that stands for "no value". -/
def emptyInt : Int32 := -999999999

/-- The double that stands for "no value". -/
def emptyDouble : Float := -9.0e40

/-- A typed buffer. `cells` is absent when the storage has been released; when present its
type is the buffer's type. -/
structure Buffer where
  type : DataType
  shape : List Int := []
  cells : Option Cells := none
  deriving Inhabited

namespace Buffer

/-- The product of a list of dimensions. -/
def product (dims : List Int) : Int := dims.foldl (· * ·) 1

/-- A zeroed buffer of type `t` and the given shape. -/
def zeros (t : DataType) (shape : List Int) : Buffer :=
  ⟨t, shape, Cells.zeros t (product shape).toNat⟩

def ofDoubles (v : List Float) : Buffer := ⟨.double, [v.length], some (.doubles v)⟩
def ofInts (v : List Int32) : Buffer := ⟨.integer, [v.length], some (.ints v)⟩
def ofBytes (v : List UInt8) : Buffer := ⟨.char, [v.length], some (.chars v)⟩
def ofString (s : String) : Buffer := ofBytes s.toUTF8.toList
def scalarDouble (x : Float) : Buffer := ⟨.double, [], some (.doubles [x])⟩
def scalarInt (x : Int32) : Buffer := ⟨.integer, [], some (.ints [x])⟩

/-- The number of dimensions. -/
def dim (b : Buffer) : Nat := b.shape.length

/-- The number of stored elements. -/
def len (b : Buffer) : Nat :=
  match b.cells with
  | some c => c.length
  | none => 0

/-- The number of elements of one time slice: the product of all dimensions but the last. -/
def sliceLen (b : Buffer) : Int := product b.shape.dropLast

/-- Whether the storage has been handed on. -/
def released (b : Buffer) : Bool := b.cells.isNone

/-- Drops the storage and the shape. -/
def release (b : Buffer) : Buffer := { b with shape := [], cells := none }

/-- A copy. Copying an empty storage gives no storage, as copies are built by appending to
nothing. -/
def copy (b : Buffer) : Buffer :=
  { b with cells := b.cells.bind fun c => if c.length = 0 then none else some c }

/-- The elements from `lo` to `hi` as a new buffer of the given shape. -/
def span (b : Buffer) (lo hi : Nat) (shape : List Int) : Buffer :=
  { type := b.type, shape, cells := b.cells.bind fun c =>
      let part := c.extract lo hi
      if part.length = 0 then none else some part }

/-- A sub-range `[lo, hi)` of the elements, checked the way slicing checks it: both ends at
most the length and in order. -/
def checkedSpan (b : Buffer) (lo hi : Int) (shape : List Int) : Except Fault Buffer :=
  if b.type.valid then
    if lo < 0 || hi < lo || hi > b.len then .error Fault.outOfRange
    else .ok (b.span lo.toNat hi.toNat shape)
  else .ok { type := b.type, shape }

/-- Block `first` of `n` elements as a buffer of the given shape. -/
def block (b : Buffer) (first n : Int) (shape : List Int) : Except Fault Buffer :=
  if first < 0 || (first + 1) * n > b.len then
    .error (.failure (.plain ("block " ++ toString first ++ " of " ++ toString n ++
      " elements out of range (len " ++ toString b.len ++ ")")))
  else b.checkedSpan (first * n) ((first + 1) * n) shape

/-- Blocks `first` to `last` of `n` elements each, as one buffer of the given shape. -/
def blocks (b : Buffer) (first last n : Int) (shape : List Int) : Except Fault Buffer :=
  if first < 0 || last < first || (last + 1) * n > b.len then
    .error (.failure (.plain ("blocks [" ++ toString first ++ "," ++ toString last ++ "] of " ++
      toString n ++ " elements out of range (len " ++ toString b.len ++ ")")))
  else b.checkedSpan (first * n) ((last + 1) * n) shape

/-- Appends the elements of `o`, which must have the same type. Nothing appended to no
storage leaves no storage. -/
def appendData (b o : Buffer) : Except Failure Buffer :=
  if o.type ≠ b.type then
    .error (.plain ("cannot append " ++ o.type.name ++ " to " ++ b.type.name))
  else
    match b.cells, o.cells with
    | some c, some d => .ok { b with cells := (c.append? d).orElse fun _ => some c }
    | some c, none => .ok { b with cells := some c }
    | none, some d => .ok { b with cells := if d.length = 0 then none else some d }
    | none, none => .ok b

/-- Keeps the first `n` elements; more than are stored is out of range. -/
def truncate (b : Buffer) (n : Int) : Except Fault Buffer :=
  if !b.type.valid then .ok b
  else if n < 0 || n > b.len then .error Fault.outOfRange
  else .ok { b with cells := b.cells.map fun c => c.take n.toNat }

/-- The characters up to the first zero byte. -/
def text (b : Buffer) : List UInt8 :=
  match b.cells with
  | some (.chars v) => v.takeWhile (· ≠ 0)
  | _ => []

/-- Whether the buffer carries data worth writing: a scalar must not hold the "no value"
sentinel, and an array must have no empty dimension, lists of strings excepted. -/
def hasNonZeroShape (b : Buffer) : Bool :=
  if b.released then false
  else if b.shape.isEmpty then
    if b.len = 0 then false
    else match b.cells with
      | some (.ints (x :: _)) => x ≠ emptyInt
      | some (.doubles (x :: _)) => !(x == emptyDouble)
      | some (.complex (x :: _)) => !(x.re == emptyDouble && x.im == emptyDouble)
      | _ => true
  else if b.type = .char && b.shape.length > 1 then true
  else !b.shape.contains 0

end Buffer

end AccessLayer
