import AccessLayer.Failure
/-!
The protocol buffer wire format: varints of up to ten bytes, tags holding a field number and a
wire type, and the values of each wire type. Reading walks the fields of a message in order;
values of types a reader does not use (fixed-width words and groups) are skipped, and malformed
input is refused with the reason the format names.
-/
namespace AccessLayer.Wire

/-- Why wire-format input is refused. -/
inductive WireError where
  | truncated
  | fieldNumber
  | overflow
  | reserved
  | endGroup
  | recursion
  deriving Repr, DecidableEq

/-- The text of each reason. -/
def WireError.message : WireError → String
  | .truncated => "unexpected EOF"
  | .fieldNumber => "proto: invalid field number"
  | .overflow => "proto: variable length integer overflow"
  | .reserved => "proto: cannot parse reserved wire type"
  | .endGroup => "proto: mismatching end group marker"
  | .recursion => "proto: exceeded maximum recursion depth"

/-- A plain failure with the reason's text. -/
def WireError.failure (e : WireError) : Failure := .plain e.message

/-- Reads the remaining bytes of a varint, `shift` bits already read into `acc`. The tenth byte
must be 0 or 1. -/
def readVarintFrom (acc : Nat) : Nat → List UInt8 → Except WireError (Nat × List UInt8)
  | _, [] => .error .truncated
  | i, b :: rest =>
    let acc := acc + (b.toNat % 128) * Nat.pow 2 (7 * i)
    if i = 9 then
      if b.toNat < 2 then .ok (acc % Nat.pow 2 64, rest) else .error .overflow
    else if b.toNat < 128 then .ok (acc, rest)
    else readVarintFrom acc (i + 1) rest
termination_by _ bs => bs.length

/-- Reads a varint: its value, below `2 ^ 64`, and the rest of the input. -/
def readVarint (bs : List UInt8) : Except WireError (Nat × List UInt8) := readVarintFrom 0 0 bs

/-- The bytes of a varint. -/
def varintBytes (n : Nat) : List UInt8 :=
  if _ : n < 128 then [n.toUInt8] else (n % 128 + 128).toUInt8 :: varintBytes (n / 128)
termination_by n
decreasing_by omega

/-- The wire types. -/
def varintType : Nat := 0
def fixed64Type : Nat := 1
def bytesType : Nat := 2
def startGroupType : Nat := 3
def endGroupType : Nat := 4
def fixed32Type : Nat := 5

/-- Reads a tag: field number and wire type. Numbers below 1 or above `2 ^ 31 - 1` are
refused. -/
def readTag (bs : List UInt8) : Except WireError (Nat × Nat × List UInt8) := do
  let (v, rest) ← readVarint bs
  let num := v / 8
  if num < 1 || num > 2147483647 then .error .fieldNumber
  else .ok (num, v % 8, rest)

/-- Reads a length-delimited value. -/
def readBytes (bs : List UInt8) : Except WireError (List UInt8 × List UInt8) := do
  let (len, rest) ← readVarint bs
  if len > rest.length then .error .truncated
  else .ok (rest.take len, rest.drop len)

/-- Skips a value of a type that is not read: fixed words, and groups up to their end
marker. `fuel` bounds the number of tags read. -/
def skipValue (num typ : Nat) (depth : Nat) (bs : List UInt8) : Nat → Except WireError (List UInt8)
  | 0 => .error .truncated
  | fuel + 1 =>
    if typ = varintType then (·.2) <$> readVarint bs
    else if typ = fixed64Type then if bs.length < 8 then .error .truncated else .ok (bs.drop 8)
    else if typ = fixed32Type then if bs.length < 4 then .error .truncated else .ok (bs.drop 4)
    else if typ = bytesType then (·.2) <$> readBytes bs
    else if typ = endGroupType then .error .endGroup
    else if typ = startGroupType then
      if depth = 0 then .error .recursion
      else
        -- the members of the group, up to the end marker of the same number
        let rec members (bs : List UInt8) : Nat → Except WireError (List UInt8)
          | 0 => .error .truncated
          | f + 1 => do
            let (num2, typ2, rest) ← readTag bs
            if typ2 = endGroupType then
              if num2 = num then .ok rest else .error .endGroup
            else
              let rest ← skipValue num2 typ2 (depth - 1) rest f
              members rest f
        members bs fuel
    else .error .reserved

/-- One field of a message: its number, wire type, and its value when the type is a varint or
length-delimited (zero and nothing otherwise). -/
structure Field where
  num : Nat
  typ : Nat
  varint : Nat := 0
  bytes : List UInt8 := []
  deriving Repr, Inhabited

/-- Reads the next field of a message. -/
def readField (bs : List UInt8) : Except WireError (Field × List UInt8) := do
  let (num, typ, rest) ← readTag bs
  if typ = bytesType then
    let (v, rest) ← readBytes rest
    .ok (⟨num, typ, 0, v⟩, rest)
  else if typ = varintType then
    let (x, rest) ← readVarint rest
    .ok (⟨num, typ, x, []⟩, rest)
  else
    let rest ← skipValue num typ 10000 rest (rest.length + 1)
    .ok (⟨num, typ, 0, []⟩, rest)

/-- Folds `step` over the fields of a message, in order, reading at most `fuel` fields; the
first refusal, of the input or of a step, ends the walk. -/
def foldFieldsUpTo {σ : Type} (step : σ → Field → Except Failure σ) : Nat → σ → List UInt8 →
    Except Failure σ
  | 0, s, _ => .ok s
  | fuel + 1, s, bs =>
    if bs.isEmpty then .ok s
    else match readField bs with
      | .error e => .error e.failure
      | .ok (f, rest) => do foldFieldsUpTo step fuel (← step s f) rest

/-- Folds `step` over all fields of a message: every field takes at least one byte, so there
are no more fields than bytes. -/
def foldFields {σ : Type} (step : σ → Field → Except Failure σ) (init : σ) (bs : List UInt8) :
    Except Failure σ :=
  foldFieldsUpTo step (bs.length + 1) init bs

/-- A tag followed by the length-delimited `payload`. -/
def bytesField (num : Nat) (payload : List UInt8) : List UInt8 :=
  varintBytes (num * 8 + bytesType) ++ varintBytes payload.length ++ payload

/-- A tag followed by a varint. -/
def varintField (num : Nat) (x : Nat) : List UInt8 :=
  varintBytes (num * 8 + varintType) ++ varintBytes x

/-- A length-delimited field that is left out when `payload` is empty. -/
def packedField (num : Nat) (payload : List UInt8) : List UInt8 :=
  if payload.isEmpty then [] else bytesField num payload

end AccessLayer.Wire
