/-!
Reading UTF-8 bytes as text. A well-formed sequence (no overlong form, no surrogate, nothing
above U+10FFFF) gives its character; every byte that does not start one gives a replacement
character of its own.
-/
namespace AccessLayer.Text

/-- Whether `b` is a continuation byte `10xxxxxx`. -/
def isContinuation (b : UInt8) : Bool := b &&& 0xC0 == 0x80

/-- The replacement character. -/
def replacement : Char := Char.ofNat 0xFFFD

/-- The character of a multi-byte sequence with lead byte `n` and the continuation bytes it
takes from `rest`, when the sequence is well formed. -/
def multiByte (n : Nat) (rest : List UInt8) : Option (Char × Nat) :=
  match rest with
  | c :: more =>
    if 0xC2 ≤ n && n ≤ 0xDF then
      if isContinuation c then some (Char.ofNat ((n % 32) * 64 + c.toNat % 64), 1) else none
    else
      let lo := if n = 0xE0 then 0xA0 else if n = 0xF0 then 0x90 else 0x80
      let hi := if n = 0xED then 0x9F else if n = 0xF4 then 0x8F else 0xBF
      if !(lo ≤ c.toNat && c.toNat ≤ hi) then none
      else match more with
        | d :: more' =>
          if !isContinuation d then none
          else if 0xE0 ≤ n && n ≤ 0xEF then
            some (Char.ofNat ((n % 16) * 4096 + (c.toNat % 64) * 64 + d.toNat % 64), 2)
          else if 0xF0 ≤ n && n ≤ 0xF4 then
            match more' with
            | e :: _ =>
              if isContinuation e then
                some (Char.ofNat ((n % 8) * 262144 + (c.toNat % 64) * 4096 + (d.toNat % 64) * 64 +
                  e.toNat % 64), 3)
              else none
            | [] => none
          else none
        | [] => none
  | [] => none

/-- Decodes bytes, replacing each byte that does not start a well-formed sequence. -/
def decodeLossy : List UInt8 → List Char
  | [] => []
  | b :: rest =>
    if b.toNat < 0x80 then Char.ofNat b.toNat :: decodeLossy rest
    else match multiByte b.toNat rest with
      | some (ch, k) => ch :: decodeLossy (rest.drop k)
      | none => replacement :: decodeLossy rest
termination_by bs => bs.length
decreasing_by all_goals (simp; try omega)

/-- Bytes read as text, each malformed byte replaced. -/
def stringOfBytes (bytes : List UInt8) : String := String.ofList (decodeLossy bytes)

end AccessLayer.Text
