/-!
Case-insensitive comparison with fixed ASCII words. Under Unicode simple case folding the
only non-ASCII characters that fold onto ASCII letters are the Kelvin sign (onto `k`) and the
long s (onto `s`); under simple lower-casing the Kelvin sign goes to `k` and the capital I with
dot above to `i`. Comparing against an ASCII word
therefore needs no other table.
-/
namespace AccessLayer.Text

/-- The ASCII letter that `c` folds onto, or `c` itself. -/
def foldChar (c : Char) : Char :=
  if c.toNat = 0x212A then 'k'
  else if c.toNat = 0x17F then 's'
  else c.toLower

/-- The ASCII letter that `c` lower-cases onto, or `c` itself. -/
def lowerChar (c : Char) : Char :=
  if c.toNat = 0x212A then 'k' else if c.toNat = 0x130 then 'i' else c.toLower

/-- Whether `s` equals the ASCII word `word` under simple case folding. -/
def foldsTo (s word : String) : Bool :=
  s.toList.map foldChar == word.toList.map Char.toLower

/-- `s` lower-cased, for comparison with ASCII words. -/
def lowerForMatch (s : String) : String := String.ofList (s.toList.map lowerChar)

end AccessLayer.Text
