/-!
Cutting text at separators: before and after the first or the last occurrence of a character,
and the maximal runs of characters between separators. All work on character lists, where each
cut is a prefix and a suffix of the input.
-/
namespace AccessLayer.Text

/-- The text before and after the first occurrence of `sep`, if there is one. -/
def cutFirst (sep : Char) : List Char → Option (List Char × List Char)
  | [] => none
  | c :: rest =>
    if c = sep then some ([], rest)
    else (cutFirst sep rest).map fun (before, after) => (c :: before, after)

/-- The text before and after the last occurrence of `sep`, if there is one. -/
def cutLast (sep : Char) (cs : List Char) : Option (List Char × List Char) :=
  (cutFirst sep cs.reverse).map fun (after, before) => (before.reverse, after.reverse)

/-- The maximal nonempty runs of characters that are not separators, in order; `run` holds the
current run, reversed. -/
def fieldsFrom (isSep : Char → Bool) (run : List Char) : List Char → List (List Char)
  | [] => if run.isEmpty then [] else [run.reverse]
  | c :: rest =>
    if isSep c then
      if run.isEmpty then fieldsFrom isSep [] rest else run.reverse :: fieldsFrom isSep [] rest
    else fieldsFrom isSep (c :: run) rest

/-- The maximal nonempty runs of characters that are not separators, in order. -/
def fieldsBy (isSep : Char → Bool) (cs : List Char) : List (List Char) := fieldsFrom isSep [] cs

/-- The pieces between occurrences of `sep`; `piece` holds the current piece, reversed. -/
def splitFrom (sep : Char) (piece : List Char) : List Char → List (List Char)
  | [] => [piece.reverse]
  | c :: rest => if c = sep then piece.reverse :: splitFrom sep [] rest else splitFrom sep (c :: piece) rest

/-- The pieces between every occurrence of `sep`, empty ones included: `n` separators give
`n + 1` pieces. -/
def splitAll (sep : Char) (cs : List Char) : List (List Char) := splitFrom sep [] cs

/-- Whether `pre` is a prefix of `cs`, and the rest after it. -/
def dropPrefix? (pre : List Char) (cs : List Char) : Option (List Char) :=
  match pre, cs with
  | [], rest => some rest
  | p :: ps, c :: rest => if p = c then dropPrefix? ps rest else none
  | _ :: _, [] => none

end AccessLayer.Text
