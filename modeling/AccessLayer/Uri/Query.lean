import AccessLayer.Text.Cut
/-!
The query of a data entry URI: an ordered list of arguments with distinct keys. Inserting a
present key replaces its value in place, inserting a new key appends it, and erasing keeps the
order of the others. Its text joins `key=value` pairs with `;`, writing a key alone when its
value is empty; reading accepts `;` and `&` between arguments.
-/
namespace AccessLayer

/-- An ordered list of `key = value` arguments, each key at most once. -/
structure Query where
  params : List (String × String) := []
  deriving Repr, DecidableEq, Inhabited

namespace Query

/-- The value of `key`, if present. -/
def get? (q : Query) (key : String) : Option String := q.params.lookup key

/-- Whether `key` is present. -/
def contains (q : Query) (key : String) : Bool := (q.get? key).isSome

/-- The number of arguments. -/
def size (q : Query) : Nat := q.params.length

/-- The keys in order. -/
def keys (q : Query) : List String := q.params.map Prod.fst

/-- Sets `key` to `value` in a list of arguments, in place when present, else at the end. -/
def setIn (key value : String) : List (String × String) → List (String × String)
  | [] => [(key, value)]
  | (k, v) :: rest => if k = key then (k, value) :: rest else (k, v) :: setIn key value rest

/-- Sets `key` to `value`, in place when present, else at the end. -/
def insert (q : Query) (key value : String) : Query := ⟨setIn key value q.params⟩

/-- Removes the first argument with key `key`. -/
def eraseIn (key : String) : List (String × String) → List (String × String)
  | [] => []
  | (k, v) :: rest => if k = key then rest else (k, v) :: eraseIn key rest

/-- Removes `key`, keeping the order of the other arguments. -/
def erase (q : Query) (key : String) : Query := ⟨eraseIn key q.params⟩

/-- Removes `key` and tells whether it was present. -/
def remove (q : Query) (key : String) : Bool × Query := (q.contains key, q.erase key)

/-- The text of one argument. -/
def paramText (p : String × String) : String := if p.2 = "" then p.1 else p.1 ++ "=" ++ p.2

/-- The text of the query: arguments joined by `;`. -/
def render (q : Query) : String := ";".intercalate (q.params.map paramText)

/-- One argument read from its text: key and value split at the first `=`. -/
def paramOf (part : List Char) : String × String :=
  match Text.cutFirst '=' part with
  | some (k, v) => (String.ofList k, String.ofList v)
  | none => (String.ofList part, "")

/-- Reads a query text: arguments are the nonempty runs between `;` and `&`, inserted in
order, so a repeated key keeps its first position and its last value. -/
def parse (s : List Char) : Query :=
  (Text.fieldsBy (fun c => c = ';' || c = '&') s).foldl
    (fun q part => let (k, v) := paramOf part; q.insert k v) {}

end Query

end AccessLayer
