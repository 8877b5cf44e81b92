/-!
Association lists in ascending key order, each key at most once. Inserting a key replaces its
value or puts it in its place; erasing removes it. Keys are text, ordered by code point, which
is also the order of their UTF-8 bytes.
-/
namespace AccessLayer.Keyed

/-- Puts `k ↦ v` in an ascending list, replacing the value of `k` if present. -/
def insert {α : Type} (k : String) (v : α) : List (String × α) → List (String × α)
  | [] => [(k, v)]
  | (k', v') :: rest =>
    if k = k' then (k, v) :: rest
    else if k < k' then (k, v) :: (k', v') :: rest
    else (k', v') :: insert k v rest

/-- Removes `k`. -/
def erase {α : Type} (k : String) : List (String × α) → List (String × α)
  | [] => []
  | (k', v') :: rest => if k = k' then rest else (k', v') :: erase k rest

/-- Whether the keys ascend strictly. -/
def Sorted {α : Type} : List (String × α) → Prop
  | [] => True
  | [_] => True
  | (a, _) :: (b, v) :: rest => a < b ∧ Sorted ((b, v) :: rest)

end AccessLayer.Keyed
