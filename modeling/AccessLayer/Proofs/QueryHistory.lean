import Mathlib
import AccessLayer.Proofs.StoreLaws
import AccessLayer.Proofs.UriPrinting
/-!
Queries as insertion-ordered maps. A query is edited by inserting a key with a value and by
removing a key (`QueryEdit`). Read against the history of its edits, a query is the
insertion-ordered finite map the history describes (`Query.Follows`): its keys are distinct, a
key holds the value of its last edit when that edit inserts it and nothing otherwise
(`lastValue`), removing a key reports whether it held a value, the number of arguments is the
number of keys that hold one, and the keys are listed in the order in which each began its
present stay, so that inserting a present key keeps its place (`presentKeys`). These are
defined on the history alone, never through the query's operations.

One edit keeps the correspondence (`Query.Follows.edit`), so every sequence of edits does
(`Query.Follows.editAll`). Reading a query text is itself such a history: the insertions of its
nonempty parts between `;` and `&`, each cut at its first `=` (`Query.parse_eq_editAll`). The
main statement is `query_follows_edit_history`.
-/

namespace AccessLayer

/-- One edit of a query. -/
inductive QueryEdit where
  | insert (key value : String)
  | remove (key : String)
  deriving DecidableEq, Repr

namespace QueryEdit

/-- The key an edit touches. -/
def key : QueryEdit → String
  | insert k _ => k
  | remove k => k

/-- The value an edit leaves its key with. -/
def value? : QueryEdit → Option String
  | insert _ v => some v
  | remove _ => none

end QueryEdit

namespace Query

/-- The query after one edit. -/
def edit (q : Query) : QueryEdit → Query
  | .insert k v => q.insert k v
  | .remove k => (q.remove k).2

/-- The query after a sequence of edits, in order. -/
def editAll (q : Query) (es : List QueryEdit) : Query := es.foldl edit q

theorem editAll_append (q : Query) (xs ys : List QueryEdit) :
    q.editAll (xs ++ ys) = (q.editAll xs).editAll ys := by
  simp [editAll, List.foldl_append]

end Query

/-! ## What a history of edits describes -/

/-- The value a history gives `k`: that of the last edit of `k`; none when this edit removes
`k`, or when no edit touches it. -/
def lastValue (h : List QueryEdit) (k : String) : Option String :=
  ((h.filter fun e => e.key = k).getLast?).bind QueryEdit.value?

/-- The key whose present stay the edit at position `i` begins: an insertion of a key that held
no value before it and is not removed after it. -/
def startedAt (h : List QueryEdit) (i : Nat) : Option String :=
  match h[i]? with
  | some (.insert k _) =>
    if lastValue (h.take i) k = none ∧ QueryEdit.remove k ∉ h.drop (i + 1) then some k else none
  | _ => none

/-- The keys that hold a value after a history, in the order in which their present stay
began. -/
def presentKeys (h : List QueryEdit) : List String :=
  (List.range h.length).filterMap (startedAt h)

/-- The number of distinct keys that hold a value after a history. -/
def presentCount (h : List QueryEdit) : Nat :=
  ((h.map QueryEdit.key).dedup.filter fun k => (lastValue h k).isSome).length

/-- A query is the insertion-ordered map a history of edits describes. -/
structure Query.Follows (q : Query) (h : List QueryEdit) : Prop where
  distinct : q.keys.Nodup
  get : ∀ k, q.get? k = lastValue h k
  removes : ∀ k, (q.remove k).1 = (lastValue h k).isSome
  size : q.size = presentCount h
  keys : q.keys = presentKeys h

@[simp] theorem lastValue_nil (k : String) : lastValue [] k = none := rfl

/-- A last edit decides its own key and leaves the others. -/
theorem lastValue_append_singleton (h : List QueryEdit) (e : QueryEdit) (k : String) :
    lastValue (h ++ [e]) k = if e.key = k then e.value? else lastValue h k := by
  unfold lastValue
  by_cases same : e.key = k <;> simp [List.filter_append, same]

/-- A key holds a value only when some edit touched it. -/
theorem mem_keys_of_lastValue {h : List QueryEdit} {k : String} (held : (lastValue h k).isSome) :
    k ∈ h.map QueryEdit.key := by
  unfold lastValue at held
  cases last : (h.filter fun e => e.key = k).getLast? with
  | none => simp [last] at held
  | some e =>
    have member := List.mem_of_getLast? last
    rw [List.mem_filter, decide_eq_true_eq] at member
    exact List.mem_map.2 ⟨e, member.1, member.2⟩

/-- The edits before position `i` of a history decide whether the edit there begins a stay;
a later edit can only end that stay, by removing its key. -/
theorem startedAt_append_of_lt {h : List QueryEdit} {i : Nat} (e : QueryEdit)
    (early : i < h.length) :
    startedAt (h ++ [e]) i = (startedAt h i).filter fun k => e ≠ .remove k := by
  have taken : (h ++ [e]).take i = h.take i := List.take_append_of_le_length (by omega)
  have dropped : (h ++ [e]).drop (i + 1) = h.drop (i + 1) ++ [e] :=
    List.drop_append_of_le_length (by omega)
  unfold startedAt
  rw [List.getElem?_append_left early, taken, dropped]
  cases h[i]? with
  | none => rfl
  | some edit =>
    cases edit with
    | insert k v =>
      simp only [List.mem_append, List.mem_singleton, not_or]
      split_ifs <;> simp_all [Option.filter, eq_comm]
    | remove k => rfl

/-- The last edit of a history begins a stay exactly when it inserts a key that held no value. -/
theorem startedAt_length (h : List QueryEdit) (e : QueryEdit) :
    startedAt (h ++ [e]) h.length =
      if e.value?.isSome ∧ lastValue h e.key = none then some e.key else none := by
  unfold startedAt
  rw [List.getElem?_append_right (Nat.le_refl _), Nat.sub_self, List.take_left]
  cases e <;> simp [QueryEdit.value?, QueryEdit.key]

/-- One more edit drops the key it removes from the present keys, and appends the key it
inserts when that key held no value. -/
theorem presentKeys_append_singleton (h : List QueryEdit) (e : QueryEdit) :
    presentKeys (h ++ [e]) = (presentKeys h).filter (fun k => e ≠ .remove k) ++
      if e.value?.isSome ∧ lastValue h e.key = none then [e.key] else [] := by
  unfold presentKeys
  rw [List.length_append, List.length_singleton, List.range_succ, List.filterMap_append,
    List.filter_filterMap]
  congr 1
  · apply List.filterMap_congr
    intro i member
    exact startedAt_append_of_lt e (List.mem_range.1 member)
  · rw [List.filterMap_cons, List.filterMap_nil, startedAt_length]
    split_ifs <;> rfl

/-! ## The arguments of a query -/

theorem isSome_lookup_iff (ps : List (String × String)) (k : String) :
    (ps.lookup k).isSome ↔ k ∈ ps.map Prod.fst := by
  induction ps with
  | nil => simp
  | cons p rest ih =>
    obtain ⟨k', v⟩ := p
    rw [lookup_cons_ite]
    by_cases same : k = k' <;> simp [same, ih]

namespace Query

/-- Setting a key changes what it holds and nothing else. -/
theorem lookup_setIn (k v : String) (ps : List (String × String)) (j : String) :
    (setIn k v ps).lookup j = if j = k then some v else ps.lookup j := by
  induction ps with
  | nil => simp [setIn, lookup_cons_ite]
  | cons p rest ih =>
    obtain ⟨k', v'⟩ := p
    by_cases same : k' = k
    · rw [setIn, if_pos same, lookup_cons_ite, lookup_cons_ite, same]
      by_cases at_k : j = k <;> simp [at_k]
    · rw [setIn, if_neg same, lookup_cons_ite, ih, lookup_cons_ite]
      by_cases at_k : j = k
      · have other : j ≠ k' := fun at_k' => same (at_k'.symm.trans at_k)
        rw [if_neg other, if_pos at_k, if_pos at_k]
      · rw [if_neg at_k, if_neg at_k]

theorem keys_eraseIn (k : String) (ps : List (String × String)) :
    (eraseIn k ps).map Prod.fst = (ps.map Prod.fst).erase k := by
  induction ps with
  | nil => rfl
  | cons p rest ih =>
    obtain ⟨k', v⟩ := p
    by_cases same : k' = k
    · simp [eraseIn, same]
    · rw [eraseIn, if_neg same, List.map_cons, List.map_cons, ih,
        List.erase_cons_tail (by simp [same])]

/-- Erasing a key of distinct keys leaves it with nothing and the others as they were. -/
theorem lookup_eraseIn {k : String} {ps : List (String × String)}
    (distinct : (ps.map Prod.fst).Nodup) (j : String) :
    (eraseIn k ps).lookup j = if j = k then none else ps.lookup j := by
  induction ps with
  | nil => simp [eraseIn]
  | cons p rest ih =>
    obtain ⟨k', v⟩ := p
    rw [List.map_cons] at distinct
    obtain ⟨fresh, restDistinct⟩ := List.nodup_cons.1 distinct
    by_cases same : k' = k
    · subst same
      rw [eraseIn, if_pos rfl]
      by_cases at_k : j = k'
      · -- distinct keys do not repeat the erased one
        subst at_k
        rw [if_pos rfl, ← Option.not_isSome_iff_eq_none, isSome_lookup_iff]
        exact fresh
      · rw [if_neg at_k, lookup_cons_ite, if_neg at_k]
    · rw [eraseIn, if_neg same, lookup_cons_ite, ih restDistinct, lookup_cons_ite]
      by_cases at_k : j = k
      · have other : j ≠ k' := fun at_k' => same (at_k'.symm.trans at_k)
        rw [if_neg other, if_pos at_k, if_pos at_k]
      · rw [if_neg at_k, if_neg at_k]

theorem contains_iff (q : Query) (k : String) : q.contains k = true ↔ k ∈ q.keys :=
  isSome_lookup_iff q.params k

theorem keys_insert (q : Query) (k v : String) :
    (q.insert k v).keys = if q.contains k then q.keys else q.keys ++ [k] := by
  have setKeys : (q.insert k v).keys = if k ∈ q.keys then q.keys else q.keys ++ [k] :=
    keys_setIn k v q.params
  rw [setKeys]
  by_cases present : q.contains k = true
  · rw [if_pos ((contains_iff q k).1 present), if_pos present]
  · rw [if_neg (fun held => present ((contains_iff q k).2 held)), if_neg present]

theorem get?_insert (q : Query) (k v j : String) :
    (q.insert k v).get? j = if j = k then some v else q.get? j :=
  lookup_setIn k v q.params j

/-- Removing a key of distinct keys keeps the order of the others. -/
theorem keys_erase {q : Query} (distinct : q.keys.Nodup) (k : String) :
    (q.erase k).keys = q.keys.filter (· != k) := by
  rw [keys, erase, keys_eraseIn, ← keys, List.Nodup.erase_eq_filter distinct]

theorem get?_erase {q : Query} (distinct : q.keys.Nodup) (k j : String) :
    (q.erase k).get? j = if j = k then none else q.get? j :=
  lookup_eraseIn distinct j

/-- An edit of a query with distinct keys decides its own key and leaves the others. -/
theorem get?_edit {q : Query} (distinct : q.keys.Nodup) (e : QueryEdit) (j : String) :
    (q.edit e).get? j = if e.key = j then e.value? else q.get? j := by
  have answer : (q.edit e).get? j = if j = e.key then e.value? else q.get? j := by
    cases e with
    | insert k v => exact get?_insert q k v j
    | remove k => exact get?_erase distinct k j
  rw [answer]
  by_cases at_key : j = e.key
  · rw [if_pos at_key, if_pos at_key.symm]
  · rw [if_neg at_key, if_neg (Ne.symm at_key)]

/-- An edit of a query with distinct keys drops the key it removes, and appends the key it
inserts when that key held no value. -/
theorem keys_edit {q : Query} (distinct : q.keys.Nodup) (e : QueryEdit) :
    (q.edit e).keys = q.keys.filter (fun k => e ≠ .remove k) ++
      if e.value?.isSome ∧ q.get? e.key = none then [e.key] else [] := by
  cases e with
  | insert k v =>
    have kept : q.keys.filter (fun k' => QueryEdit.insert k v ≠ .remove k') = q.keys :=
      List.filter_eq_self.2 (by simp)
    rw [edit, keys_insert, kept]
    cases held : q.get? k <;> simp [contains, held, QueryEdit.value?, QueryEdit.key]
  | remove k =>
    rw [edit, remove, keys_erase distinct]
    simp only [QueryEdit.value?, Option.isSome_none, Bool.false_eq_true, false_and, if_false,
      List.append_nil]
    refine List.filter_congr fun x _ => ?_
    by_cases same : x = k
    · simp [same]
    · simp [same, Ne.symm same]

/-- Edits keep the keys of a query distinct. -/
theorem nodup_keys_edit {q : Query} (distinct : q.keys.Nodup) (e : QueryEdit) :
    (q.edit e).keys.Nodup := by
  rw [keys_edit distinct]
  split
  · next fresh =>
    have absent : e.key ∉ q.keys := by
      rw [← contains_iff, contains, fresh.2]
      simp
    refine (distinct.filter _).append (List.nodup_singleton _) ?_
    exact List.disjoint_singleton.2 fun held => absent (List.mem_of_mem_filter held)
  · rw [List.append_nil]
    exact distinct.filter _

end Query

/-! ## Edits keep a query following its history -/

namespace Query.Follows

variable {q : Query} {h : List QueryEdit}

/-- Distinct keys holding the history's last values, in the history's order of stays, make a
query follow the history: what removal reports and how many arguments there are follow. -/
theorem of_keys (distinct : q.keys.Nodup) (get : ∀ k, q.get? k = lastValue h k)
    (keys : q.keys = presentKeys h) : q.Follows h where
  distinct := distinct
  get := get
  removes k := by rw [Query.remove, Query.contains, get]
  size := by
    -- the keys are the distinct edited keys that hold a value, in another order
    have same : q.keys.Perm ((h.map QueryEdit.key).dedup.filter fun k => (lastValue h k).isSome) := by
      rw [List.perm_ext_iff_of_nodup distinct ((List.nodup_dedup _).filter _)]
      intro k
      rw [List.mem_filter, List.mem_dedup, ← Query.contains_iff, Query.contains, get]
      exact ⟨fun held => ⟨mem_keys_of_lastValue held, held⟩, fun held => held.2⟩
    rw [presentCount, ← same.length_eq, Query.keys, List.length_map]
    rfl
  keys := keys

theorem empty : ({} : Query).Follows [] := of_keys List.nodup_nil (fun _ => rfl) rfl

/-- One edit keeps a query following its history: the query and the history change their keys
and values by the same rule. -/
theorem edit (follows : q.Follows h) (e : QueryEdit) : (q.edit e).Follows (h ++ [e]) := by
  refine of_keys (Query.nodup_keys_edit follows.distinct e) (fun j => ?_) ?_
  · rw [Query.get?_edit follows.distinct, lastValue_append_singleton, follows.get]
  · rw [Query.keys_edit follows.distinct, presentKeys_append_singleton, follows.keys, follows.get]

/-- Every sequence of edits keeps a query following its history. -/
theorem editAll (follows : q.Follows h) (es : List QueryEdit) :
    (q.editAll es).Follows (h ++ es) := by
  induction es generalizing q h with
  | nil => simpa [Query.editAll] using follows
  | cons e es ih =>
    have next := ih (follows.edit e)
    rwa [List.append_assoc, List.singleton_append] at next

end Query.Follows

/-! ## Reading a query text is a history of insertions -/

namespace Text

/-- The fields of a text are its nonempty pieces between separators. -/
theorem fieldsFrom_eq_splitOnPPrepend (isSep : Char → Bool) (run cs : List Char) :
    fieldsFrom isSep run cs = (cs.splitOnPPrepend isSep run).filter (· ≠ []) := by
  induction cs generalizing run with
  | nil => cases run <;> simp [fieldsFrom, List.splitOnPPrepend]
  | cons c rest ih =>
    by_cases cut : isSep c = true
    · cases run <;> simp [fieldsFrom, List.splitOnPPrepend, cut, ih]
    · simp [fieldsFrom, List.splitOnPPrepend, cut, ih]

theorem fieldsBy_eq_splitOnP (isSep : Char → Bool) (cs : List Char) :
    fieldsBy isSep cs = (cs.splitOnP isSep).filter (· ≠ []) :=
  fieldsFrom_eq_splitOnPPrepend isSep [] cs

/-- The first `sep` cuts a text into what comes before it and what comes after it. -/
theorem cutFirst_eq_takeWhile (sep : Char) (cs : List Char) :
    cutFirst sep cs =
      if sep ∈ cs then some (cs.takeWhile (· ≠ sep), (cs.dropWhile (· ≠ sep)).drop 1)
      else none := by
  induction cs with
  | nil => rfl
  | cons c rest ih =>
    by_cases same : c = sep
    · simp [cutFirst, same]
    · rw [cutFirst, if_neg same, ih]
      by_cases found : sep ∈ rest
      · simp [found, same]
      · simp [found, Ne.symm same]

end Text

/-- One argument read from its text: the key up to the first `=`, the value after it, and the
whole text as the key with an empty value when there is no `=`. -/
theorem Query.paramOf_eq (part : List Char) :
    Query.paramOf part = (String.ofList (part.takeWhile (· ≠ '=')),
      String.ofList ((part.dropWhile (· ≠ '=')).drop 1)) := by
  rw [Query.paramOf, Text.cutFirst_eq_takeWhile]
  split_ifs with found
  · rfl
  · have clean : ∀ c ∈ part, decide (c ≠ '=') = true := fun c held => by
      simpa using fun (same : c = '=') => found (same ▸ held)
    rw [List.takeWhile_eq_self_iff.2 clean, List.dropWhile_eq_nil_iff.2 clean]
    rfl

/-- The insertions a query text stands for: one for each nonempty part between `;` and `&`,
with the part up to its first `=` as key and what follows that `=` as value, empty when there is
none. -/
def parseEdits (s : List Char) : List QueryEdit :=
  ((s.splitOnP fun c => c = ';' || c = '&').filter (· ≠ [])).map fun part =>
    .insert (String.ofList (part.takeWhile (· ≠ '=')))
      (String.ofList ((part.dropWhile (· ≠ '=')).drop 1))

/-- Reading a query text inserts its parts, in order, into the empty query. -/
theorem Query.parse_eq_editAll (s : List Char) :
    Query.parse s = ({} : Query).editAll (parseEdits s) := by
  rw [Query.parse, Text.fieldsBy_eq_splitOnP, parseEdits, Query.editAll, List.foldl_map]
  congr 1
  funext q part
  rw [Query.paramOf_eq]
  rfl

/-- A query is an insertion-ordered finite map. Reading a text inserts the text's parts in order
into the empty query; and the empty query after any edits, or a query read from a text after any
edits, is the map described by the history of its edits: keys distinct, each holding the value
of its last edit when that inserts it, removal reporting whether the key held a value, as many
arguments as keys holding one, and keys in the order in which their present stay began. -/
theorem query_follows_edit_history (s : List Char) (edits : List QueryEdit) :
    Query.parse s = ({} : Query).editAll (parseEdits s) ∧
      (({} : Query).editAll edits).Follows edits ∧
      ((Query.parse s).editAll edits).Follows (parseEdits s ++ edits) := by
  have parsed := Query.parse_eq_editAll s
  have fromEmpty := Query.Follows.empty.editAll edits
  have fromText := Query.Follows.empty.editAll (parseEdits s ++ edits)
  rw [List.nil_append] at fromEmpty fromText
  refine ⟨parsed, fromEmpty, ?_⟩
  rwa [parsed, ← Query.editAll_append]

/-- A key removed and inserted again moves to the end; a key inserted while present stays. -/
example : ((Query.parse "a=1;b=2&a=3".toList).editAll
    [.remove "a", .insert "a" "4", .insert "b" "5"]).params = [("b", "5"), ("a", "4")] := by
  decide

end AccessLayer
