import Mathlib
import AccessLayer.Store
/-!
Laws of keyed lists and of the store. Looking a key up after inserting or erasing another key
finds what it found before; after inserting the key itself it finds the new value, and after
erasing it finds nothing, provided the keys ascend (`Keyed.Sorted`), which every list the store
builds does.

The store is well formed (`Store.WF`) when it has its sixteen buckets and the data objects of
every entry are listed in ascending order. Committing a tree (`Store.put`) then changes exactly
one data object: it becomes the tree, or disappears when the tree is empty.
-/

namespace AccessLayer

theorem lookup_cons_ite {κ α : Type} [BEq κ] [LawfulBEq κ] [DecidableEq κ] (j k : κ) (v : α)
    (l : List (κ × α)) : ((k, v) :: l).lookup j = if j = k then some v else l.lookup j := by
  by_cases same : j = k
  · rw [same, List.lookup_cons_self, if_pos rfl]
  · have differs : (j == k) = false := beq_false_of_ne same
    rw [List.lookup_cons, differs, if_neg same]

/-- What a lookup finds is in the list. -/
theorem mem_of_lookup {κ α : Type} [BEq κ] [LawfulBEq κ] {k : κ} {v : α} :
    ∀ {l : List (κ × α)}, l.lookup k = some v → (k, v) ∈ l
  | [], found => by cases found
  | (k', v') :: rest, found => by
    rw [List.lookup_cons] at found
    cases same : k == k' with
    | true =>
      rw [same] at found
      cases found
      rw [eq_of_beq same]
      exact List.mem_cons_self
    | false =>
      rw [same] at found
      exact List.mem_cons_of_mem _ (mem_of_lookup found)

namespace Keyed

variable {α : Type}

/-! ## Looking up -/

theorem lookup_insert (k j : String) (v : α) (l : List (String × α)) :
    (insert k v l).lookup j = if j = k then some v else l.lookup j := by
  induction l with
  | nil => by_cases same : j = k <;> simp [insert, lookup_cons_ite, same]
  | cons e rest ih =>
    obtain ⟨k', v'⟩ := e
    by_cases here : k = k'
    · subst here
      by_cases same : j = k <;> simp [insert, lookup_cons_ite, same]
    · by_cases before : k < k'
      · by_cases same : j = k <;> simp [insert, lookup_cons_ite, here, before, same]
      · rw [insert, if_neg here, if_neg before]
        by_cases same : j = k
        · subst same
          simp [lookup_cons_ite, here, ih]
        · simp [lookup_cons_ite, ih, same]

theorem lookup_erase_ne {k j : String} (other : j ≠ k) (l : List (String × α)) :
    (erase k l).lookup j = l.lookup j := by
  induction l with
  | nil => rfl
  | cons e rest ih =>
    obtain ⟨k', v'⟩ := e
    by_cases here : k = k'
    · subst here
      simp [erase, lookup_cons_ite, other]
    · simp [erase, here, lookup_cons_ite, ih]

/-! ## Ascending keys -/

theorem mem_insert {k : String} {v : α} {l : List (String × α)} {e : String × α}
    (mem : e ∈ insert k v l) : e = (k, v) ∨ e ∈ l := by
  induction l with
  | nil => simpa [insert] using mem
  | cons x rest ih =>
    obtain ⟨k', v'⟩ := x
    unfold insert at mem
    split at mem
    · rcases List.mem_cons.1 mem with first | later
      · exact .inl first
      · exact .inr (List.mem_cons_of_mem _ later)
    · split at mem
      · rcases List.mem_cons.1 mem with first | later
        · exact .inl first
        · exact .inr later
      · rcases List.mem_cons.1 mem with first | later
        · exact .inr (first ▸ List.mem_cons_self)
        · rcases ih later with new | old
          · exact .inl new
          · exact .inr (List.mem_cons_of_mem _ old)

theorem erase_sublist (k : String) (l : List (String × α)) : (erase k l).Sublist l := by
  induction l with
  | nil => exact List.Sublist.refl _
  | cons x rest ih =>
    obtain ⟨k', v'⟩ := x
    unfold erase
    split
    · exact List.sublist_cons_self _ _
    · exact ih.cons_cons _

/-- Ascending keys, said of every pair and not only of neighbours. -/
theorem sorted_iff_pairwise (l : List (String × α)) :
    Sorted l ↔ l.Pairwise fun a b => a.1 < b.1 := by
  rw [← List.isChain_iff_pairwise]
  induction l with
  | nil => simp [Sorted]
  | cons x rest ih =>
    cases rest with
    | nil => simp [Sorted]
    | cons y rest' =>
      obtain ⟨a, _⟩ := x
      obtain ⟨b, w⟩ := y
      simp only [Sorted, List.isChain_cons_cons] at ih ⊢
      rw [ih]

theorem Sorted.insert {l : List (String × α)} (sorted : Sorted l) (k : String) (v : α) :
    Sorted (insert k v l) := by
  rw [sorted_iff_pairwise] at sorted ⊢
  induction l with
  | nil => simp [Keyed.insert]
  | cons x rest ih =>
    obtain ⟨k', v'⟩ := x
    obtain ⟨above, tail⟩ := List.pairwise_cons.1 sorted
    unfold Keyed.insert
    split
    · case isTrue same =>
      subst same
      exact List.pairwise_cons.2 ⟨above, tail⟩
    · split
      · case isTrue before =>
        refine List.pairwise_cons.2 ⟨fun e mem => ?_, sorted⟩
        rcases List.mem_cons.1 mem with first | later
        · rw [first]; exact before
        · exact lt_trans before (above e later)
      · case isFalse differs notBefore =>
        have after : k' < k := by
          rcases lt_trichotomy k k' with less | same | greater
          · exact absurd less notBefore
          · exact absurd same differs
          · exact greater
        refine List.pairwise_cons.2 ⟨fun e mem => ?_, ih tail⟩
        rcases mem_insert mem with new | old
        · rw [new]; exact after
        · exact above e old

/-- A key above every key listed goes at the end. -/
theorem insert_of_lt {k : String} (v : α) {l : List (String × α)} (above : ∀ e ∈ l, e.1 < k) :
    insert k v l = l ++ [(k, v)] := by
  induction l with
  | nil => rfl
  | cons x rest ih =>
    obtain ⟨k', v'⟩ := x
    have below : k' < k := above (k', v') List.mem_cons_self
    rw [insert, if_neg (ne_of_gt below), if_neg (not_lt_of_gt below),
      ih fun e mem => above e (List.mem_cons_of_mem _ mem)]
    rfl

theorem Sorted.erase {l : List (String × α)} (sorted : Sorted l) (k : String) :
    Sorted (erase k l) := by
  rw [sorted_iff_pairwise] at sorted ⊢
  exact sorted.sublist (erase_sublist k l)

/-- In ascending keys a key is listed once, so erasing it leaves nothing to find. -/
theorem lookup_erase_self {l : List (String × α)} (sorted : Sorted l) (k : String) :
    (erase k l).lookup k = none := by
  rw [sorted_iff_pairwise] at sorted
  induction l with
  | nil => rfl
  | cons x rest ih =>
    obtain ⟨k', v'⟩ := x
    obtain ⟨above, tail⟩ := List.pairwise_cons.1 sorted
    by_cases here : k = k'
    · subst here
      rw [erase, if_pos rfl, List.lookup_eq_none_iff]
      intro e mem
      simpa using (ne_of_lt (above e mem))
    · simp [erase, here, lookup_cons_ite, ih tail]

theorem lookup_erase (k j : String) {l : List (String × α)} (sorted : Sorted l) :
    (erase k l).lookup j = if j = k then none else l.lookup j := by
  by_cases same : j = k
  · rw [if_pos same, same]
    exact lookup_erase_self sorted k
  · rw [if_neg same]
    exact lookup_erase_ne same l

end Keyed

namespace Store

/-! ## Buckets -/

-- Stated by `simp only` and used by name: unfolding `modifyBucket` any other way lets Lean
-- compute the bucket index, a BLAKE3 digest of the key.
theorem buckets_modifyBucket (s : Store) (key : String)
    (f : List (String × Objects) → List (String × Objects)) :
    (s.modifyBucket key f).buckets = s.buckets.modify (bucketOf key) f := by
  simp only [modifyBucket]

theorem bucket_modifyBucket (s : Store) (key : String)
    (f : List (String × Objects) → List (String × Objects)) (key' : String)
    (inRange : bucketOf key < s.buckets.length) :
    (s.modifyBucket key f).bucket key' =
      if bucketOf key' = bucketOf key then f (s.bucket key') else s.bucket key' := by
  simp only [bucket, modifyBucket, List.getD_eq_getElem?_getD, List.getElem?_modify]
  by_cases same : bucketOf key' = bucketOf key
  · rw [if_pos same, same]
    rw [List.getElem?_eq_getElem inRange]
    simp
  · rw [if_neg same]
    cases s.buckets[bucketOf key']? <;> simp [Ne.symm same]

/-- A well-formed store: its sixteen buckets, and the data objects of every entry in ascending
order of name. -/
structure WF (s : Store) : Prop where
  length_eq : s.buckets.length = bucketCount
  sorted : ∀ b ∈ s.buckets, ∀ e ∈ b, Keyed.Sorted e.2

theorem bucketOf_lt (key : String) : bucketOf key < bucketCount := by
  unfold bucketOf
  exact Nat.mod_lt _ (by decide)

theorem WF.inRange {s : Store} (wf : s.WF) (key : String) : bucketOf key < s.buckets.length := by
  rw [wf.length_eq]
  exact bucketOf_lt key

theorem WF.sorted_of_entry {s : Store} (wf : s.WF) {key : String} {objs : Objects}
    (found : s.entry? key = some objs) : Keyed.Sorted objs := by
  have mem : (key, objs) ∈ s.bucket key := mem_of_lookup found
  have bucket_mem : s.bucket key ∈ s.buckets := by
    rw [bucket, List.getD_eq_getElem?_getD, List.getElem?_eq_getElem (wf.inRange key)]
    exact List.getElem_mem _
  exact wf.sorted _ bucket_mem _ mem

theorem sorted_of_mem_modify {bs : List (List (String × Objects))} (n : Nat)
    {f : List (String × Objects) → List (String × Objects)}
    (old : ∀ b ∈ bs, ∀ e ∈ b, Keyed.Sorted e.2)
    (keeps : ∀ b, (∀ e ∈ b, Keyed.Sorted e.2) → ∀ e ∈ f b, Keyed.Sorted e.2) :
    ∀ b ∈ bs.modify n f, ∀ e ∈ b, Keyed.Sorted e.2 := by
  intro b mem
  rw [List.mem_iff_getElem?] at mem
  obtain ⟨i, found⟩ := mem
  rw [List.getElem?_modify] at found
  cases before : bs[i]? with
  | none => rw [before] at found; cases found
  | some b₀ =>
    rw [before] at found
    have sorted := old b₀ (List.mem_of_getElem? before)
    simp only [Option.map_eq_map, Option.map_some, Option.some.injEq] at found
    rw [← found]
    split
    · exact keeps b₀ sorted
    · exact sorted

/-- Changing one bucket by a step that keeps its entries' objects sorted keeps the store well
formed. -/
theorem WF.modifyBucket {s : Store} (wf : s.WF) (key : String)
    {f : List (String × Objects) → List (String × Objects)}
    (keeps : ∀ b, (∀ e ∈ b, Keyed.Sorted e.2) → ∀ e ∈ f b, Keyed.Sorted e.2) :
    (s.modifyBucket key f).WF where
  length_eq := by rw [buckets_modifyBucket, List.length_modify]; exact wf.length_eq
  sorted := by
    rw [buckets_modifyBucket]
    exact sorted_of_mem_modify (bucketOf key) wf.sorted keeps

theorem wf_empty : ({} : Store).WF where
  length_eq := by simp [bucketCount]
  sorted b mem := by
    simp only [List.mem_replicate] at mem
    rw [mem.2]
    intro e nomem
    cases nomem

/-- Keeping an entry's objects sorted while inserting an entry with sorted objects. -/
theorem sorted_insert_entry {key : String} {objs : Objects} (sorted : Keyed.Sorted objs)
    (b : List (String × Objects)) (old : ∀ e ∈ b, Keyed.Sorted e.2) :
    ∀ e ∈ Keyed.insert key objs b, Keyed.Sorted e.2 := by
  intro e mem
  rcases Keyed.mem_insert mem with new | kept
  · rw [new]; exact sorted
  · exact old e kept

theorem WF.create {s : Store} (wf : s.WF) (key : String) (truncate : Bool) :
    (s.create key truncate).2.WF := by
  unfold Store.create
  dsimp only
  split
  · exact wf.modifyBucket key (sorted_insert_entry (show Keyed.Sorted ([] : Objects) from trivial))
  · exact wf

/-- Creating an entry afresh leaves it with no data object. -/
theorem entry?_create_truncate {s : Store} (wf : s.WF) (key : String) :
    Store.entry? (s.create key true).2 key = some [] := by
  unfold Store.create
  simp only [Bool.or_true, if_true]
  unfold entry?
  rw [bucket_modifyBucket _ _ _ _ (wf.inRange key), if_pos rfl, Keyed.lookup_insert, if_pos rfl]

theorem WF.remove {s : Store} (wf : s.WF) (key : String) : (s.remove key).2.WF :=
  wf.modifyBucket key fun _ old e mem =>
    old e ((Keyed.erase_sublist key _).subset mem)

/-! ## Committing a tree -/

/-- The objects an entry holds once `t` is committed as `name`. -/
def committed (objs : Objects) (name : String) (t : Tree) : Objects :=
  if t.isEmpty then Keyed.erase name objs else Keyed.insert name t objs

theorem put_some (s : Store) (key name : String) (t : Tree) :
    s.put key name (some t) = match s.entry? key with
      | none => .error ("data entry " ++ key ++ " not found")
      | some objs => .ok (s.modifyBucket key (Keyed.insert key (committed objs name t))) := by
  unfold put committed
  rfl

/-- A commit succeeds on an existing entry only, which it stores with the committed objects. -/
theorem eq_of_put {s s' : Store} {key name : String} {t : Tree}
    (put : s.put key name (some t) = .ok s') :
    ∃ objs, s.entry? key = some objs ∧
      s' = s.modifyBucket key (Keyed.insert key (committed objs name t)) := by
  rw [put_some] at put
  cases found : s.entry? key with
  | none => rw [found] at put; exact absurd put (by simp)
  | some objs =>
    rw [found] at put
    exact ⟨objs, rfl, (Except.ok.inj put).symm⟩

theorem entry?_of_put {s s' : Store} (wf : s.WF) {key name : String} {t : Tree}
    (put : s.put key name (some t) = .ok s') :
    ∃ objs, s.entry? key = some objs ∧ ∀ key', s'.entry? key' =
      if key' = key then some (committed objs name t) else s.entry? key' := by
  obtain ⟨objs, found, rfl⟩ := eq_of_put put
  refine ⟨objs, found, fun key' => ?_⟩
  unfold entry?
  rw [bucket_modifyBucket _ _ _ _ (wf.inRange key)]
  by_cases same : key' = key
  · rw [if_pos same, if_pos (by rw [same]), same, Keyed.lookup_insert, if_pos rfl]
  · rw [if_neg same]
    split
    · rw [Keyed.lookup_insert, if_neg same]
    · rfl

theorem WF.put {s s' : Store} (wf : s.WF) {key name : String} {t : Tree}
    (put : s.put key name (some t) = .ok s') : s'.WF := by
  obtain ⟨objs, found, rfl⟩ := eq_of_put put
  have sorted := wf.sorted_of_entry found
  refine wf.modifyBucket key (sorted_insert_entry ?_)
  unfold committed
  split
  · exact sorted.erase name
  · exact sorted.insert name t

/-- Committing a tree to a data object makes that object the tree, or removes it when the tree
is empty, and leaves every other object of every entry as it was. -/
theorem get?_of_put {s s' : Store} (wf : s.WF) {key name : String} {t : Tree}
    (put : s.put key name (some t) = .ok s') (key' name' : String) :
    s'.get? key' name' =
      if key' = key ∧ name' = name then (if t.isEmpty then none else some t)
      else s.get? key' name' := by
  obtain ⟨objs, found, entries⟩ := entry?_of_put wf put
  have sorted := wf.sorted_of_entry found
  unfold get?
  rw [entries key']
  by_cases sameKey : key' = key
  · subst sameKey
    rw [if_pos rfl, found, Option.bind_some]
    unfold committed
    by_cases sameName : name' = name
    · subst sameName
      by_cases empty : t.isEmpty <;>
        simp [empty, Keyed.lookup_erase_self sorted, Keyed.lookup_insert]
    · by_cases empty : t.isEmpty <;>
        simp [empty, sameName, Keyed.lookup_erase_ne sameName, Keyed.lookup_insert]
  · rw [if_neg sameKey, if_neg fun h => sameKey h.1]

/-- Committing a tree keeps the entries: it never makes or drops one. -/
theorem contains_of_put {s s' : Store} (wf : s.WF) {key name : String} {t : Tree}
    (put : s.put key name (some t) = .ok s') (key' : String) :
    s'.contains key' = s.contains key' := by
  obtain ⟨objs, found, entries⟩ := entry?_of_put wf put
  unfold contains
  rw [entries key']
  by_cases same : key' = key
  · rw [if_pos same, same, found]
    rfl
  · rw [if_neg same]

end Store

end AccessLayer
