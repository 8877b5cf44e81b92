import Mathlib
import AccessLayer.Proofs.StoreLaws
/-!
The partitioned store refines one finite map. Its meaning is a `Catalog`, a finite map from
entry keys to the data objects of each entry, themselves a finite map from names to trees, with
no buckets. Every store operation answers what the same operation answers on the catalog and
changes the store as the operation changes the catalog (`Refines.perform`), so a run of
operations from the empty store answers as the same run from the empty catalog
(`store_refines_catalog`).

`Refines` says that each entry is kept only in the bucket its key hashes to, that each bucket
lists its keys in ascending order, and that the entry found under a key holds the catalog's
objects. The digest decides only which bucket keeps an entry: no proof here uses a property of
it beyond its being a function of the key below the number of buckets. Listing the keys merges
the sixteen buckets, which hold each key at most once and in one bucket only, so the merged
list has no duplicates and, sorted, is the catalog's sorted keys.
-/

namespace AccessLayer

/-- The meaning of the store: one finite map from entry keys to the data objects of each entry,
by name. -/
abbrev Catalog := Finmap fun _ : String => Finmap fun _ : String => Tree

/-- The data objects of an entry as a finite map from names to trees. -/
def objectsView (objs : Objects) : Finmap fun _ : String => Tree :=
  (objs.map fun p => (⟨p.1, p.2⟩ : Σ _ : String, Tree)).toFinmap

namespace Catalog

/-- Whether an entry exists. -/
def contains (M : Catalog) (key : String) : Bool := decide (key ∈ M)

/-- Makes an entry with no data object when it is absent or `truncate` is set, and tells whether
it existed. -/
def create (M : Catalog) (key : String) (truncate : Bool) : Bool × Catalog :=
  (M.contains key, if !M.contains key || truncate then M.insert key ∅ else M)

/-- Drops an entry, and tells whether it existed. -/
def remove (M : Catalog) (key : String) : Bool × Catalog := (M.contains key, M.erase key)

/-- The tree of a data object. -/
def get? (M : Catalog) (key object : String) : Option Tree :=
  (M.lookup key).bind fun objs => objs.lookup object

/-- Sets a data object of an existing entry to a tree, or deletes it when there is no tree or
the tree is empty; fails when the entry is absent. -/
def put (M : Catalog) (key object : String) (t : Option Tree) : Except String Catalog :=
  match M.lookup key with
  | none => .error ("data entry " ++ key ++ " not found")
  | some objs => .ok (M.insert key (match t with
      | some tree => if tree.isEmpty then objs.erase object else objs.insert object tree
      | none => objs.erase object))

/-- The sorted names of the data objects of an entry; none for an absent entry. -/
def objects (M : Catalog) (key : String) : List String :=
  match M.lookup key with
  | some objs => objs.keys.sort (· ≤ ·)
  | none => []

/-- The sorted keys of all entries. -/
def keys (M : Catalog) : List String := (Finmap.keys M).sort (· ≤ ·)

end Catalog

/-- The operations of the store. -/
inductive StoreCall where
  | contains (key : String)
  | create (key : String) (truncate : Bool)
  | remove (key : String)
  | get (key object : String)
  | put (key object : String) (tree : Option Tree)
  | objects (key : String)
  | keys

/-- What an operation of the store answers. -/
inductive StoreAnswer where
  | flag (b : Bool)
  | tree (t : Option Tree)
  | stored (r : Except String Unit)
  | names (ns : List String)

/-- One operation on the store: its answer and the store after it. A failed commit leaves the
store as it was. -/
def Store.perform (s : Store) : StoreCall → StoreAnswer × Store
  | .contains key => (.flag (s.contains key), s)
  | .create key truncate => ((.flag (s.create key truncate).1), (s.create key truncate).2)
  | .remove key => (.flag (s.remove key).1, (s.remove key).2)
  | .get key object => (.tree (s.get? key object), s)
  | .put key object t =>
    match s.put key object t with
    | .ok s' => (.stored (.ok ()), s')
    | .error m => (.stored (.error m), s)
  | .objects key => (.names (s.objects key), s)
  | .keys => (.names s.keys, s)

/-- One operation on the catalog: its answer and the catalog after it. -/
def Catalog.perform (M : Catalog) : StoreCall → StoreAnswer × Catalog
  | .contains key => (.flag (M.contains key), M)
  | .create key truncate => ((.flag (M.create key truncate).1), (M.create key truncate).2)
  | .remove key => (.flag (M.remove key).1, (M.remove key).2)
  | .get key object => (.tree (M.get? key object), M)
  | .put key object t =>
    match M.put key object t with
    | .ok M' => (.stored (.ok ()), M')
    | .error m => (.stored (.error m), M)
  | .objects key => (.names (M.objects key), M)
  | .keys => (.names M.keys, M)

/-- A run of operations: their answers in order and the final state. -/
def runCalls {σ : Type} (perform : σ → StoreCall → StoreAnswer × σ) (s : σ) :
    List StoreCall → List StoreAnswer × σ
  | [] => ([], s)
  | c :: cs =>
    let (answers, final) := runCalls perform (perform s c).2 cs
    ((perform s c).1 :: answers, final)

/-- Every entry is kept in the bucket its key hashes to. -/
def Store.Placed (s : Store) : Prop := ∀ i, ∀ e ∈ s.buckets.getD i [], bucketOf e.1 = i

/-- The store stands for the catalog: its buckets are well formed, each entry is kept only in the
bucket of its key, each bucket lists its keys in ascending order, and the entry under each key
holds the catalog's objects. -/
structure Refines (s : Store) (M : Catalog) : Prop where
  wf : s.WF
  placed : s.Placed
  ascending : ∀ b ∈ s.buckets, Keyed.Sorted b
  entries : ∀ key, (s.entry? key).map objectsView = M.lookup key

/-! ## The objects of an entry as a finite map -/

theorem isSome_lookup {α : Type} (l : List (String × α)) (k : String) :
    (l.lookup k).isSome ↔ k ∈ l.map Prod.fst := by
  induction l with
  | nil => simp
  | cons e rest ih =>
    obtain ⟨k', v'⟩ := e
    by_cases same : k = k' <;> simp [lookup_cons_ite, same, ih]

theorem lookup_objectsView (objs : Objects) (name : String) :
    (objectsView objs).lookup name = objs.lookup name := by
  unfold objectsView
  rw [Finmap.dlookup_list_toFinmap]
  induction objs with
  | nil => rfl
  | cons e rest ih =>
    obtain ⟨k, v⟩ := e
    by_cases same : name = k
    · subst same
      rw [List.map_cons, List.dlookup_cons_eq, lookup_cons_ite, if_pos rfl]
    · rw [List.map_cons, List.dlookup_cons_ne _ _ same, ih, lookup_cons_ite, if_neg same]

theorem objectsView_nil : objectsView [] = ∅ := Finmap.toFinmap_nil

theorem objectsView_insert (name : String) (t : Tree) (objs : Objects) :
    objectsView (Keyed.insert name t objs) = (objectsView objs).insert name t := by
  refine Finmap.ext_lookup fun name' => ?_
  rw [lookup_objectsView, Keyed.lookup_insert]
  by_cases same : name' = name
  · subst same
    rw [if_pos rfl, Finmap.lookup_insert]
  · rw [if_neg same, Finmap.lookup_insert_of_ne _ same, lookup_objectsView]

theorem objectsView_erase {objs : Objects} (sorted : Keyed.Sorted objs) (name : String) :
    objectsView (Keyed.erase name objs) = (objectsView objs).erase name := by
  refine Finmap.ext_lookup fun name' => ?_
  rw [lookup_objectsView, Keyed.lookup_erase name name' sorted]
  by_cases same : name' = name
  · subst same
    rw [if_pos rfl, Finmap.lookup_erase]
  · rw [if_neg same, Finmap.lookup_erase_ne same, lookup_objectsView]

/-- Ascending names, sorted again from the finite map, come back as they were. -/
theorem sort_keys_objectsView {objs : Objects} (sorted : Keyed.Sorted objs) :
    (objectsView objs).keys.sort (· ≤ ·) = objs.map Prod.fst := by
  have ascending : (objs.map Prod.fst).Pairwise (· < ·) :=
    List.pairwise_map.mpr ((Keyed.sorted_iff_pairwise objs).mp sorted)
  have sameKeys : (objectsView objs).keys = (objs.map Prod.fst).toFinset := by
    ext name
    rw [Finmap.mem_keys, ← Finmap.lookup_isSome, lookup_objectsView, isSome_lookup,
      List.mem_toFinset]
  rw [sameKeys]
  exact (List.toFinset_sort _ ascending.nodup).mpr (ascending.imp le_of_lt)

/-! ## Buckets -/

namespace Store

theorem getD_modify {α : Type} (bs : List (List α)) {n : Nat} (f : List α → List α)
    (inRange : n < bs.length) (i : Nat) :
    (bs.modify n f).getD i [] = if i = n then f (bs.getD i []) else bs.getD i [] := by
  simp only [List.getD_eq_getElem?_getD, List.getElem?_modify]
  by_cases same : i = n
  · subst same
    rw [if_pos rfl, List.getElem?_eq_getElem inRange]
    simp
  · rw [if_neg same]
    cases bs[i]? <;> simp [Ne.symm same]

theorem bucket_mem {s : Store} (wf : s.WF) (key : String) : s.bucket key ∈ s.buckets := by
  rw [bucket, List.getD_eq_getElem?_getD, List.getElem?_eq_getElem (wf.inRange key)]
  exact List.getElem_mem _

/-- Changing the bucket of `key` by a step that adds no entry but `key`'s keeps every entry in
its own bucket. -/
theorem Placed.modifyBucket {s : Store} (placed : s.Placed) (wf : s.WF) (key : String)
    {f : List (String × Objects) → List (String × Objects)}
    (adds : ∀ b, ∀ e ∈ f b, e.1 = key ∨ e ∈ b) : (s.modifyBucket key f).Placed := by
  intro i e mem
  rw [buckets_modifyBucket, getD_modify _ f (wf.inRange key)] at mem
  split at mem
  · case isTrue here =>
    rcases adds _ e mem with new | old
    · rw [new, here]
    · exact placed i e old
  · exact placed i e mem

theorem ascending_modify {bs : List (List (String × Objects))} (n : Nat)
    {f : List (String × Objects) → List (String × Objects)}
    (ascending : ∀ b ∈ bs, Keyed.Sorted b) (keeps : ∀ b, Keyed.Sorted b → Keyed.Sorted (f b)) :
    ∀ b ∈ bs.modify n f, Keyed.Sorted b := by
  intro b mem
  obtain ⟨i, found⟩ := List.mem_iff_getElem?.mp mem
  rw [List.getElem?_modify] at found
  cases before : bs[i]? with
  | none => rw [before] at found; cases found
  | some b₀ =>
    rw [before] at found
    simp only [Option.map_eq_map, Option.map_some, Option.some.injEq] at found
    rw [← found]
    have sorted := ascending b₀ (List.mem_of_getElem? before)
    split
    · exact keeps b₀ sorted
    · exact sorted

theorem entry?_modifyBucket_insert {s : Store} (wf : s.WF) (key k : String) (objs : Objects) :
    Store.entry? (s.modifyBucket key (Keyed.insert key objs)) k =
      if k = key then some objs else s.entry? k := by
  unfold entry?
  rw [bucket_modifyBucket _ _ _ _ (wf.inRange key)]
  by_cases same : k = key
  · rw [if_pos (by rw [same]), same, Keyed.lookup_insert, if_pos rfl]
  · rw [if_neg same]
    split
    · rw [Keyed.lookup_insert, if_neg same]
    · rfl

theorem entry?_modifyBucket_erase {s : Store} (wf : s.WF) (ascending : ∀ b ∈ s.buckets, Keyed.Sorted b)
    (key k : String) :
    Store.entry? (s.modifyBucket key (Keyed.erase key)) k = if k = key then none else s.entry? k := by
  unfold entry?
  rw [bucket_modifyBucket _ _ _ _ (wf.inRange key)]
  by_cases same : k = key
  · rw [if_pos (by rw [same]), same, Keyed.lookup_erase key key (ascending _ (bucket_mem wf key)),
      if_pos rfl]
  · rw [if_neg same]
    split
    · rw [Keyed.lookup_erase_ne same]
    · rfl

end Store

/-! ## One operation -/

namespace Refines

variable {s : Store} {M : Catalog}

theorem contains_eq (refines : Refines s M) (key : String) : s.contains key = M.contains key := by
  have member : key ∈ M ↔ (s.entry? key).isSome := by
    rw [← Finmap.lookup_isSome, ← refines.entries key, Option.isSome_map]
  simp [Store.contains, Catalog.contains, member]

/-- Putting an entry with ascending objects in the bucket of its key stands for inserting its
objects in the catalog. -/
theorem insertEntry (refines : Refines s M) (key : String) {objs : Objects}
    (sorted : Keyed.Sorted objs) :
    Refines (s.modifyBucket key (Keyed.insert key objs)) (M.insert key (objectsView objs)) where
  wf := refines.wf.modifyBucket key (Store.sorted_insert_entry sorted)
  placed := refines.placed.modifyBucket refines.wf key fun _ _ mem =>
    (Keyed.mem_insert mem).imp (fun new => by rw [new]) id
  ascending := by
    rw [Store.buckets_modifyBucket]
    exact Store.ascending_modify _ refines.ascending fun b sorted => sorted.insert key objs
  entries k := by
    rw [Store.entry?_modifyBucket_insert refines.wf]
    by_cases same : k = key
    · subst same
      rw [if_pos rfl, Finmap.lookup_insert]
      rfl
    · rw [if_neg same, Finmap.lookup_insert_of_ne _ same, refines.entries k]

/-- Dropping the entry of a key from its bucket stands for erasing it from the catalog. -/
theorem eraseEntry (refines : Refines s M) (key : String) :
    Refines (s.modifyBucket key (Keyed.erase key)) (M.erase key) where
  wf := refines.wf.remove key
  placed := refines.placed.modifyBucket refines.wf key fun b _ mem =>
    .inr ((Keyed.erase_sublist key b).subset mem)
  ascending := by
    rw [Store.buckets_modifyBucket]
    exact Store.ascending_modify _ refines.ascending fun b sorted => sorted.erase key
  entries k := by
    rw [Store.entry?_modifyBucket_erase refines.wf refines.ascending]
    by_cases same : k = key
    · subst same
      rw [if_pos rfl, Finmap.lookup_erase]
      rfl
    · rw [if_neg same, Finmap.lookup_erase_ne same, refines.entries k]

theorem create (refines : Refines s M) (key : String) (truncate : Bool) :
    (s.create key truncate).1 = (M.create key truncate).1 ∧
      Refines (s.create key truncate).2 (M.create key truncate).2 := by
  unfold Store.create Catalog.create
  dsimp only
  rw [refines.contains_eq key]
  by_cases fresh : (!M.contains key || truncate) = true
  · rw [if_pos fresh, if_pos fresh, ← objectsView_nil]
    exact ⟨rfl, refines.insertEntry key (show Keyed.Sorted ([] : Objects) from trivial)⟩
  · rw [if_neg fresh, if_neg fresh]
    exact ⟨rfl, refines⟩

theorem remove (refines : Refines s M) (key : String) :
    (s.remove key).1 = (M.remove key).1 ∧ Refines (s.remove key).2 (M.remove key).2 :=
  ⟨refines.contains_eq key, refines.eraseEntry key⟩

theorem get?_eq (refines : Refines s M) (key object : String) :
    s.get? key object = M.get? key object := by
  unfold Store.get? Catalog.get?
  rw [← refines.entries key]
  cases s.entry? key with
  | none => rfl
  | some objs => exact (lookup_objectsView objs object).symm

/-- A commit fails exactly when the entry is absent, with the same message, and otherwise stands
for the catalog's commit: the object set to the tree, or deleted for no tree or an empty one. -/
theorem put (refines : Refines s M) (key object : String) (t : Option Tree) :
    (match s.put key object t, M.put key object t with
      | .error m, .error m' => m = m' ∧ Refines s M
      | .ok s', .ok M' => Refines s' M'
      | _, _ => False) := by
  have same := refines.entries key
  unfold Store.put Catalog.put
  cases found : s.entry? key with
  | none =>
    rw [found, Option.map_none] at same
    rw [← same]
    exact ⟨rfl, refines⟩
  | some objs =>
    rw [found, Option.map_some] at same
    rw [← same]
    have sorted := refines.wf.sorted_of_entry found
    dsimp only
    cases t with
    | none =>
      rw [← objectsView_erase sorted]
      exact refines.insertEntry key (sorted.erase object)
    | some tree =>
      dsimp only
      by_cases empty : tree.isEmpty = true
      · rw [if_pos empty, if_pos empty, ← objectsView_erase sorted]
        exact refines.insertEntry key (sorted.erase object)
      · rw [if_neg empty, if_neg empty, ← objectsView_insert]
        exact refines.insertEntry key (sorted.insert object tree)

theorem objects_eq (refines : Refines s M) (key : String) : s.objects key = M.objects key := by
  unfold Store.objects Catalog.objects
  rw [← refines.entries key]
  cases found : s.entry? key with
  | none => rfl
  | some objs => exact (sort_keys_objectsView (refines.wf.sorted_of_entry found)).symm

/-! ## Listing the keys -/

/-- The keys kept in the buckets are the catalog's keys: a key is found in the bucket of its
hash, and only there. -/
theorem mem_bucketKeys (refines : Refines s M) (key : String) :
    key ∈ s.buckets.flatMap (fun b => b.map Prod.fst) ↔ key ∈ M := by
  rw [← Finmap.lookup_isSome, ← refines.entries key, Option.isSome_map, Store.entry?,
    isSome_lookup, List.mem_flatMap]
  constructor
  · rintro ⟨b, mem, keyIn⟩
    obtain ⟨i, within, rfl⟩ := List.getElem_of_mem mem
    obtain ⟨e, eIn, rfl⟩ := List.mem_map.mp keyIn
    have placedHere : bucketOf e.1 = i := refines.placed i e (by
      rw [List.getD_eq_getElem?_getD, List.getElem?_eq_getElem within]
      exact eIn)
    rw [Store.bucket, placedHere, List.getD_eq_getElem?_getD, List.getElem?_eq_getElem within]
    exact keyIn
  · intro keyIn
    exact ⟨s.bucket key, Store.bucket_mem refines.wf key, keyIn⟩

theorem bucketKeys_nodup (refines : Refines s M) :
    (s.buckets.flatMap fun b => b.map Prod.fst).Nodup := by
  rw [List.nodup_flatMap]
  refine ⟨fun b mem => ?_, ?_⟩
  · -- ascending keys of one bucket
    exact (List.pairwise_map.mpr ((Keyed.sorted_iff_pairwise b).mp (refines.ascending b mem))).nodup
  · -- two buckets share no key, as each key is kept in the bucket of its hash
    rw [List.pairwise_iff_getElem]
    intro i j hi hj before key inI inJ
    have hashI : ∀ e ∈ s.buckets[i], bucketOf e.1 = i := fun e mem => refines.placed i e (by
      rw [List.getD_eq_getElem?_getD, List.getElem?_eq_getElem hi]
      exact mem)
    have hashJ : ∀ e ∈ s.buckets[j], bucketOf e.1 = j := fun e mem => refines.placed j e (by
      rw [List.getD_eq_getElem?_getD, List.getElem?_eq_getElem hj]
      exact mem)
    obtain ⟨e, eIn, rfl⟩ := List.mem_map.mp inI
    obtain ⟨e', e'In, same⟩ := List.mem_map.mp inJ
    have atI := hashI e eIn
    have atJ := hashJ e' e'In
    rw [same] at atJ
    omega

theorem keys_nodup (refines : Refines s M) : s.keys.Nodup :=
  (List.mergeSort_perm _ _).nodup_iff.mpr refines.bucketKeys_nodup

theorem keys_eq (refines : Refines s M) : s.keys = M.keys := by
  have nodup := refines.bucketKeys_nodup
  have sameKeys : Finmap.keys M = (s.buckets.flatMap fun b => b.map Prod.fst).toFinset := by
    ext key
    rw [Finmap.mem_keys, List.mem_toFinset, refines.mem_bucketKeys]
  unfold Store.keys Catalog.keys
  rw [sameKeys]
  refine List.Perm.eq_of_pairwise' (List.pairwise_mergeSort' (· ≤ ·) _) (Finset.pairwise_sort _ _) ?_
  exact (List.mergeSort_perm _ _).trans
    ((Finset.sort_perm_toList _ _).trans (List.toFinset_toList nodup)).symm

/-- The step lemma: each operation answers on the store what it answers on the catalog, and
the states after it still correspond. -/
theorem perform (refines : Refines s M) (c : StoreCall) :
    (s.perform c).1 = (M.perform c).1 ∧ Refines (s.perform c).2 (M.perform c).2 := by
  cases c with
  | contains key => exact ⟨by simp [Store.perform, Catalog.perform, refines.contains_eq], refines⟩
  | create key truncate =>
    obtain ⟨answer, next⟩ := refines.create key truncate
    exact ⟨by simp [Store.perform, Catalog.perform, answer], next⟩
  | remove key =>
    obtain ⟨answer, next⟩ := refines.remove key
    exact ⟨by simp [Store.perform, Catalog.perform, answer], next⟩
  | get key object => exact ⟨by simp [Store.perform, Catalog.perform, refines.get?_eq], refines⟩
  | put key object t =>
    have committed := refines.put key object t
    simp only [Store.perform, Catalog.perform]
    split at committed
    · case _ m m' failed failed' =>
      obtain ⟨rfl, kept⟩ := committed
      rw [failed, failed']
      exact ⟨rfl, kept⟩
    · case _ s' M' stored stored' =>
      rw [stored, stored']
      exact ⟨rfl, committed⟩
    · cases committed
  | objects key => exact ⟨by simp [Store.perform, Catalog.perform, refines.objects_eq], refines⟩
  | keys => exact ⟨by simp [Store.perform, Catalog.perform, refines.keys_eq], refines⟩

/-- The run lemma, by induction on the operations. -/
theorem runCalls (refines : Refines s M) (calls : List StoreCall) :
    (AccessLayer.runCalls Store.perform s calls).1 = (AccessLayer.runCalls Catalog.perform M calls).1 ∧
      Refines (AccessLayer.runCalls Store.perform s calls).2
        (AccessLayer.runCalls Catalog.perform M calls).2 := by
  induction calls generalizing s M with
  | nil => exact ⟨rfl, refines⟩
  | cons c rest ih =>
    obtain ⟨answer, next⟩ := refines.perform c
    obtain ⟨answers, final⟩ := ih next
    simp only [AccessLayer.runCalls]
    exact ⟨by rw [answer, answers], final⟩

end Refines

theorem refines_empty : Refines {} ∅ where
  wf := Store.wf_empty
  placed i e mem := by
    rw [List.getD_eq_getElem?_getD, List.getElem?_replicate] at mem
    split at mem <;> simp at mem
  ascending b mem := by
    rw [List.mem_replicate] at mem
    rw [mem.2]
    trivial
  entries key := by
    have empty : ({} : Store).bucket key = [] := by
      rw [Store.bucket, List.getD_eq_getElem?_getD, List.getElem?_replicate,
        if_pos (Store.bucketOf_lt key)]
      rfl
    rw [Finmap.lookup_empty, Store.entry?, empty]
    rfl

/-- The partitioned store behaves as one finite map. From the empty store, every run of
operations answers, operation by operation, what the same run answers on the empty catalog; after
it every entry is kept only in the bucket its key hashes to, and the listed keys have no
duplicate. -/
theorem store_refines_catalog (calls : List StoreCall) :
    (runCalls Store.perform {} calls).1 = (runCalls Catalog.perform ∅ calls).1 ∧
      (runCalls Store.perform {} calls).2.Placed ∧ (runCalls Store.perform {} calls).2.keys.Nodup ∧
      Refines (runCalls Store.perform {} calls).2 (runCalls Catalog.perform ∅ calls).2 := by
  obtain ⟨answers, final⟩ := refines_empty.runCalls calls
  exact ⟨answers, final.placed, final.keys_nodup, final⟩

end AccessLayer
