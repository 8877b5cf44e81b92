import Mathlib
import AccessLayer.Proofs.StoreWellFormed
/-!
Occurrence numbers. A global action on occurrence `n` of a data object `name` addresses the
object `name` for 0 and `name/n` after, with the decimal text of `n` (`occurrenceName`), and the
session drops a trailing `/0` from the names it is given. Listing the occurrences of `name` in a
memory data entry goes the other way: every stored object `name` counts 0, and every stored
`name/t` counts the integer its suffix `t` reads as, signs and leading zeros accepted
(`MemoryBackend.occurrenceAt`); the counts are sorted.

The list is always sorted and holds every occurrence whose object is stored
(`MemoryBackend.mem_occurrences_of_mem`). It is exactly the occurrences that reads find, each
once and none negative, when every object it counts is the one its own number addresses
(`occurrences_match_addressing`). Suffixes with a sign or a leading zero, which a write on such
names stores, break this: `x` stored with its suffixes `01`, `-1` and `1` lists `-1, 0, 1, 1`
(`padded_and_signed_suffixes_repeat_occurrences`).
-/

namespace AccessLayer

/-- The object a global action on `name` addresses for occurrence `n`: `name` itself for 0,
`name/n` after, `n` in decimal. -/
def occurrenceName (name : String) (n : Nat) : String :=
  if n = 0 then name else name ++ "/" ++ toString n

/-! ## Object names and their suffixes -/

section Names

theorem toList_toString (n : Nat) : (toString n).toList = Nat.toDigits 10 n := by
  rw [Nat.toString_eq_ofList_toDigits, String.toList_ofList]

theorem isDigit_of_mem_toDigits {n : Nat} {c : Char} (mem : c ∈ Nat.toDigits 10 n) :
    c.isDigit = true :=
  Nat.isDigit_of_mem_toDigits (by decide) (by decide) mem

/-- The digits of a number, read back left to right. -/
theorem foldl_toDigits (n : Nat) :
    (Nat.toDigits 10 n).foldl (fun v c => v * 10 + (c.toNat - '0'.toNat)) 0 = n := by
  have swap : (fun v (c : Char) => v * 10 + (c.toNat - '0'.toNat)) =
      fun v c => 10 * v + (c.toNat - '0'.toNat) := by
    funext v c
    rw [Nat.mul_comm]
  rw [swap]
  exact Nat.ofDigitChars_ten_toDigits

theorem startsWith_append (name t : String) : (name ++ t).startsWith name = true := by
  rw [String.startsWith_string_iff, String.toList_append]
  exact List.prefix_append _ _

theorem drop_append (name t : String) : ((name ++ t).drop name.length).toString = t := by
  rw [← String.toList_inj, String.Slice.toString_eq, String.toList_copy_drop, String.toList_append,
    ← String.length_toList, List.drop_left]

theorem append_ne_self {name t : String} (nonempty : t ≠ "") : name ++ t ≠ name := by
  intro same
  have lengths := congrArg String.length same
  rw [String.length_append] at lengths
  exact nonempty (String.length_eq_zero_iff.mp (by omega))

/-- The decimal text of a positive number, put after a slash, never ends in `/0`: its last digit
is not `0` when it is its only one, and a digit precedes it otherwise. -/
theorem endsWith_toString_of_pos {n : Nat} (pos : 0 < n) (name : String) :
    (name ++ "/" ++ toString n).endsWith "/0" = false := by
  rw [Bool.eq_false_iff]
  intro ends
  rw [String.endsWith_eq_endsWith_toSlice, String.Slice.endsWith_string_iff, String.copy_toSlice,
    String.toList_append, String.toList_append, toList_toString, ← List.reverse_prefix,
    List.reverse_append] at ends
  cases last : (Nat.toDigits 10 n).reverse with
  | nil => exact Nat.toDigits_ne_nil (List.reverse_eq_nil_iff.mp last)
  | cons d earlier =>
    rw [last] at ends
    cases earlier with
    | nil =>
      -- a single digit, `0`: the number is 0
      have zero : d = '0' := (List.cons_prefix_cons.mp ends).1.symm
      have digits : Nat.toDigits 10 n = ['0'] := by
        rw [← List.reverse_reverse (Nat.toDigits 10 n), last, zero]
        rfl
      have value := foldl_toDigits n
      rw [digits] at value
      simp at value
      omega
    | cons e rest =>
      -- the character before the last digit is a digit, not a slash
      have slash : '/' = e := (List.cons_prefix_cons.mp (List.cons_prefix_cons.mp ends).2).1
      have mem : e ∈ Nat.toDigits 10 n := by
        rw [← List.mem_reverse, last]
        simp
      exact absurd (isDigit_of_mem_toDigits mem) (by rw [← slash]; decide)

/-- Addressing leaves a name that does not end in `/0` as it is. -/
theorem normalizeName_occurrenceName {name : String} (plain : name.endsWith "/0" = false)
    (n : Nat) : normalizeName (occurrenceName name n) = occurrenceName name n := by
  unfold normalizeName occurrenceName
  by_cases zero : n = 0
  · rw [if_pos zero, plain]
    rfl
  · rw [if_neg zero, endsWith_toString_of_pos (Nat.pos_of_ne_zero zero)]
    rfl

end Names

/-! ## Reading occurrences back -/

namespace Store

theorem isSome_get?_iff {store : Store} {key obj : String} :
    (store.get? key obj).isSome ↔ obj ∈ store.objects key := by
  unfold get? objects
  cases store.entry? key with
  | none => simp
  | some objs =>
    rw [Option.bind_some, Option.getD_some, Option.isSome_iff_ne_none, ne_eq,
      List.lookup_eq_none_iff]
    simp only [bne_iff_ne, ne_eq, not_forall, not_not, List.mem_map, exists_prop]
    exact ⟨fun ⟨p, mem, same⟩ => ⟨p, mem, same.symm⟩, fun ⟨p, mem, same⟩ => ⟨p, mem, same.symm⟩⟩

/-- The objects of an entry of a well-formed store have distinct names. -/
theorem nodup_objects {store : Store} (wf : store.WF) (key : String) :
    (store.objects key).Nodup := by
  unfold objects
  cases found : store.entry? key with
  | none => exact List.nodup_nil
  | some objs =>
    have ascending := (Keyed.sorted_iff_pairwise objs).mp (wf.sorted_of_entry found)
    exact (List.pairwise_map.mpr ascending).imp ne_of_lt

end Store

namespace MemoryBackend

/-- The decimal text of a number that fits in 64 signed bits reads back as that number. -/
theorem occurrenceOf_toString {n : Nat} (fits : n < 2 ^ 63) :
    occurrenceOf (toString n) = some (n : Int) := by
  have digit : ∀ c ∈ Nat.toDigits 10 n, c.isDigit = true := fun _ mem => isDigit_of_mem_toDigits mem
  unfold occurrenceOf
  rw [toList_toString]
  obtain ⟨c, rest, split⟩ := List.exists_cons_of_ne_nil (Nat.toDigits_ne_nil (n := n) (b := 10))
  dsimp only
  -- decimal digits carry no sign
  split
  · rename_i signed
    exact absurd (digit '-' (by rw [signed]; exact List.mem_cons_self)) (by decide)
  · rename_i signed
    exact absurd (digit '+' (by rw [signed]; exact List.mem_cons_self)) (by decide)
  · have nonempty : (Nat.toDigits 10 n).isEmpty = false := by rw [split]; rfl
    have all : (Nat.toDigits 10 n).all Char.isDigit = true := List.all_eq_true.mpr digit
    simp only [nonempty, all, foldl_toDigits]
    simp [Nat.pow_eq]
    omega

/-- The occurrence an object stands for when the occurrences of `name` are listed: 0 for `name`
itself, `n` for `name/t` whose suffix `t` reads as the integer `n`. -/
def occurrenceAt (name obj : String) : Option Int :=
  if obj = name then some 0
  else if obj.startsWith (name ++ "/") then occurrenceOf (obj.drop (name.length + 1)).toString
  else none

theorem occurrences_eq (store : Store) (e : DataEntry) (name : String) :
    occurrences store e name =
      ((store.objects e.storeKey).filterMap (occurrenceAt name)).mergeSort
        fun x y => decide (x ≤ y) := rfl

/-- The object addressed for an occurrence stands for that occurrence. -/
theorem occurrenceAt_occurrenceName (name : String) {n : Nat} (fits : n < 2 ^ 63) :
    occurrenceAt name (occurrenceName name n) = some (n : Int) := by
  unfold occurrenceAt occurrenceName
  by_cases zero : n = 0
  · simp [zero]
  · have other : name ++ "/" ++ toString n ≠ name := by
      rw [String.append_assoc]
      exact append_ne_self (by simp)
    have suffix : ((name ++ "/" ++ toString n).drop (name.length + 1)).toString = toString n := by
      have dropped := drop_append (name ++ "/") (toString n)
      rwa [String.length_append] at dropped
    rw [if_neg zero, if_neg other, if_pos (startsWith_append _ _), suffix, occurrenceOf_toString fits]

variable {store : Store} {e : DataEntry} {name : String}

theorem mem_occurrences {v : Int} :
    v ∈ occurrences store e name ↔ ∃ obj ∈ store.objects e.storeKey, occurrenceAt name obj = some v := by
  rw [occurrences_eq, List.mem_mergeSort, List.mem_filterMap]

/-- The occurrences come in ascending order. -/
theorem occurrences_sorted (store : Store) (e : DataEntry) (name : String) :
    (occurrences store e name).Pairwise (· ≤ ·) := by
  have sorted := @List.pairwise_mergeSort _ (fun x y : Int => decide (x ≤ y))
    (fun a b c => by simpa using Int.le_trans) (fun a b => by simpa using Int.le_total a b)
    ((store.objects e.storeKey).filterMap (occurrenceAt name))
  rw [occurrences_eq]
  simpa only [decide_eq_true_eq] using sorted

/-- The occurrences are the numbers the objects count, in ascending order. -/
theorem occurrences_eq_of_perm {l : List Int}
    (perm : l.Perm ((store.objects e.storeKey).filterMap (occurrenceAt name)))
    (sorted : l.Pairwise (· ≤ ·)) : occurrences store e name = l :=
  ((List.mergeSort_perm _ _).trans perm.symm).eq_of_pairwise
    (fun _ _ _ _ le ge => Int.le_antisymm le ge) (occurrences_sorted store e name) sorted

/-- Every occurrence whose object is stored is listed. -/
theorem mem_occurrences_of_mem {n : Nat} (fits : n < 2 ^ 63)
    (stored : occurrenceName name n ∈ store.objects e.storeKey) :
    (n : Int) ∈ occurrences store e name :=
  mem_occurrences.mpr ⟨_, stored, occurrenceAt_occurrenceName name fits⟩

/-- Every object the occurrences of `name` count is the object addressed by its own number,
which is not negative. -/
def Addressed (name : String) (objs : List String) : Prop :=
  ∀ obj ∈ objs, ∀ n ∈ occurrenceAt name obj, 0 ≤ n ∧ obj = occurrenceName name n.toNat

section Addressed

variable (addressed : Addressed name (store.objects e.storeKey))
include addressed

theorem nonneg_of_mem_occurrences {v : Int} (listed : v ∈ occurrences store e name) : 0 ≤ v := by
  obtain ⟨obj, stored, counted⟩ := mem_occurrences.mp listed
  exact (addressed obj stored v counted).1

theorem mem_of_mem_occurrences {n : Nat} (listed : (n : Int) ∈ occurrences store e name) :
    occurrenceName name n ∈ store.objects e.storeKey := by
  obtain ⟨obj, stored, counted⟩ := mem_occurrences.mp listed
  have same := (addressed obj stored n counted).2
  rw [Int.toNat_natCast] at same
  rwa [← same]

/-- Distinct objects count distinct occurrences, each the object's own number. -/
theorem occurrences_nodup (wf : store.WF) : (occurrences store e name).Nodup := by
  rw [occurrences_eq, (List.mergeSort_perm _ _).nodup_iff]
  have distinct := List.Pairwise.and_mem.mp (Store.nodup_objects wf e.storeKey)
  refine distinct.filterMap (occurrenceAt name) fun obj obj' ⟨stored, stored', differ⟩ v counted
    v' counted' same => differ ?_
  rw [(addressed obj stored v counted).2, (addressed obj' stored' v' counted').2, same]

theorem occurrences_increasing (wf : store.WF) : (occurrences store e name).Pairwise (· < ·) :=
  ((occurrences_sorted store e name).and (occurrences_nodup addressed wf)).imp
    fun ⟨le, ne⟩ => lt_of_le_of_ne le ne

end Addressed

end MemoryBackend

/-! ## Listing occurrences in a session -/

namespace Session

/-- A data entry on a memory backend at an identifier, passing a check, as evaluation finds it. -/
theorem exists_memory_entry_of_check {s : Session} {id : Int} {i : Nat} {p : DataEntry → Bool}
    (check : (match s.slot? id, s.backends.getD i .empty with
      | some ⟨j, .entry de⟩, .memory _ => decide (j = i) && p de
      | _, _ => false) = true) :
    ∃ de b, s.slot? id = some ⟨i, .entry de⟩ ∧ s.backends.getD i .empty = .memory b ∧
      p de = true := by
  split at check
  · rename_i j de b slot memory
    simp only [Bool.and_eq_true, decide_eq_true_eq] at check
    obtain ⟨rfl, passes⟩ := check
    exact ⟨de, b, slot, memory, passes⟩
  · cases check

/-- Listing the occurrences of an identifier whose slot holds a data entry on a memory backend
answers what that backend finds in the shared store, and changes nothing. -/
theorem run_occurrences {s : Session} {id : Int} {i : Nat} {de : DataEntry} {b : MemoryBackend}
    (slot : s.slot? id = some ⟨i, .entry de⟩) (memory : s.backends.getD i .empty = .memory b)
    (name : String) :
    (occurrences id name).run s = .ok (MemoryBackend.occurrences s.medium.store de name) s := by
  unfold occurrences entryOf
  simp only [EStateM.run_bind, run_lookup, slot]
  show (onBackend i (Backend.occurrences de name)).run s = _
  rw [run_onBackend, memory]
  show EStateM.Result.ok _ { s with backends := s.backends.set i (.memory b) } = _
  rw [← memory, set_getD_self]

end Session

/-- Listing the occurrences of a data object in a memory data entry whose store is well formed,
for a name that does not end in `/0`, answers a list and changes nothing. When every object the
list counts is the object its own number addresses, the list is strictly increasing, holds no
negative number, and holds `n` exactly when a global action on occurrence `n`, with the name the
session makes of it, finds a stored object. -/
theorem occurrences_match_addressing {s : Session} {id : Int} {i : Nat} {de : DataEntry}
    {b : MemoryBackend} {name : String} (slot : s.slot? id = some ⟨i, .entry de⟩)
    (memory : s.backends.getD i .empty = .memory b) (wf : s.medium.store.WF)
    (plain : name.endsWith "/0" = false)
    (addressed : MemoryBackend.Addressed name (s.medium.store.objects de.storeKey)) :
    ∃ occ, (Session.occurrences id name).run s = .ok occ s ∧ occ.Pairwise (· < ·) ∧
      (∀ n ∈ occ, 0 ≤ n) ∧
      ∀ n : Nat, n < 2 ^ 63 → ((n : Int) ∈ occ ↔
        (s.medium.store.get? de.storeKey (normalizeName (occurrenceName name n))).isSome) := by
  refine ⟨_, Session.run_occurrences slot memory name,
    MemoryBackend.occurrences_increasing addressed wf,
    fun _ listed => MemoryBackend.nonneg_of_mem_occurrences addressed listed, fun n fits => ?_⟩
  rw [normalizeName_occurrenceName plain, Store.isSome_get?_iff]
  exact ⟨MemoryBackend.mem_of_mem_occurrences addressed, MemoryBackend.mem_occurrences_of_mem fits⟩

/-- `x` stored with its occurrence 2: the occurrences of `x` are as addressing finds them. -/
theorem stored_occurrences_match_addressing :
    let s := Session.performAll { env := {} } [.beginDataEntry "imas:memory?path=/p" .create,
      .beginGlobal 1 "x" "" .write, .writeData 2 "f" "" (Buffer.ofDoubles [1]), .endAction 2,
      .beginGlobal 1 "x/2" "" .write, .writeData 2 "f" "" (Buffer.ofDoubles [1]), .endAction 2]
    ∃ de, s.slot? 1 = some ⟨0, .entry de⟩ ∧ ∃ occ, (Session.occurrences 1 "x").run s = .ok occ s ∧
      occ.Pairwise (· < ·) ∧ (∀ n ∈ occ, 0 ≤ n) ∧ ∀ n : Nat, n < 2 ^ 63 → ((n : Int) ∈ occ ↔
        (s.medium.store.get? de.storeKey (normalizeName (occurrenceName "x" n))).isSome) := by
  intro s
  obtain ⟨de, b, slot, memory, stored⟩ := @Session.exists_memory_entry_of_check s 1 0
    (fun de => decide (s.medium.store.objects de.storeKey = ["x", "x/2"])) (by decide +kernel)
  have addressed : MemoryBackend.Addressed "x" (s.medium.store.objects de.storeKey) := by
    rw [of_decide_eq_true stored]
    unfold MemoryBackend.Addressed
    decide +kernel
  exact ⟨de, slot, occurrences_match_addressing slot memory
    (Session.storeWF_performAll Store.wf_empty _) (by decide) addressed⟩

/-- Suffixes with a sign or a leading zero count as occurrences: `x` stored with its suffixes
`01`, `-1` and `1` lists a negative occurrence and occurrence 1 twice. -/
theorem padded_and_signed_suffixes_repeat_occurrences :
    let write (name : String) : List Session.Call :=
      [.beginGlobal 1 name "" .write, .writeData 2 "f" "" (Buffer.ofDoubles [1]), .endAction 2]
    let s := Session.performAll { env := {} }
      (.beginDataEntry "imas:memory?path=/p" .create :: ["x", "x/01", "x/-1", "x/1"].flatMap write)
    (Session.occurrences 1 "x").run s = .ok [-1, 0, 1, 1] s := by
  intro write s
  -- the objects in ascending order of name count 0, -1, 1 and 1
  obtain ⟨de, b, slot, memory, counted⟩ := @Session.exists_memory_entry_of_check s 1 0
    (fun de => decide ((s.medium.store.objects de.storeKey).filterMap
      (MemoryBackend.occurrenceAt "x") = [0, -1, 1, 1])) (by decide +kernel)
  rw [Session.run_occurrences slot memory, MemoryBackend.occurrences_eq_of_perm (l := [-1, 0, 1, 1])
    (by rw [of_decide_eq_true counted]; decide) (by decide)]

end AccessLayer
