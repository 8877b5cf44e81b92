import Mathlib
import AccessLayer.Proofs.CodecRoundTrip
import AccessLayer.Proofs.GlobalActions
/-!
What a frame of a staged tree reads back as. Compression stores a payload in raw blocks, which
read back as the payload (`Zstd.decompress_compress`); a frame of a payload reads back as its
header and that payload (`readFrame_frameBytes`), both for payloads shorter than 2^64 bytes.
The payload of a staged tree is its encoding, which decodes as the tree with absent storage and
elements filled in (`Tree.decode_encode`), when the tree is well formed: every staged write of
well-formed leaves keeps it so (`PlacedWrite.wellFormed_applyAll`). The filled form holds the
same structures at the same places, with the same leaves up to their storage
(`Tree.WellFormed.seenAt_filled`), and a copy of a filled leaf's data is a copy of the leaf's
data (`Leaf.copy_filled`).
-/

namespace AccessLayer

namespace Zstd

theorem leBytes_succ (w n : Nat) : leBytes (w + 1) n = n.toUInt8 :: leBytes w (n / 256) := by
  simp only [leBytes, List.range_succ_eq_map, List.map_cons, List.map_map]
  congr 1
  · simp
  · apply List.map_congr_left
    intro i _
    simp [Nat.pow_succ', Nat.div_div_eq_div_mul]

@[simp] theorem length_leBytes (w n : Nat) : (leBytes w n).length = w := by
  simp [leBytes]

/-- Little-endian bytes read back as the number modulo their range. -/
theorem leValue_leBytes : ∀ (w n : Nat), leValue (leBytes w n) = n % 256 ^ w
  | 0, n => by simp [leBytes, leValue, Nat.mod_one]
  | w + 1, n => by
    have rest := leValue_leBytes w (n / 256)
    rw [leBytes_succ, leValue, List.foldr_cons, ← leValue, rest, Nat.pow_succ', Nat.mod_mul]
    have low : n.toUInt8.toNat = n % 256 := by simp
    rw [low]
    ring

theorem leValue_leBytes_of_lt {w n : Nat} (small : n < 256 ^ w) : leValue (leBytes w n) = n := by
  rw [leValue_leBytes, Nat.mod_eq_of_lt small]

/-- A block header followed by the rest: the header reads back, and the rest follows it. -/
theorem take_header (h : Nat) (rest : List UInt8) : (leBytes 3 h ++ rest).take 3 = leBytes 3 h :=
  List.take_left' (length_leBytes 3 h)

theorem drop_header (h : Nat) (rest : List UInt8) : (leBytes 3 h ++ rest).drop 3 = rest :=
  List.drop_left' (length_leBytes 3 h)

theorem length_le_rawBlocks (data : List UInt8) : data.length ≤ (rawBlocks data).length := by
  fun_induction rawBlocks data with
  | case1 data small => simp
  | case2 data large ih =>
    simp only [List.length_append, length_leBytes, List.length_take, List.length_drop] at ih ⊢
    omega

/-- The raw blocks of `data` read back as `data`, given one unit of fuel per block. -/
theorem readBlocks_rawBlocks (more : List UInt8) (data : List UInt8) :
    ∀ (out : List UInt8) (fuel : Nat), data.length / maxBlock < fuel →
      readBlocks out (rawBlocks data ++ more) fuel = .ok (out ++ data, more) := by
  fun_induction rawBlocks data with
  | case1 data small =>
    intro out fuel enough
    obtain ⟨fuel, rfl⟩ : ∃ f, fuel = f + 1 := ⟨fuel - 1, by
      have := Nat.zero_le (data.length / maxBlock); omega⟩
    have fits : data.length * 8 + 1 < 256 ^ 3 := by simp only [maxBlock] at small; omega
    rw [readBlocks, List.append_assoc, take_header, drop_header, leValue_leBytes_of_lt fits]
    simp only [maxBlock] at small
    simp [show (data.length * 8 + 1) % 2 = 1 by omega,
      show (data.length * 8 + 1) / 2 % 4 = 0 by omega,
      show (data.length * 8 + 1) / 8 = data.length by omega, maxBlock, small]
  | case2 data large ih =>
    intro out fuel enough
    obtain ⟨fuel, rfl⟩ : ∃ f, fuel = f + 1 := ⟨fuel - 1, by
      have := Nat.zero_le (data.length / maxBlock); omega⟩
    have fits : maxBlock * 8 < 256 ^ 3 := by simp [maxBlock]
    rw [readBlocks, List.append_assoc, List.append_assoc, take_header, drop_header,
      leValue_leBytes_of_lt fits]
    simp only [maxBlock] at large ih enough ⊢
    have taken : (data.take 131072).length = 131072 := by simp; omega
    have rest := ih (out ++ data.take 131072) fuel (by simp; omega)
    rw [List.append_assoc, List.take_append_drop] at rest
    simp [List.take_left' taken, List.drop_left' taken, Nat.min_eq_left (le_of_not_ge large),
      rest]

/-- The data frame `compress` writes, after its magic number, reads back as its content. -/
theorem readFrame_raw {data : List UInt8} (fits : data.length < 2 ^ 64) :
    readFrame (0xE0 :: (leBytes 8 data.length ++ rawBlocks data)) = .ok (data, []) := by
  have enough : data.length / maxBlock < (rawBlocks data).length + 1 := by
    have := length_le_rawBlocks data
    have := Nat.div_le_self data.length maxBlock
    omega
  have blocks := readBlocks_rawBlocks [] data [] _ enough
  simp only [List.append_nil, List.nil_append] at blocks
  have sized : leValue (leBytes 8 data.length) = data.length :=
    leValue_leBytes_of_lt (by simpa using fits)
  have noDictionary : leValue [] = 0 := rfl
  simp [readFrame, List.take_left', List.drop_left', sized, blocks, noDictionary, bind,
    Except.bind]

/-- Decompression inverts compression, for payloads shorter than 2^64 bytes. -/
theorem decompress_compress (level : CompressionLevel) {data : List UInt8}
    (fits : data.length < 2 ^ 64) : decompress (compress level data) = .ok data := by
  unfold compress
  by_cases empty : data.isEmpty
  · rw [List.isEmpty_iff.1 empty]
    rfl
  · rw [if_neg empty]
    have framed : frameMagic ++ [0xE0] ++ leBytes 8 data.length ++ rawBlocks data =
        frameMagic ++ 0xE0 :: (leBytes 8 data.length ++ rawBlocks data) := by simp
    have magic : frameMagic.length = 4 := rfl
    rw [framed, decompress]
    simp [decompressUpTo, List.take_left' magic, List.drop_left' magic, readFrame_raw fits, magic]

end Zstd

@[simp] theorem length_beBytes (w n : Nat) : (beBytes w n).length = w := by
  simp [beBytes]

/-- A digest is 32 bytes. -/
@[simp] theorem Blake3.length_digest (bytes : List UInt8) : (Blake3.digest bytes).length = 32 := by
  simp [Blake3.digest, Blake3.Node.rootBytes, List.length_flatMap]

/-- A frame reads back as its header fields and its payload, for payloads shorter than 2^64
bytes. -/
theorem readFrame_frameBytes (payload : List UInt8) (level : CompressionLevel)
    (fits : payload.length < 2 ^ 64) :
    readFrame (frameBytes payload level) =
      .ok ⟨frameMagic, frameVersion, level.code.toUInt8.toNat, Blake3.digest payload, payload⟩ := by
  have magic : beValue (beBytes 4 frameMagic) = frameMagic := by decide
  have version : beValue (beBytes 2 frameVersion) = frameVersion := by decide
  have digest : (Blake3.digest payload).length = 32 := Blake3.length_digest payload
  have header :
      (beBytes 4 frameMagic ++ beBytes 2 frameVersion ++ [level.code.toUInt8]).length = 7 := by
    simp
  have bytes : frameBytes payload level = (beBytes 4 frameMagic ++ beBytes 2 frameVersion ++
      [level.code.toUInt8]) ++ (Blake3.digest payload ++ Zstd.compress level payload) := by
    simp [frameBytes]
  unfold readFrame
  rw [bytes, List.drop_left' header]
  simp only [List.take_left' digest, List.drop_left' digest, Zstd.decompress_compress level fits]
  have signed : Blake3.digest payload ≠ [] := List.ne_nil_of_length_pos (by omega)
  simp [magic, version, signed, List.getElem?_append_right]
  omega

/-- A well-formed tree, encoded shorter than 2^64 bytes, decodes as its filled form. -/
theorem Tree.decode_encode {t : Tree} (wf : t.WellFormed) (fits : t.encode.length < 2 ^ 64) :
    Tree.decode t.encode = .ok t.filled :=
  decodeTreeUpTo_encode _ t wf (Nat.lt_succ_self _) fits

/-! ## Staged trees are well formed -/

theorem fieldsWellFormed_iff {fs : List (String × Node)} :
    fieldsWellFormed fs ↔ ∀ e ∈ fs, e.2.WellFormed := by
  induction fs with
  | nil => simp [fieldsWellFormed]
  | cons e rest ih => simp [fieldsWellFormed, ih]

theorem elementsWellFormed_iff {es : List (Option Tree)} :
    elementsWellFormed es ↔ ∀ t, some t ∈ es → t.WellFormed := by
  induction es with
  | nil => simp [elementsWellFormed]
  | cons e rest ih => cases e <;> simp [elementsWellFormed, ih]

namespace Tree

theorem WellFormed.set {t : Tree} (wf : t.WellFormed) (k : String) {n : Node}
    (nodeWf : n.WellFormed) : (t.set k n).WellFormed := by
  obtain ⟨fs⟩ := t
  obtain ⟨sorted, fields⟩ := wf
  refine ⟨Keyed.Sorted.insert sorted k n, fieldsWellFormed_iff.2 fun e mem => ?_⟩
  rcases Keyed.mem_insert mem with rfl | kept
  · exact nodeWf
  · exact fieldsWellFormed_iff.1 fields e kept

theorem WellFormed.find? {t : Tree} (wf : t.WellFormed) {k : String} {n : Node}
    (found : t.find? k = some n) : n.WellFormed := by
  obtain ⟨fs⟩ := t
  exact fieldsWellFormed_iff.1 wf.2 (k, n) (mem_of_lookup found)

theorem WellFormed.modifyArray {t : Tree} (wf : t.WellFormed) (p : String)
    {f : StructArray → StructArray} (keeps : ∀ a, a.WellFormed → (f a).WellFormed) :
    (t.modifyArray p f).WellFormed := by
  unfold Tree.modifyArray
  split
  · rename_i l arr found
    have held := wf.find? found
    cases l with
    | none => exact wf.set p (keeps arr held)
    | some l => exact held.elim
  · exact wf

end Tree

theorem elementsWellFormed_cons {e : Option Tree} {rest : List (Option Tree)} :
    elementsWellFormed (e :: rest) ↔
      (∀ t, e = some t → t.WellFormed) ∧ elementsWellFormed rest := by
  cases e <;> simp [elementsWellFormed]

theorem elementsWellFormed_modify : ∀ {es : List (Option Tree)} (i : Nat) {f : Tree → Tree},
    elementsWellFormed es → (∀ E, E.WellFormed → (f E).WellFormed) →
    elementsWellFormed (es.modify i fun e => some (f (e.getD Tree.empty)))
  | [], _, _, _, _ => by simp [elementsWellFormed]
  | e :: rest, 0, f, wf, keeps => by
    rw [List.modify_zero_cons]
    obtain ⟨first, others⟩ := elementsWellFormed_cons.1 wf
    refine elementsWellFormed_cons.2 ⟨fun t same => ?_, others⟩
    cases same
    apply keeps
    cases e with
    | none => exact wellFormed_empty
    | some t => exact first t rfl
  | e :: rest, i + 1, f, wf, keeps => by
    rw [List.modify_succ_cons]
    obtain ⟨first, others⟩ := elementsWellFormed_cons.1 wf
    exact elementsWellFormed_cons.2 ⟨first, elementsWellFormed_modify i others keeps⟩

theorem StructArray.WellFormed.modifyElement {arr : StructArray} (wf : arr.WellFormed) (i : Nat)
    {f : Tree → Tree} (keeps : ∀ E, E.WellFormed → (f E).WellFormed) :
    (arr.modifyElement i f).WellFormed := by
  obtain ⟨timebase, elements⟩ := arr
  exact elementsWellFormed_modify i wf keeps

theorem StructArray.wellFormed_fresh (timebase : String) (size : Int) :
    (StructArray.fresh timebase size).WellFormed := by
  refine elementsWellFormed_iff.2 fun t mem => ?_
  obtain ⟨-, same⟩ := List.mem_replicate.1 mem
  cases same
  exact wellFormed_empty

namespace Tree

/-- Changing the structure at a place in a way that keeps trees well formed keeps the tree so. -/
theorem WellFormed.modifyAt : ∀ {t : Tree} (P : Place) {f : Tree → Tree}, t.WellFormed →
    (∀ E, E.WellFormed → (f E).WellFormed) → (t.modifyAt P f).WellFormed
  | _, [], _, wf, keeps => keeps _ wf
  | _, (p, i) :: rest, _, wf, keeps =>
    wf.modifyArray p fun _ arrayWf => arrayWf.modifyElement i fun _ elementWf =>
      WellFormed.modifyAt rest elementWf keeps

theorem WellFormed.delete {t : Tree} (wf : t.WellFormed) (path : String) :
    (t.delete path).1.WellFormed := by
  unfold Tree.delete
  split_ifs
  · exact wellFormed_empty
  · obtain ⟨fs⟩ := t
    obtain ⟨sorted, fields⟩ := wf
    refine ⟨?_, fieldsWellFormed_iff.2 fun e mem => ?_⟩
    · rw [Keyed.sorted_iff_pairwise] at sorted ⊢
      exact sorted.filter _
    · exact fieldsWellFormed_iff.1 fields e (List.mem_filter.1 mem).1

end Tree

namespace PlacedWrite

/-- Whether a write sets only well-formed leaves. -/
def WellFormed : PlacedWrite → Prop
  | leaf _ _ l => l.WellFormed
  | _ => True

theorem wellFormed_apply {w : PlacedWrite} {t : Tree} (writeWf : w.WellFormed)
    (wf : t.WellFormed) : (w.apply t).WellFormed := by
  cases w with
  | leaf P f l => exact wf.modifyAt P fun E elementWf => elementWf.set f writeWf
  | array P p tb size =>
    exact wf.modifyAt P fun E elementWf => elementWf.set p (StructArray.wellFormed_fresh tb size)
  | delete p => exact wf.delete p

/-- Writes that set well-formed leaves keep a tree well formed. -/
theorem wellFormed_applyAll : ∀ {ws : List PlacedWrite} {t : Tree}, (∀ w ∈ ws, w.WellFormed) →
    t.WellFormed → (applyAll ws t).WellFormed
  | [], _, _, wf => wf
  | w :: ws, _, writesWf, wf =>
    @wellFormed_applyAll ws _ (fun v mem => writesWf v (List.mem_cons_of_mem w mem))
      (wellFormed_apply (writesWf w List.mem_cons_self) wf)

end PlacedWrite

/-! ## What a filled tree holds -/

theorem filledFields_eq_map (fs : List (String × Node)) :
    filledFields fs = fs.map fun e => (e.1, e.2.filled) := by
  induction fs with
  | nil => rfl
  | cons e rest ih => simp [filledFields, ih]

@[simp] theorem Tree.filled_empty : Tree.empty.filled = Tree.empty := rfl

theorem filledElements_eq_map (es : List (Option Tree)) :
    filledElements es = es.map fun e => some (e.getD Tree.empty).filled := by
  induction es with
  | nil => rfl
  | cons e rest ih => cases e <;> simp [filledElements, ih]

theorem StructArray.size_filled (a : StructArray) : a.filled.size = a.size := by
  obtain ⟨tb, es⟩ := a
  simp [StructArray.filled, StructArray.size, StructArray.elements, filledElements_eq_map]

namespace Node

theorem WellFormed.leaf_filled {n : Node} (wf : n.WellFormed) :
    n.filled.leaf = n.leaf.map Leaf.filled := by
  obtain ⟨l, a⟩ := n
  cases l <;> cases a <;> simp_all [Node.filled, Node.WellFormed, Node.leaf]

theorem WellFormed.array_filled {n : Node} (wf : n.WellFormed) :
    n.filled.array = n.array.map StructArray.filled := by
  obtain ⟨l, a⟩ := n
  cases l <;> cases a <;> simp_all [Node.filled, Node.WellFormed, Node.array]

theorem WellFormed.array {n : Node} (wf : n.WellFormed) {a : StructArray}
    (held : n.array = some a) : a.WellFormed := by
  obtain ⟨l, a'⟩ := n
  cases l <;> cases a' <;> simp_all [Node.WellFormed, Node.array]

end Node

namespace Tree

theorem find?_filled (t : Tree) (k : String) : t.filled.find? k = (t.find? k).map Node.filled := by
  obtain ⟨fs⟩ := t
  simp only [Tree.filled, Tree.find?, Tree.fields, filledFields_eq_map]
  induction fs with
  | nil => rfl
  | cons e rest ih =>
    obtain ⟨k', n⟩ := e
    simp only [List.map_cons, List.lookup_cons]
    split <;> simp_all

theorem WellFormed.array?_filled {t : Tree} (wf : t.WellFormed) (p : String) :
    t.filled.array? p = (t.array? p).map StructArray.filled := by
  cases found : t.find? p with
  | none => simp [array?, find?_filled, found]
  | some n => simp [array?, find?_filled, found, (wf.find? found).array_filled]

theorem WellFormed.element {t : Tree} (wf : t.WellFormed) {p : String} {i : Nat} {E : Tree}
    (found : t.element? p i = some E) : E.WellFormed := by
  simp only [element?, Option.map_eq_some_iff, Option.bind_eq_some_iff] at found
  obtain ⟨e, ⟨arr, held, indexed⟩, rfl⟩ := found
  obtain ⟨n, atPath, holds⟩ := Option.bind_eq_some_iff.1 held
  have arrayWf := (wf.find? atPath).array holds
  obtain ⟨tb, es⟩ := arr
  cases e with
  | none => exact wellFormed_empty
  | some E => exact elementsWellFormed_iff.1 arrayWf E (List.mem_of_getElem? indexed)

theorem WellFormed.element?_filled {t : Tree} (wf : t.WellFormed) (p : String) (i : Nat) :
    t.filled.element? p i = (t.element? p i).map Tree.filled := by
  cases held : t.array? p with
  | none => simp [element?, wf.array?_filled, held]
  | some arr =>
    obtain ⟨tb, es⟩ := arr
    cases indexed : es[i]? <;>
      simp [element?, wf.array?_filled, held, StructArray.filled, StructArray.elements,
        filledElements_eq_map, indexed]

theorem WellFormed.at? : ∀ {t : Tree} (P : Place) {E : Tree}, t.WellFormed → t.at? P = some E →
    E.WellFormed
  | _, [], _, wf, found => by
    cases found
    exact wf
  | t, (p, i) :: rest, _, wf, found => by
    obtain ⟨E', element, below⟩ := Option.bind_eq_some_iff.1 found
    exact WellFormed.at? rest (wf.element element) below

/-- The filled form of a well-formed tree holds, at each place, the filled form of the
structure there. -/
theorem WellFormed.at?_filled : ∀ {t : Tree} (P : Place), t.WellFormed →
    t.filled.at? P = (t.at? P).map Tree.filled
  | _, [], _ => rfl
  | t, (p, i) :: rest, wf => by
    simp only [Tree.at?, wf.element?_filled]
    cases element : t.element? p i with
    | none => rfl
    | some E => exact WellFormed.at?_filled rest (wf.element element)

theorem WellFormed.seen_filled {E : Tree} (wf : E.WellFormed) (g : String) :
    E.filled.seen g = { E.seen g with leaf := (E.seen g).leaf.map Leaf.filled } := by
  cases found : E.find? g with
  | none => simp [seen, find?_filled, found, Seen.nothing]
  | some n =>
    have nodeWf := wf.find? found
    have sized : StructArray.size ∘ StructArray.filled = StructArray.size :=
      funext StructArray.size_filled
    simp [seen, find?_filled, found, Node.seen, nodeWf.leaf_filled, nodeWf.array_filled, sized]

theorem WellFormed.seenAt_filled {t : Tree} (wf : t.WellFormed) (Q : Place) (g : String) :
    t.filled.seenAt Q g = { t.seenAt Q g with leaf := (t.seenAt Q g).leaf.map Leaf.filled } := by
  cases found : t.at? Q with
  | none => simp [seenAt, wf.at?_filled, found, Seen.nothing]
  | some E => simp [seenAt, wf.at?_filled, found, (wf.at? Q found).seen_filled]

end Tree

/-- Filling in a leaf's absent storage changes nothing a copy keeps. -/
theorem Leaf.copy_filled (l : Leaf) : l.filled.data.copy = l.data.copy := by
  obtain ⟨⟨type, shape, cells⟩, tb⟩ := l
  cases cells with
  | none =>
    have empty : type.emptyCells.length = 0 := by
      unfold DataType.emptyCells
      split_ifs <;> rfl
    simp [Leaf.filled, Buffer.copy, empty]
  | some c => rfl

end AccessLayer
