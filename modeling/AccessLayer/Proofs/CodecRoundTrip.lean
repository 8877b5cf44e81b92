import Mathlib
import AccessLayer.Proofs.WireLaws
import AccessLayer.Proofs.TextDecoding
import AccessLayer.Proofs.StoreLaws
/-!
The wire form of a tree reads back as the tree. The trees the codec writes in full are the
well-formed ones (`Tree.WellFormed`): paths ascend, every node holds exactly one of a leaf and an
array, every leaf has a valid data type with storage of that type, and every dimension is a 64-bit
integer. Reading their wire form gives the tree back as `Tree.filled` shows it: a leaf without
storage gets the empty storage of its type and an absent array element an empty structure, which
is all that the wire form does not tell apart. Writing that tree again gives the same bytes.

The proof follows the nesting of the format. A leaf reads back field by field
(`decodeLeaf_encode`); an entry reads back as its node, set into the tree read so far, which
appends it because paths ascend; an array reads back element by element with whatever reads its
elements. The nesting depth a read allows is the length of its input, and each element is
shorter than the tree around it, so induction on that bound closes the circle
(`decodeTreeUpTo_encode`).
-/

namespace AccessLayer

open Wire

/-! ## Trees the codec keeps -/

/-- Whether `c` is storage of data type `t`. -/
def Cells.ofType (t : DataType) : Cells → Bool
  | .chars _ => t = .char
  | .ints _ => t = .integer
  | .doubles _ => t = .double
  | .complex _ => t = .complex

/-- The empty storage of a data type, as a leaf read without elements has it. -/
def DataType.emptyCells (t : DataType) : Cells :=
  if t = .char then .chars [] else if t = .integer then .ints [] else if t = .double then .doubles []
  else .complex []

/-- A leaf the codec writes in full: a valid data type, storage (if any) of that type, and
64-bit dimensions. -/
structure Leaf.WellFormed (l : Leaf) : Prop where
  valid : l.data.type.valid = true
  ofType : ∀ c, l.data.cells = some c → c.ofType l.data.type = true
  shape : ∀ s ∈ l.data.shape, -2 ^ 63 ≤ s ∧ s < 2 ^ 63

mutual
/-- A tree the codec writes in full: ascending paths, and well-formed nodes. -/
def Tree.WellFormed : Tree → Prop
  | .mk fs => Keyed.Sorted fs ∧ fieldsWellFormed fs
/-- Every node of a field list is well formed. -/
def fieldsWellFormed : List (String × Node) → Prop
  | [] => True
  | (_, n) :: rest => n.WellFormed ∧ fieldsWellFormed rest
/-- A node holds exactly one of a leaf and an array, and that one is well formed. -/
def Node.WellFormed : Node → Prop
  | .mk (some l) none => l.WellFormed
  | .mk none (some a) => a.WellFormed
  | _ => False
/-- Every element given is a well-formed tree. -/
def StructArray.WellFormed : StructArray → Prop
  | .mk _ es => elementsWellFormed es
/-- Every element given of a list is a well-formed tree. -/
def elementsWellFormed : List (Option Tree) → Prop
  | [] => True
  | none :: rest => elementsWellFormed rest
  | some e :: rest => e.WellFormed ∧ elementsWellFormed rest
end

/-- A leaf as its wire form reads back: storage of its type, empty when it had none. -/
def Leaf.filled (l : Leaf) : Leaf :=
  { l with data := { l.data with cells := some (l.data.cells.getD l.data.type.emptyCells) } }

mutual
/-- A tree as its wire form reads back. -/
def Tree.filled : Tree → Tree
  | .mk fs => .mk (filledFields fs)
/-- A field list as its wire form reads back. -/
def filledFields : List (String × Node) → List (String × Node)
  | [] => []
  | (k, n) :: rest => (k, n.filled) :: filledFields rest
/-- A node as its wire form reads back: its leaf, or else its array. -/
def Node.filled : Node → Node
  | .mk (some l) _ => .mk (some l.filled) none
  | .mk none (some a) => .mk none (some a.filled)
  | .mk none none => .mk none none
/-- An array as its wire form reads back. -/
def StructArray.filled : StructArray → StructArray
  | .mk tb es => .mk tb (filledElements es)
/-- Array elements as their wire form reads back: an absent one as an empty structure. -/
def filledElements : List (Option Tree) → List (Option Tree)
  | [] => []
  | none :: rest => some Tree.empty :: filledElements rest
  | some e :: rest => some e.filled :: filledElements rest
end

/-! ## Leaves -/

namespace LeafReading

theorem take_type (r : LeafReading) (x : Nat) :
    r.take ⟨1, varintType, x, []⟩ = .ok { r with type := signedOf x } := rfl

/-- Packed dimensions add to the shape read so far. -/
theorem foldlM_take_shape (r : LeafReading) {shape : List Int}
    (bounded : ∀ s ∈ shape, -2 ^ 63 ≤ s ∧ s < 2 ^ 63) :
    (packedFields 2 ((shape.map unsignedOf).flatMap varintBytes)).foldlM take r =
      .ok { r with shape := r.shape ++ shape } := by
  cases shape with
  | nil =>
    rw [List.map_nil, List.flatMap_nil, packedFields_nil, List.append_nil]
    rfl
  | cons s rest =>
    have full : ((s :: rest).map unsignedOf).flatMap varintBytes ≠ [] := by
      simp [varintBytes_ne_nil]
    have fits : ∀ x ∈ (s :: rest).map unsignedOf, x < 2 ^ 64 := by
      intro x mem
      obtain ⟨s', mem', rfl⟩ := List.mem_map.1 mem
      exact unsignedOf_lt (bounded s' mem').1 (bounded s' mem').2
    have back : ((s :: rest).map unsignedOf).map signedOf = s :: rest := by
      rw [List.map_map]
      conv => rhs; rw [← List.map_id (s :: rest)]
      exact List.map_congr_left fun s' mem => signedOf_unsignedOf (bounded s' mem).1 (bounded s' mem).2
    rw [foldlM_packedFields _ _ _ full]
    simp only [take, packedVarints_flatMap fits, bind, Except.bind, back]
    rfl

/-- Packed elements of an integer buffer add to those read so far. -/
theorem foldlM_take_ints (r : LeafReading) (v : List Int32) :
    (packedFields 4 ((v.map fun x => zigzag x.toInt).flatMap varintBytes)).foldlM take r =
      .ok { r with ints := r.ints ++ v } := by
  cases v with
  | nil =>
    rw [List.map_nil, List.flatMap_nil, packedFields_nil, List.append_nil]
    rfl
  | cons x rest =>
    have full : ((x :: rest).map fun x => zigzag x.toInt).flatMap varintBytes ≠ [] := by
      simp [varintBytes_ne_nil]
    have fits : ∀ z ∈ (x :: rest).map fun x => zigzag x.toInt, z < 2 ^ 64 := by
      intro z mem
      obtain ⟨y, _, rfl⟩ := List.mem_map.1 mem
      exact zigzag_lt y
    have back : ((x :: rest).map fun x => zigzag x.toInt).map (fun z => Int32.ofInt (unzigzag z)) =
        x :: rest := by
      rw [List.map_map]
      conv => rhs; rw [← List.map_id (x :: rest)]
      exact List.map_congr_left fun y _ => by simp [unzigzag_zigzag, Int32.ofInt_toInt]
    rw [foldlM_packedFields _ _ _ full]
    simp only [take, packedVarints_flatMap fits, bind, Except.bind, back]
    rfl

theorem length_flatMap_of_length {α : Type} (v : List α) (f : α → List UInt8) {n : Nat}
    (each : ∀ a, (f a).length = n) : (v.flatMap f).length = n * v.length := by
  induction v with
  | nil => rfl
  | cons x rest ih =>
    simp only [List.flatMap_cons, List.length_append, each, ih, List.length_cons]
    ring

theorem flatMap_append_eq_flatten {α : Type} (v : List α) (f g : α → List UInt8) :
    v.flatMap (fun a => f a ++ g a) = (v.flatMap fun a => [f a, g a]).flatten := by
  induction v with
  | nil => rfl
  | cons x rest ih => simp [ih]

/-- Packed doubles add to those read so far. -/
theorem foldlM_take_doubles (r : LeafReading) (v : List Float) :
    (packedFields 5 (v.flatMap fun x => fixed64Bytes (doubleBits x))).foldlM take r =
      .ok { r with doubles := r.doubles ++ v } := by
  cases v with
  | nil =>
    rw [List.flatMap_nil, packedFields_nil, List.append_nil]
    rfl
  | cons x rest =>
    have full : ((x :: rest).flatMap fun x => fixed64Bytes (doubleBits x)) ≠ [] := by
      simp [← List.length_pos_iff, length_fixed64Bytes]
    have words : eights ((x :: rest).flatMap fun x => fixed64Bytes (doubleBits x)) =
        (x :: rest).map fun x => fixed64Bytes (doubleBits x) := by
      rw [List.flatMap_def]
      exact eights_flatten fun c mem => by
        obtain ⟨y, _, rfl⟩ := List.mem_map.1 mem
        exact length_fixed64Bytes _
    have back : ((x :: rest).map fun x => fixed64Bytes (doubleBits x)).map
        (fun b => Float.ofBits (fixed64Of b)) = x :: rest := by
      rw [List.map_map]
      conv => rhs; rw [← List.map_id (x :: rest)]
      exact List.map_congr_left fun y _ => by
        simp [fixed64Of_fixed64Bytes, ofBits_doubleBits]
    rw [foldlM_packedFields _ _ _ full]
    simp only [take, length_flatMap_of_length _ _ fun _ => length_fixed64Bytes _, Nat.mul_mod_right,
      words, back]
    rfl

/-- The real and imaginary parts, paired again. -/
theorem pairs_flatMap (v : List ComplexFloat) : take.pairs (v.flatMap fun c => [c.re, c.im]) = v := by
  induction v with
  | nil => rfl
  | cons c rest ih =>
    rw [List.flatMap_cons, List.cons_append, List.cons_append, List.nil_append, take.pairs, ih]

/-- Bytes of characters replace those read so far. -/
theorem foldlM_take_chars (r : LeafReading) (v : List UInt8) (none : r.chars = []) :
    (packedFields 6 v).foldlM take r = .ok { r with chars := v } := by
  cases v with
  | nil =>
    rw [packedFields_nil, ← none]
    rfl
  | cons b rest =>
    rw [foldlM_packedFields _ _ _ (List.cons_ne_nil b rest)]
    rfl

/-- Packed complex numbers add to those read so far. -/
theorem foldlM_take_complex (r : LeafReading) (v : List ComplexFloat) :
    (packedFields 7 (v.flatMap fun c => fixed64Bytes (doubleBits c.re) ++
      fixed64Bytes (doubleBits c.im))).foldlM take r = .ok { r with complex := r.complex ++ v } := by
  cases v with
  | nil =>
    rw [List.flatMap_nil, packedFields_nil, List.append_nil]
    rfl
  | cons x rest =>
    have full : ((x :: rest).flatMap fun c => fixed64Bytes (doubleBits c.re) ++
        fixed64Bytes (doubleBits c.im)) ≠ [] := by
      simp [← List.length_pos_iff, length_fixed64Bytes]
    have length : ((x :: rest).flatMap fun c => fixed64Bytes (doubleBits c.re) ++
        fixed64Bytes (doubleBits c.im)).length = 16 * (x :: rest).length :=
      length_flatMap_of_length _ _ fun c => by simp [length_fixed64Bytes]
    have words : eights ((x :: rest).flatMap fun c => fixed64Bytes (doubleBits c.re) ++
        fixed64Bytes (doubleBits c.im)) = (x :: rest).flatMap fun c =>
          [fixed64Bytes (doubleBits c.re), fixed64Bytes (doubleBits c.im)] := by
      rw [flatMap_append_eq_flatten]
      exact eights_flatten fun w mem => by
        obtain ⟨c, _, half⟩ := List.mem_flatMap.1 mem
        rcases List.mem_pair.1 half with rfl | rfl <;> exact length_fixed64Bytes _
    have back : ((x :: rest).flatMap fun c =>
        [fixed64Bytes (doubleBits c.re), fixed64Bytes (doubleBits c.im)]).map
          (fun b => Float.ofBits (fixed64Of b)) = (x :: rest).flatMap fun c => [c.re, c.im] := by
      simp [List.map_flatMap, fixed64Of_fixed64Bytes, ofBits_doubleBits]
    rw [foldlM_packedFields _ _ _ full]
    simp only [take, length, show 16 * (x :: rest).length % 16 = 0 from Nat.mul_mod_right _ _,
      words, back, pairs_flatMap]
    rfl

end LeafReading

/-- The fields a time base is written as: none when it is empty. -/
def timebaseFields (num : Nat) (tb : String) : List Field :=
  if tb = "" then [] else [⟨num, bytesType, 0, tb.toUTF8.toList⟩]

theorem Encodes.timebase {num : Nat} (numbered : 1 ≤ num ∧ num ≤ 2147483647) (tb : String)
    (fits : (if tb = "" then [] else bytesField num tb.toUTF8.toList).length < 2 ^ 64) :
    Encodes (if tb = "" then [] else bytesField num tb.toUTF8.toList) (timebaseFields num tb) := by
  unfold timebaseFields
  split
  · exact .nil
  · case isFalse given =>
    rw [if_neg given] at fits
    exact .bytesField numbered (lt_trans (length_lt_bytesField _ _) fits)

/-- What the type, the shape and the time base of a leaf read as. -/
theorem LeafReading.foldlM_take_prefix {code : Int} (small : 0 ≤ code ∧ code ≤ 3) {shape : List Int}
    (bounded : ∀ s ∈ shape, -2 ^ 63 ≤ s ∧ s < 2 ^ 63) (tb : String) :
    ([(⟨1, varintType, unsignedOf code, []⟩ : Field)] ++
      packedFields 2 ((shape.map unsignedOf).flatMap varintBytes) ++ timebaseFields 3 tb).foldlM take {} = .ok { type := code, shape := shape, timebase := tb } := by
  rw [List.foldlM_append, List.foldlM_append, List.foldlM_cons, take_type,
    signedOf_unsignedOf (by omega) (by omega)]
  simp only [List.foldlM_nil, pure, Except.pure, bind, Except.bind]
  rw [foldlM_take_shape _ bounded]
  by_cases empty : tb = ""
  · simp only [timebaseFields, empty]
    rfl
  · simp only [timebaseFields, if_neg empty, List.foldlM_cons, List.foldlM_nil, take,
      Text.stringOfBytes_toUTF8]
    rfl

/-- A reading without elements finishes as the empty storage of its type. -/
theorem LeafReading.finish_empty {type : DataType} (valid : type.valid = true) (shape : List Int)
    (tb : String) :
    ({ type := type.code, shape := shape, timebase := tb } : LeafReading).finish =
      .ok ⟨⟨type, shape, some type.emptyCells⟩, tb⟩ := by
  simp only [finish, valid, Bool.not_true, Bool.false_eq_true, if_false, DataType.emptyCells]

/-- A well-formed leaf reads back from its wire form. -/
theorem decodeLeaf_encode {l : Leaf} (wf : l.WellFormed) (fits : l.encode.length < 2 ^ 64) :
    decodeLeaf l.encode = .ok l.filled := by
  obtain ⟨⟨type, shape, cells⟩, tb⟩ := l
  obtain ⟨valid, ofType, bounded⟩ := wf
  have small : 0 ≤ type.code ∧ type.code ≤ 3 := by simpa [DataType.valid] using valid
  have shapeBytes : shape.flatMap (fun s => varintBytes (unsignedOf s)) =
      (shape.map unsignedOf).flatMap varintBytes := by
    rw [List.flatMap_map]
  simp only [Leaf.encode, valid, if_true, shapeBytes] at fits ⊢
  -- the type, the shape and the time base come first, then the elements of the leaf's type
  set head := varintField 1 (unsignedOf type.code) ++
    packedField 2 ((shape.map unsignedOf).flatMap varintBytes) ++
    (if tb = "" then [] else bytesField 3 tb.toUTF8.toList) with head_def
  have leading : head.length < 2 ^ 64 → Encodes head
      ([(⟨1, varintType, unsignedOf type.code, []⟩ : Field)] ++
        packedFields 2 ((shape.map unsignedOf).flatMap varintBytes) ++ timebaseFields 3 tb) := by
    intro short
    simp only [head_def, List.length_append] at short
    exact ((Encodes.varintField (by decide) (unsignedOf_lt (by omega) (by omega))).append
      (Encodes.packedField (by decide) (by omega))).append (Encodes.timebase (by decide) tb (by omega))
  have base := LeafReading.foldlM_take_prefix small bounded tb
  -- storage of any type is one packed field, read into the reading of the head
  have storage : ∀ {num : Nat} {p : List UInt8}, 1 ≤ num ∧ num ≤ 2147483647 →
      (head ++ packedField num p).length < 2 ^ 64 →
      decodeLeaf (head ++ packedField num p) =
        (packedFields num p).foldlM LeafReading.take { type := type.code, shape, timebase := tb } >>=
          LeafReading.finish := by
    intro num p numbered short
    simp only [List.length_append] at short
    have within : head.length < 2 ^ 64 := by omega
    have packed : (packedField num p).length < 2 ^ 64 := by omega
    rw [decodeLeaf, foldFields_of_encodes _ _ ((leading within).append (Encodes.packedField numbered packed)),
      List.foldlM_append, base]
    rfl
  cases cells with
  | none =>
    rw [cellsBytes] at fits ⊢
    rw [List.append_nil] at fits ⊢
    rw [decodeLeaf, foldFields_of_encodes _ _ (leading fits), base]
    exact LeafReading.finish_empty valid shape tb
  | some c =>
    have typed := ofType c rfl
    cases c with
    | chars v =>
      obtain rfl : type = .char := by simpa [Cells.ofType] using typed
      rw [cellsBytes] at fits ⊢
      rw [storage (by decide) fits, LeafReading.foldlM_take_chars _ v rfl]
      rfl
    | ints v =>
      obtain rfl : type = .integer := by simpa [Cells.ofType] using typed
      have packed : v.flatMap (fun x => varintBytes (zigzag x.toInt)) =
          (v.map fun x => zigzag x.toInt).flatMap varintBytes := by
        rw [List.flatMap_map]
      rw [cellsBytes, packed] at fits ⊢
      rw [storage (by decide) fits, LeafReading.foldlM_take_ints]
      rfl
    | doubles v =>
      obtain rfl : type = .double := by simpa [Cells.ofType] using typed
      rw [cellsBytes] at fits ⊢
      rw [storage (by decide) fits, LeafReading.foldlM_take_doubles]
      rfl
    | complex v =>
      obtain rfl : type = .complex := by simpa [Cells.ofType] using typed
      rw [cellsBytes] at fits ⊢
      rw [storage (by decide) fits, LeafReading.foldlM_take_complex]
      rfl

/-! ## Arrays, entries and trees -/

theorem encodeElements_cons (o : Option Tree) (rest : List (Option Tree)) :
    encodeElements (o :: rest) = bytesField 2 ((o.map Tree.encode).getD []) ++ encodeElements rest := by
  cases o <;> rw [encodeElements] <;> rfl

theorem filledElements_cons (o : Option Tree) (rest : List (Option Tree)) :
    filledElements (o :: rest) = some ((o.map Tree.filled).getD Tree.empty) :: filledElements rest := by
  cases o <;> rw [filledElements] <;> rfl

/-- The field an array element is written as. -/
def elementField (o : Option Tree) : Field := ⟨2, bytesType, 0, (o.map Tree.encode).getD []⟩

/-- The field an entry is written as. -/
def entryField (e : String × Node) : Field :=
  ⟨1, bytesType, 0, bytesField 1 e.1.toUTF8.toList ++ e.2.encode⟩

/-- Each element is shorter than the elements written together. -/
theorem length_lt_encodeElements {o : Option Tree} {es : List (Option Tree)} (mem : o ∈ es) :
    ((o.map Tree.encode).getD []).length < (encodeElements es).length := by
  induction es with
  | nil => cases mem
  | cons o' rest ih =>
    have first := length_lt_bytesField 2 ((o'.map Tree.encode).getD [])
    rw [encodeElements_cons, List.length_append]
    rcases List.mem_cons.1 mem with rfl | later
    · omega
    · have := ih later
      omega

theorem Encodes.elements {es : List (Option Tree)} (fits : (encodeElements es).length < 2 ^ 64) :
    Encodes (encodeElements es) (es.map elementField) := by
  induction es with
  | nil => exact .nil
  | cons o rest ih =>
    rw [encodeElements_cons, List.length_append] at fits
    have payload := length_lt_bytesField 2 ((o.map Tree.encode).getD [])
    have first : Encodes (bytesField 2 ((o.map Tree.encode).getD [])) [elementField o] :=
      Encodes.bytesField (by decide) (by omega)
    rw [encodeElements_cons, List.map_cons, ← List.singleton_append]
    exact first.append (ih (by omega))

theorem Encodes.fields {fs : List (String × Node)} (fits : (encodeFields fs).length < 2 ^ 64) :
    Encodes (encodeFields fs) (fs.map entryField) := by
  induction fs with
  | nil => exact .nil
  | cons e rest ih =>
    obtain ⟨k, n⟩ := e
    rw [encodeFields, List.length_append] at fits
    have payload := length_lt_bytesField 1 (bytesField 1 k.toUTF8.toList ++ n.encode)
    have first : Encodes (bytesField 1 (bytesField 1 k.toUTF8.toList ++ n.encode)) [entryField (k, n)] :=
      Encodes.bytesField (by decide) (by omega)
    rw [encodeFields, List.map_cons, ← List.singleton_append]
    exact first.append (ih (by omega))

theorem wellFormed_of_mem_elements {es : List (Option Tree)} (wf : elementsWellFormed es) {e : Tree}
    (mem : some e ∈ es) : e.WellFormed := by
  induction es with
  | nil => cases mem
  | cons o rest ih =>
    cases o with
    | none =>
      rw [elementsWellFormed] at wf
      rcases List.mem_cons.1 mem with same | later
      · cases same
      · exact ih wf later
    | some e' =>
      rw [elementsWellFormed] at wf
      rcases List.mem_cons.1 mem with same | later
      · cases same
        exact wf.1
      · exact ih wf.2 later

theorem wellFormed_empty : Tree.empty.WellFormed := by
  simp [Tree.empty, Tree.WellFormed, Keyed.Sorted, fieldsWellFormed]

/-- `decode` reads back every well-formed tree whose wire form is shorter than `d`. -/
def ReadsBelow (decode : List UInt8 → Except Failure Tree) (d : Nat) : Prop :=
  ∀ t : Tree, t.WellFormed → t.encode.length < d → t.encode.length < 2 ^ 64 →
    decode t.encode = .ok t.filled

/-- Such a reader reads each element of an array back, an absent one as an empty structure. -/
theorem ReadsBelow.element {decode : List UInt8 → Except Failure Tree} {d : Nat}
    (reads : ReadsBelow decode d) {o : Option Tree} (wf : ∀ e, o = some e → e.WellFormed)
    (short : ((o.map Tree.encode).getD []).length < d)
    (fits : ((o.map Tree.encode).getD []).length < 2 ^ 64) :
    decode ((o.map Tree.encode).getD []) = .ok ((o.map Tree.filled).getD Tree.empty) := by
  cases o with
  | none => exact reads Tree.empty wellFormed_empty short fits
  | some e => exact reads e (wf e rfl) short fits

/-- Reading the elements of an array appends them to those read so far. -/
theorem foldlM_arrayStep {decode : List UInt8 → Except Failure Tree} {es : List (Option Tree)}
    (good : ∀ o ∈ es, decode ((o.map Tree.encode).getD []) = .ok ((o.map Tree.filled).getD Tree.empty))
    (acc : String × List (Option Tree)) :
    (es.map elementField).foldlM (arrayStep decode) acc = .ok (acc.1, acc.2 ++ filledElements es) := by
  induction es generalizing acc with
  | nil =>
    rw [filledElements, List.append_nil]
    rfl
  | cons o rest ih =>
    rw [List.map_cons, List.foldlM_cons, filledElements_cons]
    have step : arrayStep decode acc (elementField o) =
        .ok (acc.1, acc.2 ++ [some ((o.map Tree.filled).getD Tree.empty)]) := by
      simp only [arrayStep, elementField, good o List.mem_cons_self]
      rfl
    rw [step]
    simp only [bind, Except.bind]
    rw [ih (fun o' mem => good o' (List.mem_cons_of_mem _ mem)), List.append_assoc]
    rfl

/-- An array reads back from its wire form, its elements with a reader of shorter trees. -/
theorem readArrayWith_encode {decode : List UInt8 → Except Failure Tree} {d : Nat}
    (reads : ReadsBelow decode d) {a : StructArray} (wf : a.WellFormed) (short : a.encode.length ≤ d)
    (fits : a.encode.length < 2 ^ 64) : readArrayWith decode a.encode = .ok a.filled := by
  obtain ⟨tb, es⟩ := a
  rw [StructArray.WellFormed] at wf
  rw [StructArray.encode, List.length_append] at short fits
  have good : ∀ o ∈ es, decode ((o.map Tree.encode).getD []) =
      .ok ((o.map Tree.filled).getD Tree.empty) := by
    intro o mem
    have shorter := length_lt_encodeElements mem
    exact reads.element (fun e same => wellFormed_of_mem_elements wf (same ▸ mem)) (by omega)
      (by omega)
  have timebase : Encodes (if tb = "" then [] else bytesField 1 tb.toUTF8.toList) (timebaseFields 1 tb) :=
    Encodes.timebase (by decide) tb (by omega)
  have elements : Encodes (encodeElements es) (es.map elementField) := Encodes.elements (by omega)
  have encodes := timebase.append elements
  rw [readArrayWith, StructArray.encode, foldFields_of_encodes _ _ encodes, List.foldlM_append]
  have readTimebase : (timebaseFields 1 tb).foldlM (arrayStep decode) ("", []) = .ok (tb, []) := by
    by_cases empty : tb = ""
    · simp only [timebaseFields, empty]
      rfl
    · simp only [timebaseFields, if_neg empty, List.foldlM_cons, List.foldlM_nil, arrayStep,
        Text.stringOfBytes_toUTF8]
      rfl
  rw [readTimebase]
  simp only [bind, Except.bind]
  rw [foldlM_arrayStep good]
  rfl

/-- An entry reads back, from its path and its node, into the tree read so far. -/
theorem readEntryWith_encode {decode : List UInt8 → Except Failure Tree} {d : Nat}
    (reads : ReadsBelow decode d) (t : Tree) (k : String) {n : Node} (wf : n.WellFormed)
    (short : n.encode.length ≤ d) (fits : (bytesField 1 k.toUTF8.toList ++ n.encode).length < 2 ^ 64) :
    readEntryWith decode t (bytesField 1 k.toUTF8.toList ++ n.encode) = .ok (t.set k n.filled) := by
  rw [List.length_append] at fits
  have path : Encodes (bytesField 1 k.toUTF8.toList) [⟨1, bytesType, 0, k.toUTF8.toList⟩] :=
    Encodes.bytesField (by decide) (by have := length_lt_bytesField 1 k.toUTF8.toList; omega)
  obtain ⟨leaf, array⟩ := n
  cases leaf with
  | some l =>
    cases array with
    | some a => exact wf.elim
    | none =>
      rw [Node.encode] at short fits ⊢
      have inner := length_lt_bytesField 2 l.encode
      have value : Encodes (bytesField 2 l.encode) [⟨2, bytesType, 0, l.encode⟩] :=
        Encodes.bytesField (by decide) (by omega)
      rw [readEntryWith, foldFields_of_encodes _ _ (path.append value)]
      simp only [List.singleton_append, List.foldlM_cons, List.foldlM_nil, EntryReading.take,
        Text.stringOfBytes_toUTF8, decodeLeaf_encode wf (by omega : l.encode.length < 2 ^ 64),
        ne_eq, not_true_eq_false, reduceIte, bind, Except.bind, pure, Except.pure]
      rfl
  | none =>
    cases array with
    | none => exact wf.elim
    | some a =>
      rw [Node.encode] at short fits ⊢
      have inner := length_lt_bytesField 3 a.encode
      have value : Encodes (bytesField 3 a.encode) [⟨3, bytesType, 0, a.encode⟩] :=
        Encodes.bytesField (by decide) (by omega)
      rw [readEntryWith, foldFields_of_encodes _ _ (path.append value)]
      simp only [List.singleton_append, List.foldlM_cons, List.foldlM_nil, EntryReading.take,
        Text.stringOfBytes_toUTF8,
        readArrayWith_encode reads wf (by omega) (by omega : a.encode.length < 2 ^ 64),
        ne_eq, not_true_eq_false, reduceIte, bind, Except.bind, pure, Except.pure]
      rfl

/-- Reading the entries of ascending fields appends each after the fields read so far. -/
theorem foldlM_treeStep {decode : List UInt8 → Except Failure Tree} {d : Nat}
    (reads : ReadsBelow decode d) {fs : List (String × Node)}
    (sorted : fs.Pairwise fun a b => a.1 < b.1) (wf : fieldsWellFormed fs)
    (short : (encodeFields fs).length ≤ d) (fits : (encodeFields fs).length < 2 ^ 64)
    (acc : List (String × Node)) (above : ∀ a ∈ acc, ∀ b ∈ fs, a.1 < b.1) :
    (fs.map entryField).foldlM (treeStep decode) (.mk acc) = .ok (.mk (acc ++ filledFields fs)) := by
  induction fs generalizing acc with
  | nil =>
    rw [filledFields, List.append_nil]
    rfl
  | cons e rest ih =>
    obtain ⟨k, n⟩ := e
    obtain ⟨first, later⟩ := List.pairwise_cons.1 sorted
    rw [fieldsWellFormed] at wf
    rw [encodeFields, List.length_append] at short fits
    have entry := length_lt_bytesField 1 (bytesField 1 k.toUTF8.toList ++ n.encode)
    have node : n.encode.length ≤ (bytesField 1 k.toUTF8.toList ++ n.encode).length := by
      simp
    -- the new path lies above every path read so far, so it goes at the end
    have step : treeStep decode (.mk acc) (entryField (k, n)) = .ok (.mk (acc ++ [(k, n.filled)])) := by
      rw [treeStep, if_pos (by rfl), entryField, readEntryWith_encode reads _ k wf.1 (by omega) (by omega),
        Tree.set, Tree.fields, Keyed.insert_of_lt _ fun a mem => above a mem (k, n) List.mem_cons_self]
    rw [List.map_cons, List.foldlM_cons, step, filledFields]
    simp only [bind, Except.bind]
    have above' : ∀ a ∈ acc ++ [(k, n.filled)], ∀ b ∈ rest, a.1 < b.1 := by
      intro a mem b later_mem
      rcases List.mem_append.1 mem with old | new
      · exact above a old b (List.mem_cons_of_mem _ later_mem)
      · rw [List.mem_singleton.1 new]
        exact first b later_mem
    rw [ih later wf.2 (by omega) (by omega) _ above', List.append_assoc]
    rfl

/-- With a bound on the depth past the length of its wire form, every well-formed tree reads
back; the induction is on the bound, which each nested structure lowers by one. -/
theorem decodeTreeUpTo_encode (d : Nat) : ReadsBelow (decodeTreeUpTo d) d := by
  induction d with
  | zero =>
    intro t _ short _
    omega
  | succ d ih =>
    intro t wf short fits
    obtain ⟨fs⟩ := t
    obtain ⟨sorted, fields⟩ := wf
    rw [Tree.encode] at short fits ⊢
    rw [decodeTreeUpTo, foldFields_of_encodes _ _ (Encodes.fields fits), Tree.empty,
      foldlM_treeStep ih ((Keyed.sorted_iff_pairwise fs).1 sorted) fields (by omega) fits [] (by simp),
      List.nil_append, Tree.filled]

/-! ## Writing back what was read -/

theorem cellsBytes_emptyCells (t : DataType) : cellsBytes (some t.emptyCells) = [] := by
  unfold DataType.emptyCells
  split_ifs <;> rfl

/-- Empty storage is written as no storage at all. -/
theorem Leaf.encode_filled (l : Leaf) : l.filled.encode = l.encode := by
  obtain ⟨⟨type, shape, cells⟩, tb⟩ := l
  cases cells with
  | none =>
    simp only [Leaf.filled, Leaf.encode, Option.getD_none, cellsBytes_emptyCells]
    rfl
  | some c => rfl

mutual
/-- A tree read back writes the bytes it was read from: the absent storage and elements it
fills in are written as nothing, as their absence was. -/
theorem Tree.encode_filled : (t : Tree) → t.filled.encode = t.encode
  | .mk fs => by rw [Tree.filled, Tree.encode, Tree.encode, encodeFields_filledFields fs]
theorem encodeFields_filledFields : (fs : List (String × Node)) →
    encodeFields (filledFields fs) = encodeFields fs
  | [] => rfl
  | (k, n) :: rest => by
    rw [filledFields, encodeFields, encodeFields, Node.encode_filled n, encodeFields_filledFields rest]
theorem Node.encode_filled : (n : Node) → n.filled.encode = n.encode
  | .mk (some l) _ => by rw [Node.filled, Node.encode, Node.encode, Leaf.encode_filled]
  | .mk none (some a) => by rw [Node.filled, Node.encode, Node.encode, StructArray.encode_filled a]
  | .mk none none => rfl
theorem StructArray.encode_filled : (a : StructArray) → a.filled.encode = a.encode
  | .mk tb es => by
    rw [StructArray.filled, StructArray.encode, StructArray.encode, encodeElements_filledElements es]
theorem encodeElements_filledElements : (es : List (Option Tree)) →
    encodeElements (filledElements es) = encodeElements es
  | [] => rfl
  | none :: rest => by
    rw [filledElements, encodeElements, encodeElements, encodeElements_filledElements rest]
    rfl
  | some e :: rest => by
    rw [filledElements, encodeElements, encodeElements, Tree.encode_filled e,
      encodeElements_filledElements rest]
end

/-- The codec reads every well-formed tree back from its wire form, as the tree with its absent
storage and elements filled in, and writing what it read gives the same bytes again. -/
theorem tree_codec_round_trip {t : Tree} (wf : t.WellFormed) (fits : t.encode.length < 2 ^ 64) :
    Tree.decode t.encode = .ok t.filled ∧ t.filled.encode = t.encode :=
  ⟨decodeTreeUpTo_encode _ t wf (Nat.lt_succ_self _) fits, Tree.encode_filled t⟩

/-- An array of structures with its first element absent and its second holding an integer
series: the absent element reads back as an empty structure, and the bytes are written again. -/
theorem absent_element_reads_back_empty :
    let t := Tree.mk [("ids", .mk none (some (.mk "" [none,
      some (.mk [("x", .mk (some ⟨⟨.integer, [1], some (.ints [5])⟩, ""⟩) none)])])))]
    t.WellFormed ∧ t.encode.length < 2 ^ 64 ∧
      Tree.decode t.encode = .ok (.mk [("ids", .mk none (some (.mk "" [some Tree.empty,
        some (.mk [("x", .mk (some ⟨⟨.integer, [1], some (.ints [5])⟩, ""⟩) none)])])))]) ∧
      t.filled.encode = t.encode := by
  intro t
  have leaf : Leaf.WellFormed ⟨⟨.integer, [1], some (.ints [5])⟩, ""⟩ :=
    ⟨by decide, fun c same => by cases same; decide, by simp⟩
  have wf : t.WellFormed := by
    refine ⟨by simp [Keyed.Sorted], ⟨?_, trivial⟩⟩
    exact ⟨⟨by simp [Keyed.Sorted], ⟨leaf, trivial⟩⟩, trivial⟩
  have fits : t.encode.length < 2 ^ 64 := by decide +kernel
  exact ⟨wf, fits, tree_codec_round_trip wf fits⟩

end AccessLayer
