import Mathlib
import AccessLayer.Uri.Basic
/-!
Printing a URI that reading gave, and reading it again. Reading cuts a text at separators: the
first `:`, then the first `#` and the first `?`, a leading `//` and the next `/`, then the last
`@` and the last `:` of the authority, and `;` or `&` and the first `=` in the query. So each part
of a URI that reading gives is free of the separators that ended it (`Uri.WellCut`, proved of
every result by `Uri.wellCut_of_parse`). Printing writes the separators back, reading the
printed text finds them where they were, and so always succeeds. It gives the URI back unless
one of its parts cannot be told apart from its neighbours in the text (`Uri.Reprints`):

* an empty authority before a path that starts with `//`, whose slashes are then read as the
  start of an authority;
* a host with a `:` and no port, not closed by `]`, whose last `:` is then read as the start of
  a port;
* an argument with neither key nor value, which is printed as nothing.

The main statement is `Uri.parse_render_of_parse`; `Uri.slashed_path_reads_back_as_authority`
is the first case at `a:////p`.
-/

namespace AccessLayer

/-! ### Cutting text -/

namespace Text

variable {sep : Char}

/-- A text with no `sep` has no cut. -/
theorem cutFirst_of_not_mem {cs : List Char} (absent : sep ∉ cs) : cutFirst sep cs = none := by
  induction cs with
  | nil => rfl
  | cons c rest ih =>
    have differs : c ≠ sep := fun same => absent (same ▸ List.mem_cons_self)
    rw [cutFirst, if_neg differs, ih (fun held => absent (List.mem_cons_of_mem c held))]
    rfl

theorem cutFirst_eq_none {cs : List Char} : cutFirst sep cs = none ↔ sep ∉ cs := by
  refine ⟨fun uncut held => ?_, cutFirst_of_not_mem⟩
  induction cs with
  | nil => cases held
  | cons c rest ih =>
    rw [cutFirst] at uncut
    split at uncut
    · cases uncut
    · next differs =>
      rcases List.mem_cons.1 held with same | later
      · exact differs same.symm
      · exact ih (Option.map_eq_none_iff.1 uncut) later

/-- A prefix with no `sep` stays before the cut. -/
theorem cutFirst_append_of_not_mem {pre : List Char} (absent : sep ∉ pre) (rest : List Char) :
    cutFirst sep (pre ++ rest) = (cutFirst sep rest).map fun cut => (pre ++ cut.1, cut.2) := by
  induction pre with
  | nil => simp
  | cons c pre ih =>
    have differs : c ≠ sep := fun same => absent (same ▸ List.mem_cons_self)
    rw [List.cons_append, cutFirst, if_neg differs,
      ih (fun held => absent (List.mem_cons_of_mem c held)), Option.map_map]
    rfl

theorem cutFirst_append_sep {pre : List Char} (absent : sep ∉ pre) (post : List Char) :
    cutFirst sep (pre ++ sep :: post) = some (pre, post) := by
  rw [cutFirst_append_of_not_mem absent]
  simp [cutFirst]

/-- A cut puts the text back together around the first `sep`. -/
theorem eq_of_cutFirst {cs before after : List Char} (cut : cutFirst sep cs = some (before, after)) :
    cs = before ++ sep :: after ∧ sep ∉ before := by
  induction cs generalizing before with
  | nil => cases cut
  | cons c rest ih =>
    rw [cutFirst] at cut
    split at cut
    · next same =>
      cases cut
      exact ⟨by rw [same]; rfl, List.not_mem_nil⟩
    · next differs =>
      obtain ⟨⟨before', after'⟩, found, joined⟩ := Option.map_eq_some_iff.1 cut
      cases joined
      obtain ⟨rfl, absent⟩ := ih found
      exact ⟨rfl, by simp [absent, Ne.symm differs]⟩

theorem cutLast_of_not_mem {cs : List Char} (absent : sep ∉ cs) : cutLast sep cs = none := by
  rw [cutLast, cutFirst_of_not_mem (by simpa using absent)]
  rfl

theorem cutLast_eq_none {cs : List Char} : cutLast sep cs = none ↔ sep ∉ cs := by
  rw [cutLast, Option.map_eq_none_iff, cutFirst_eq_none, List.mem_reverse]

theorem exists_cutLast_of_mem {cs : List Char} (held : sep ∈ cs) :
    ∃ before after, cutLast sep cs = some (before, after) := by
  cases found : cutLast sep cs with
  | none => exact absurd held (cutLast_eq_none.1 found)
  | some parts => exact ⟨parts.1, parts.2, rfl⟩

theorem cutLast_append_sep {post : List Char} (absent : sep ∉ post) (pre : List Char) :
    cutLast sep (pre ++ sep :: post) = some (pre, post) := by
  have reversed : (pre ++ sep :: post).reverse = post.reverse ++ sep :: pre.reverse := by simp
  rw [cutLast, reversed, cutFirst_append_sep (by simpa using absent)]
  simp

/-- A cut puts the text back together around the last `sep`. -/
theorem eq_of_cutLast {cs before after : List Char} (cut : cutLast sep cs = some (before, after)) :
    cs = before ++ sep :: after ∧ sep ∉ after := by
  rw [cutLast] at cut
  obtain ⟨⟨after', before'⟩, found, joined⟩ := Option.map_eq_some_iff.1 cut
  cases joined
  obtain ⟨reversed, absent⟩ := eq_of_cutFirst found
  refine ⟨?_, by simpa using absent⟩
  rw [← List.reverse_reverse cs, reversed]
  simp

theorem dropPrefix?_append (pre rest : List Char) : dropPrefix? pre (pre ++ rest) = some rest := by
  induction pre with
  | nil => rfl
  | cons p pre ih => simp [dropPrefix?, ih]

theorem eq_of_dropPrefix? {pre cs rest : List Char} (dropped : dropPrefix? pre cs = some rest) :
    cs = pre ++ rest := by
  induction pre generalizing cs with
  | nil => cases dropped; rfl
  | cons p pre ih =>
    cases cs with
    | nil => cases dropped
    | cons c cs =>
      rw [dropPrefix?] at dropped
      split at dropped
      · next same => rw [same, ih dropped]; rfl
      · cases dropped

theorem dropPrefix?_of_not_prefix {pre cs : List Char} (missing : ¬ pre <+: cs) :
    dropPrefix? pre cs = none := by
  cases dropped : dropPrefix? pre cs with
  | none => rfl
  | some rest => exact absurd ⟨rest, (eq_of_dropPrefix? dropped).symm⟩ missing

theorem intercalate_cons_eq_flatMap (word : List Char) (words : List (List Char)) :
    [sep].intercalate (word :: words) = word ++ words.flatMap (sep :: ·) := by
  induction words generalizing word with
  | nil => simp
  | cons next words ih => rw [List.intercalate_cons_cons, ih]; simp

theorem mem_intercalate_singleton {c : Char} {words : List (List Char)}
    (held : c ∈ [sep].intercalate words) : c = sep ∨ ∃ w ∈ words, c ∈ w := by
  cases words with
  | nil => cases held
  | cons w ws =>
    rw [intercalate_cons_eq_flatMap] at held
    simp only [List.mem_append, List.mem_flatMap, List.mem_cons] at held
    rcases held with inFirst | ⟨v, inRest, same | inV⟩
    · exact .inr ⟨w, List.mem_cons_self, inFirst⟩
    · exact .inl same
    · exact .inr ⟨v, List.mem_cons_of_mem w inRest, inV⟩

/-- A character other than the separator that no joined word holds is not in the join. -/
theorem not_mem_intercalate_map {α : Type} {c : Char} {ps : List α} {text : α → List Char}
    (apart : c ≠ sep) (clean : ∀ p ∈ ps, c ∉ text p) : c ∉ [sep].intercalate (ps.map text) := by
  intro held
  rcases mem_intercalate_singleton held with same | ⟨w, inWords, inWord⟩
  · exact apart same
  · obtain ⟨p, member, rfl⟩ := List.mem_map.1 inWords
    exact clean p member inWord

section Fields

variable {isSep : Char → Bool}

/-- A run with no separator is pushed onto the current field. -/
theorem fieldsFrom_append_of_clean {word : List Char} (clean : ∀ c ∈ word, isSep c = false)
    (run rest : List Char) :
    fieldsFrom isSep run (word ++ rest) = fieldsFrom isSep (word.reverse ++ run) rest := by
  induction word generalizing run with
  | nil => rfl
  | cons c word ih =>
    rw [List.cons_append, fieldsFrom, if_neg (by simp [clean c List.mem_cons_self]),
      ih (fun x held => clean x (List.mem_cons_of_mem c held))]
    simp

theorem fieldsFrom_flatMap (marks : isSep sep = true) (word : List Char) (words : List (List Char))
    (clean : ∀ w ∈ word :: words, ∀ c ∈ w, isSep c = false) :
    fieldsFrom isSep [] (word ++ words.flatMap (sep :: ·)) = (word :: words).filter (· ≠ []) := by
  induction words generalizing word with
  | nil =>
    rw [List.flatMap_nil, fieldsFrom_append_of_clean (clean word List.mem_cons_self)]
    cases word <;> simp [fieldsFrom]
  | cons next words ih =>
    rw [List.flatMap_cons, fieldsFrom_append_of_clean (clean word List.mem_cons_self),
      List.append_nil, List.cons_append, fieldsFrom, if_pos marks,
      ih next (fun w held => clean w (List.mem_cons_of_mem word held))]
    cases word <;> simp

/-- Splitting at a separator gives back the nonempty parts it joined. -/
theorem fieldsBy_intercalate (marks : isSep sep = true) (words : List (List Char))
    (clean : ∀ w ∈ words, ∀ c ∈ w, isSep c = false) :
    fieldsBy isSep ([sep].intercalate words) = words.filter (· ≠ []) := by
  cases words with
  | nil => rfl
  | cons word words =>
    rw [intercalate_cons_eq_flatMap, fieldsBy, fieldsFrom_flatMap marks word words clean]

/-- Every field is a run of non-separators taken from the current run or the text. -/
theorem mem_fieldsFrom {run cs field : List Char} (runClean : ∀ c ∈ run, isSep c = false)
    (held : field ∈ fieldsFrom isSep run cs) :
    ∀ c ∈ field, isSep c = false ∧ (c ∈ run ∨ c ∈ cs) := by
  induction cs generalizing run field with
  | nil =>
    rw [fieldsFrom] at held
    split at held
    · cases held
    · simp only [List.mem_singleton] at held
      subst held
      intro c inRun
      rw [List.mem_reverse] at inRun
      exact ⟨runClean c inRun, .inl inRun⟩
  | cons d rest ih =>
    rw [fieldsFrom] at held
    -- a field after a separator comes from the rest of the text
    have fromRest : ∀ field ∈ fieldsFrom isSep [] rest, ∀ c ∈ field,
        isSep c = false ∧ (c ∈ run ∨ c ∈ d :: rest) := by
      intro later held c inField
      obtain ⟨clean, source⟩ := ih (fun c held => absurd held List.not_mem_nil) held c inField
      exact ⟨clean, .inr (List.mem_cons_of_mem d (source.resolve_left List.not_mem_nil))⟩
    split at held
    · split at held
      · exact fromRest field held
      · rcases List.mem_cons.1 held with rfl | later
        · intro c inRun
          rw [List.mem_reverse] at inRun
          exact ⟨runClean c inRun, .inl inRun⟩
        · exact fromRest field later
    · next keeps =>
      have pushed : ∀ c ∈ d :: run, isSep c = false := by
        intro c inRun
        rcases List.mem_cons.1 inRun with rfl | old
        · simpa using keeps
        · exact runClean c old
      intro c inField
      obtain ⟨clean, source⟩ := ih pushed held c inField
      refine ⟨clean, ?_⟩
      rcases source with inRun | inRest
      · rcases List.mem_cons.1 inRun with rfl | old
        · exact .inr List.mem_cons_self
        · exact .inl old
      · exact .inr (List.mem_cons_of_mem d inRest)

end Fields

theorem isBlank_of_isLetter {c : Char} (letter : Uri.isLetter c = true) : isBlank c = false := by
  simp only [Uri.isLetter, Bool.or_eq_true, Bool.and_eq_true, decide_eq_true_eq, Char.le_def,
    UInt32.le_iff_toNat_le] at letter
  have bounds : ('a'.val.toNat, 'z'.val.toNat, 'A'.val.toNat, 'Z'.val.toNat) = (97, 122, 65, 90) :=
    rfl
  simp only [Prod.mk.injEq] at bounds
  rw [bounds.1, bounds.2.1, bounds.2.2.1, bounds.2.2.2] at letter
  simp only [isBlank, Char.toNat, Bool.or_eq_false_iff, Bool.and_eq_false_iff,
    decide_eq_false_iff_not, beq_eq_false_iff_ne]
  omega

/-- Trimming keeps a text that starts with a visible character nonempty. -/
theorem trimBlankList_ne_nil {c : Char} (visible : isBlank c = false) (rest : List Char) :
    trimBlankList (c :: rest) ≠ [] := by
  rw [trimBlankList, List.dropWhile_cons, if_neg (by simp [visible]), Ne, List.reverse_eq_nil_iff,
    List.dropWhile_eq_nil_iff]
  intro blank
  simpa [visible] using blank c (by simp)

end Text

/-! ### Queries -/

namespace Query

/-- What reading leaves in a query: distinct keys, and no separator of arguments or of the
fragment, nor in a key the `=` that ends it. -/
structure WellCut (q : Query) : Prop where
  distinct : q.keys.Nodup
  keys : ∀ p ∈ q.params, p.1.toList.Disjoint ['=', ';', '&', '#']
  values : ∀ p ∈ q.params, p.2.toList.Disjoint [';', '&', '#']

theorem mem_setIn {key value : String} {ps : List (String × String)} {p : String × String}
    (held : p ∈ setIn key value ps) : p ∈ ps ∨ p = (key, value) := by
  induction ps with
  | nil =>
    simp only [setIn, List.mem_singleton] at held
    exact .inr held
  | cons q ps ih =>
    obtain ⟨k, v⟩ := q
    rw [setIn] at held
    split at held
    · simp only [List.mem_cons] at held
      rcases held with rfl | rest
      · next same => exact .inr (by rw [same])
      · exact .inl (List.mem_cons_of_mem _ rest)
    · simp only [List.mem_cons] at held
      rcases held with rfl | rest
      · exact .inl List.mem_cons_self
      · exact (ih rest).imp_left (List.mem_cons_of_mem _)

theorem keys_setIn (key value : String) (ps : List (String × String)) :
    (setIn key value ps).map Prod.fst =
      if key ∈ ps.map Prod.fst then ps.map Prod.fst else ps.map Prod.fst ++ [key] := by
  induction ps with
  | nil => simp [setIn]
  | cons q ps ih =>
    obtain ⟨k, v⟩ := q
    by_cases same : k = key
    · simp [setIn, same]
    · rw [setIn, if_neg same, List.map_cons, ih]
      by_cases present : key ∈ ps.map Prod.fst <;> simp [present, Ne.symm same]

theorem setIn_of_not_mem {key value : String} {ps : List (String × String)}
    (absent : key ∉ ps.map Prod.fst) : setIn key value ps = ps ++ [(key, value)] := by
  induction ps with
  | nil => rfl
  | cons p ps ih =>
    obtain ⟨k, v⟩ := p
    have differs : k ≠ key := fun same => absent (by simp [same])
    rw [setIn, if_neg differs, ih (fun held => absent (List.mem_cons_of_mem k held))]
    rfl

/-- Inserting keeps keys distinct and arguments free of separators. -/
theorem WellCut.insert {q : Query} (wc : q.WellCut) {key value : String}
    (cleanKey : key.toList.Disjoint ['=', ';', '&', '#'])
    (cleanValue : value.toList.Disjoint [';', '&', '#']) : (q.insert key value).WellCut where
  distinct := by
    have distinct := wc.distinct
    unfold Query.keys at distinct ⊢
    rw [Query.insert, keys_setIn]
    split
    · exact distinct
    · next fresh => exact distinct.append (List.nodup_singleton key) (by simpa using fresh)
  keys p held := by
    rcases mem_setIn held with old | rfl
    · exact wc.keys p old
    · exact cleanKey
  values p held := by
    rcases mem_setIn held with old | rfl
    · exact wc.values p old
    · exact cleanValue

/-! #### Reading -/

/-- An argument read from a text free of separators: its key has no `=` either. -/
theorem paramOf_wellCut {part : List Char} (clean : part.Disjoint [';', '&', '#']) :
    (paramOf part).1.toList.Disjoint ['=', ';', '&', '#'] ∧
      (paramOf part).2.toList.Disjoint [';', '&', '#'] := by
  unfold paramOf
  split
  · next key value cut =>
    obtain ⟨rfl, noEq⟩ := Text.eq_of_cutFirst cut
    simp only [List.disjoint_append_left, List.disjoint_cons_left] at clean
    simp only [String.toList_ofList]
    exact ⟨List.disjoint_cons_right.2 ⟨noEq, clean.1⟩, clean.2.2⟩
  · next none =>
    simp only [String.toList_ofList]
    exact ⟨List.disjoint_cons_right.2 ⟨Text.cutFirst_eq_none.1 none, clean⟩, by simp⟩

theorem wellCut_foldl (parts : List (List Char))
    (clean : ∀ part ∈ parts, part.Disjoint [';', '&', '#']) (q : Query) (wc : q.WellCut) :
    (parts.foldl (fun q part => let (k, v) := paramOf part; q.insert k v) q).WellCut := by
  induction parts generalizing q with
  | nil => exact wc
  | cons part parts ih =>
    have cleanParam := paramOf_wellCut (clean part List.mem_cons_self)
    exact ih (fun p held => clean p (List.mem_cons_of_mem _ held)) _
      (wc.insert cleanParam.1 cleanParam.2)

/-- Reading a query text with no `#` leaves a query as reading leaves it. -/
theorem wellCut_parse {s : List Char} (noHash : '#' ∉ s) : (Query.parse s).WellCut := by
  refine wellCut_foldl _ (fun part held => ?_) {} ⟨List.nodup_nil, by simp, by simp⟩
  intro c inPart outside
  have field := Text.mem_fieldsFrom (fun c held => absurd held List.not_mem_nil) held c inPart
  simp only [List.not_mem_nil, false_or] at field
  simp only [List.mem_cons, List.not_mem_nil, or_false] at outside
  rcases outside with rfl | rfl | rfl
  · exact absurd field.1 (by decide)
  · exact absurd field.1 (by decide)
  · exact noHash field.2

/-! #### Printing -/

theorem paramText_eq_empty {p : String × String} : paramText p = "" ↔ p = ("", "") := by
  obtain ⟨key, value⟩ := p
  by_cases noValue : value = ""
  · simp [paramText, noValue]
  · have written : key ++ "=" ++ value ≠ "" := by
      intro empty
      simpa using congrArg String.length empty
    simp [paramText, noValue, written]

theorem mem_paramText {p : String × String} {c : Char} (held : c ∈ (paramText p).toList) :
    c ∈ p.1.toList ∨ c = '=' ∨ c ∈ p.2.toList := by
  unfold paramText at held
  split at held
  · exact .inl held
  · simpa using held

theorem paramOf_append {key : String} (noEq : '=' ∉ key.toList) (value : String) :
    paramOf (key.toList ++ '=' :: value.toList) = (key, value) := by
  simp [paramOf, Text.cutFirst_append_sep noEq]

theorem paramOf_paramText {p : String × String} (noEq : '=' ∉ p.1.toList) :
    paramOf (paramText p).toList = p := by
  obtain ⟨key, value⟩ := p
  by_cases noValue : value = ""
  · simp [paramText, paramOf, noValue, Text.cutFirst_of_not_mem noEq]
  · have text : (paramText (key, value)).toList = key.toList ++ '=' :: value.toList := by
      simp [paramText, noValue]
    rw [text, paramOf_append noEq]

theorem render_toList (q : Query) :
    q.render.toList = [';'].intercalate (q.params.map fun p => (paramText p).toList) := by
  simp [render, String.toList_intercalate, Function.comp_def]

/-- The text of an argument holds no separator of arguments or of the fragment. -/
theorem WellCut.not_mem_paramText {q : Query} (wc : q.WellCut) {p : String × String}
    (member : p ∈ q.params) {c : Char} (separator : c ∈ [';', '&', '#']) :
    c ∉ (paramText p).toList := by
  intro held
  rcases mem_paramText held with inKey | rfl | inValue
  · exact wc.keys p member inKey (by simp at separator ⊢; tauto)
  · simp at separator
  · exact wc.values p member inValue separator

theorem WellCut.hash_not_mem_render {q : Query} (wc : q.WellCut) : '#' ∉ q.render.toList := by
  rw [render_toList]
  exact Text.not_mem_intercalate_map (by decide) fun p member => wc.not_mem_paramText member (by simp)

/-- Inserting arguments with new keys appends them in order. -/
theorem foldl_insert_of_nodup (ps acc : List (String × String))
    (distinct : ((acc ++ ps).map Prod.fst).Nodup) :
    ps.foldl (fun (q : Query) p => q.insert p.1 p.2) ⟨acc⟩ = ⟨acc ++ ps⟩ := by
  induction ps generalizing acc with
  | nil => simp
  | cons p ps ih =>
    have fresh : p.1 ∉ acc.map Prod.fst := by
      intro held
      rw [List.map_append, List.map_cons] at distinct
      exact List.disjoint_of_nodup_append distinct held List.mem_cons_self
    rw [List.foldl_cons, insert, setIn_of_not_mem fresh, ih (acc ++ [p]) (by simpa using distinct)]
    simp

/-- Reading arguments joined by `;` gives back, in order, those whose text is not empty, when
each text reads back as its argument and holds no `;` or `&`, and the keys are distinct. -/
theorem parse_intercalate (ps : List (String × String)) (text : String × String → List Char)
    (reads : ∀ p ∈ ps, paramOf (text p) = p) (clean : ∀ p ∈ ps, ';' ∉ text p ∧ '&' ∉ text p)
    (distinct : (ps.map Prod.fst).Nodup) :
    Query.parse ([';'].intercalate (ps.map text)) = ⟨ps.filter (text · ≠ [])⟩ := by
  let isSep : Char → Bool := fun c => c = ';' || c = '&'
  have cleanFields : ∀ w ∈ ps.map text, ∀ c ∈ w, isSep c = false := by
    intro w held c inWord
    obtain ⟨p, member, rfl⟩ := List.mem_map.1 held
    have semicolon : c ≠ ';' := fun same => (clean p member).1 (same ▸ inWord)
    have ampersand : c ≠ '&' := fun same => (clean p member).2 (same ▸ inWord)
    simp [isSep, semicolon, ampersand]
  have fields : Text.fieldsBy isSep ([';'].intercalate (ps.map text)) =
      (ps.filter (text · ≠ [])).map text := by
    rw [Text.fieldsBy_intercalate (by rfl) _ cleanFields, List.filter_map]
    rfl
  have kept : (([] ++ ps.filter (text · ≠ [])).map Prod.fst).Nodup :=
    distinct.sublist ((List.filter_sublist).map Prod.fst)
  rw [parse, fields, List.foldl_map,
    List.foldl_ext _ (fun (q : Query) p => q.insert p.1 p.2) _ ?same]
  · exact foldl_insert_of_nodup _ [] kept
  · intro acc p held
    rw [reads p (List.mem_of_mem_filter held)]

/-- Reading the text of a query gives back its arguments, less the empty ones. -/
theorem parse_render {q : Query} (wc : q.WellCut) :
    Query.parse q.render.toList = ⟨q.params.filter (· ≠ ("", ""))⟩ := by
  have reads : ∀ p ∈ q.params, paramOf (paramText p).toList = p :=
    fun p member => paramOf_paramText fun held => wc.keys p member held (by simp)
  have clean : ∀ p ∈ q.params, ';' ∉ (paramText p).toList ∧ '&' ∉ (paramText p).toList :=
    fun p member => ⟨wc.not_mem_paramText member (by simp), wc.not_mem_paramText member (by simp)⟩
  rw [render_toList, parse_intercalate q.params _ reads clean wc.distinct]
  -- the empty arguments are exactly those printed as nothing
  congr 1
  refine List.filter_congr fun p _ => ?_
  simp [paramText_eq_empty]

end Query

/-! ### Authorities -/

namespace Authority

/-- What reading leaves in an authority: no `/`, `?` or `#`, which end it; no `@` after the
user info; and a port with no `:` that does not end in `]`. -/
structure WellCut (a : Authority) : Prop where
  userInfo : a.userInfo.toList.Disjoint ['/', '?', '#']
  host : a.host.toList.Disjoint ['@', '/', '?', '#']
  port : a.port.toList.Disjoint [':', '@', '/', '?', '#']
  port_open : a.port.toList.getLast? ≠ some ']'

/-- The last character after a separator is the last of the part after it. -/
private theorem getLast?_append_cons {pre post : List Char} (written : post ≠ []) (c : Char) :
    (pre ++ c :: post).getLast? = post.getLast? := by
  cases post with
  | nil => exact absurd rfl written
  | cons d rest => simp [List.getLast?_cons]

/-- Reading after the last `@`: the user info is what stands before it. -/
theorem parse_append_at {user rest : List Char} (absent : '@' ∉ rest) :
    parse (user ++ '@' :: rest) = { parse rest with userInfo := String.ofList user } := by
  unfold parse
  rw [Text.cutLast_append_sep absent, Text.cutLast_of_not_mem absent]
  dsimp only
  split
  · split <;> rfl
  · rfl

theorem parse_of_not_mem {hostPort : List Char} (noAt : '@' ∉ hostPort)
    (noColon : ':' ∉ hostPort) : parse hostPort = ⟨"", String.ofList hostPort, ""⟩ := by
  unfold parse
  rw [Text.cutLast_of_not_mem noAt]
  dsimp only
  rw [Text.cutLast_of_not_mem noColon]

/-- A text that ends in `]` is all host, whatever `:` it holds. -/
theorem parse_bracketed {hostPort : List Char} (noAt : '@' ∉ hostPort)
    (closed : hostPort.getLast? = some ']') : parse hostPort = ⟨"", String.ofList hostPort, ""⟩ := by
  unfold parse
  rw [Text.cutLast_of_not_mem noAt]
  dsimp only
  split
  · rw [if_pos closed]
  · rfl

/-- Otherwise the port starts after the last `:`. -/
theorem parse_host_port {host port : List Char} (noAt : '@' ∉ host ++ ':' :: port)
    (noColon : ':' ∉ port) (unbracketed : (host ++ ':' :: port).getLast? ≠ some ']') :
    parse (host ++ ':' :: port) = ⟨"", String.ofList host, String.ofList port⟩ := by
  unfold parse
  rw [Text.cutLast_of_not_mem noAt]
  dsimp only
  rw [Text.cutLast_append_sep noColon]
  dsimp only
  rw [if_neg unbracketed]

/-! #### Reading -/

/-- Reading a text with no `@` gives no user info, and a host and port as reading leaves them. -/
theorem wellCut_parse_of_not_mem {hostPort : List Char} (noAt : '@' ∉ hostPort)
    (clean : hostPort.Disjoint ['/', '?', '#']) : (parse hostPort).WellCut := by
  have whole : (⟨"", String.ofList hostPort, ""⟩ : Authority).WellCut :=
    ⟨by simp, by simp [List.disjoint_cons_right.2 ⟨noAt, clean⟩], by simp, by simp⟩
  by_cases colon : ':' ∈ hostPort
  · by_cases closed : hostPort.getLast? = some ']'
    · rwa [parse_bracketed noAt closed]
    · obtain ⟨host, port, cut⟩ := Text.exists_cutLast_of_mem colon
      obtain ⟨rfl, portClean⟩ := Text.eq_of_cutLast cut
      rw [parse_host_port noAt portClean closed]
      simp only [List.mem_append, List.mem_cons, not_or] at noAt
      simp only [List.disjoint_append_left, List.disjoint_cons_left] at clean
      refine ⟨by simp, ?_, ?_, ?_⟩
      · simp [List.disjoint_cons_right.2 ⟨noAt.1, clean.1⟩]
      · simp [List.disjoint_cons_right.2
          ⟨portClean, List.disjoint_cons_right.2 ⟨noAt.2.2, clean.2.2⟩⟩]
      · -- the port is not closed by `]`, since the whole text is not
        rw [String.toList_ofList]
        intro ends
        cases port with
        | nil => cases ends
        | cons c rest =>
          exact closed (by rw [getLast?_append_cons (List.cons_ne_nil c rest)]; exact ends)
  · rwa [parse_of_not_mem noAt colon]

/-- Reading a text with no `/`, `?` or `#` leaves an authority as reading leaves it. -/
theorem wellCut_parse {s : List Char} (clean : s.Disjoint ['/', '?', '#']) : (parse s).WellCut := by
  by_cases hasAt : '@' ∈ s
  · obtain ⟨user, rest, cut⟩ := Text.exists_cutLast_of_mem hasAt
    obtain ⟨rfl, noAt⟩ := Text.eq_of_cutLast cut
    simp only [List.disjoint_append_left, List.disjoint_cons_left] at clean
    have hostPort := wellCut_parse_of_not_mem noAt clean.2.2
    rw [parse_append_at noAt]
    exact ⟨by simpa using clean.1, hostPort.host, hostPort.port, hostPort.port_open⟩
  · exact wellCut_parse_of_not_mem hasAt clean

/-! #### Printing -/

theorem render_toList (a : Authority) :
    a.render.toList = (if a.userInfo = "" then [] else a.userInfo.toList ++ ['@']) ++
      a.host.toList ++ (if a.port = "" then [] else ':' :: a.port.toList) := by
  unfold render
  split <;> split <;> simp

theorem WellCut.render_disjoint {a : Authority} (wc : a.WellCut) :
    a.render.toList.Disjoint ['/', '?', '#'] := by
  have userInfo := wc.userInfo
  have host := wc.host
  have port := wc.port
  simp only [List.disjoint_cons_right] at userInfo host port
  rw [render_toList]
  split <;> split <;> simp_all

/-- An authority as reading leaves it reads back from its text, when its host has no `:` that
would be taken for the start of a port. -/
theorem parse_render {a : Authority} (wc : a.WellCut)
    (bracketed : a.port = "" → ':' ∈ a.host.toList → a.host.toList.getLast? = some ']') :
    parse a.render.toList = a := by
  let hostPort := a.host.toList ++ (if a.port = "" then [] else ':' :: a.port.toList)
  have noAt : '@' ∉ hostPort := by
    have host := (List.disjoint_cons_right.1 wc.host).1
    have port := (List.disjoint_cons_right.1 (List.disjoint_cons_right.1 wc.port).2).1
    simp only [hostPort]
    split <;> simp [host, port]
  have hostPortRead : parse hostPort = ⟨"", a.host, a.port⟩ := by
    by_cases noPort : a.port = ""
    · have plain : hostPort = a.host.toList := by simp [hostPort, noPort]
      rw [plain] at noAt ⊢
      by_cases colon : ':' ∈ a.host.toList
      · rw [parse_bracketed noAt (bracketed noPort colon), noPort, String.ofList_toList]
      · rw [parse_of_not_mem noAt colon, noPort, String.ofList_toList]
    · have joined : hostPort = a.host.toList ++ ':' :: a.port.toList := by simp [hostPort, noPort]
      have portLast : (a.host.toList ++ ':' :: a.port.toList).getLast? = a.port.toList.getLast? :=
        getLast?_append_cons (by simpa using noPort) ':'
      rw [joined] at noAt ⊢
      rw [parse_host_port noAt (List.disjoint_cons_right.1 wc.port).1 (portLast ▸ wc.port_open),
        String.ofList_toList, String.ofList_toList]
  rw [render_toList]
  by_cases noUser : a.userInfo = ""
  · rw [if_pos noUser, List.nil_append, hostPortRead, ← noUser]
  · rw [if_neg noUser, List.append_assoc, List.append_assoc, List.singleton_append,
      parse_append_at noAt, hostPortRead, String.ofList_toList]

/-- A host with a `:`, no port and no closing `]` reads back cut at its last `:`. -/
theorem host_parse_render_ne {a : Authority} (noPort : a.port = "") (noAt : '@' ∉ a.host.toList)
    (colon : ':' ∈ a.host.toList) (unbracketed : a.host.toList.getLast? ≠ some ']') :
    (parse a.render.toList).host ≠ a.host := by
  obtain ⟨before, after, cut⟩ := Text.exists_cutLast_of_mem colon
  obtain ⟨joined, portClean⟩ := Text.eq_of_cutLast cut
  have hostRead : (parse a.host.toList).host = String.ofList before := by
    rw [joined] at noAt unbracketed ⊢
    rw [parse_host_port noAt portClean unbracketed]
  have userRead : (parse a.render.toList).host = (parse a.host.toList).host := by
    rw [render_toList, if_pos noPort, List.append_nil]
    split
    · rfl
    · rw [List.append_assoc, List.singleton_append, parse_append_at noAt]
  intro same
  have lengths := congrArg (fun s : String => s.toList.length) same
  rw [userRead, hostRead, joined] at lengths
  simp at lengths

end Authority

/-! ### URIs -/

namespace Uri

/-- What reading leaves in a URI: a valid scheme; an authority, path and query free of the
separators that end them; and a path that starts with `/` after an authority. -/
structure WellCut (u : Uri) : Prop where
  scheme : validScheme u.scheme.toList = true
  authority : u.authority.WellCut
  path : u.path.toList.Disjoint ['?', '#']
  rooted : u.authority.isEmpty = false → ∀ c ∈ u.path.toList.head?, c = '/'
  query : u.query.WellCut

/-- The text before the first `#`, and the fragment after it. -/
def cutFragment (rest : List Char) : List Char × String :=
  match Text.cutFirst '#' rest with
  | some (r, f) => (r, String.ofList f)
  | none => (rest, "")

/-- The text before the first `?`, and the query read from what follows it. -/
def cutQuery (rest : List Char) : List Char × Query :=
  match Text.cutFirst '?' rest with
  | some (r, q) => (r, Query.parse q)
  | none => (rest, {})

/-- Reading a URI in stages: after the scheme, the fragment is cut off, then the query, and
what is left is split into authority and path. -/
theorem parse_eq (s : String) :
    parse s =
      if Text.trimBlank s = "" then .error .empty
      else
        match Text.cutFirst ':' s.toList with
        | none => .error .noScheme
        | some (scheme, rest) =>
          if !validScheme scheme then .error .badScheme
          else
            .ok { scheme := String.ofList scheme,
                  authority := (splitHierarchy (cutQuery (cutFragment rest).1).1).1,
                  path := (splitHierarchy (cutQuery (cutFragment rest).1).1).2,
                  query := (cutQuery (cutFragment rest).1).2, fragment := (cutFragment rest).2 } :=
  rfl

theorem eq_empty_of_isEmpty {a : Authority} (empty : a.isEmpty = true) : a = {} := by
  obtain ⟨userInfo, host, port⟩ := a
  simp only [Authority.isEmpty, Bool.and_eq_true, decide_eq_true_eq] at empty
  obtain ⟨⟨rfl, rfl⟩, rfl⟩ := empty
  rfl

theorem letter_of_validScheme {scheme : List Char} (valid : validScheme scheme = true) :
    ∃ c rest, scheme = c :: rest ∧ isLetter c = true := by
  cases scheme with
  | nil => cases valid
  | cons c rest =>
    simp only [validScheme, Bool.and_eq_true] at valid
    exact ⟨c, rest, rfl, valid.1⟩

theorem colon_not_mem_of_validScheme {scheme : List Char} (valid : validScheme scheme = true) :
    ':' ∉ scheme := by
  cases scheme with
  | nil => cases valid
  | cons c rest =>
    simp only [validScheme, Bool.and_eq_true, List.all_eq_true] at valid
    intro held
    rcases List.mem_cons.1 held with same | later
    · exact absurd (same ▸ valid.1) (by decide)
    · exact absurd (valid.2 ':' later) (by decide)

/-! #### Reading -/

theorem cutFragment_of_not_mem {rest : List Char} (absent : '#' ∉ rest) :
    cutFragment rest = (rest, "") := by
  unfold cutFragment
  rw [Text.cutFirst_of_not_mem absent]

theorem cutQuery_append {body : List Char} (absent : '?' ∉ body) (query : List Char) :
    cutQuery (body ++ '?' :: query) = (body, Query.parse query) := by
  unfold cutQuery
  rw [Text.cutFirst_append_sep absent]

/-- A URI that reading gives is built from a valid scheme and the text after its `:`. -/
theorem eq_of_parse {s : String} {u : Uri} (parsed : parse s = .ok u) :
    ∃ scheme rest, Text.cutFirst ':' s.toList = some (scheme, rest) ∧
      validScheme scheme = true ∧
      u = { scheme := String.ofList scheme,
            authority := (splitHierarchy (cutQuery (cutFragment rest).1).1).1,
            path := (splitHierarchy (cutQuery (cutFragment rest).1).1).2,
            query := (cutQuery (cutFragment rest).1).2, fragment := (cutFragment rest).2 } := by
  rw [parse_eq] at parsed
  split at parsed
  · cases parsed
  · split at parsed
    · cases parsed
    · next scheme rest cut =>
      split at parsed
      · cases parsed
      · next valid => exact ⟨scheme, rest, cut, by simpa using valid, (Except.ok.inj parsed).symm⟩

theorem hash_not_mem_cutFragment (rest : List Char) : '#' ∉ (cutFragment rest).1 := by
  unfold cutFragment
  split
  · next cut => exact (Text.eq_of_cutFirst cut).2
  · next uncut => exact Text.cutFirst_eq_none.1 uncut

theorem wellCut_cutQuery {text : List Char} (noHash : '#' ∉ text) :
    (cutQuery text).1.Disjoint ['?', '#'] ∧ (cutQuery text).2.WellCut := by
  unfold cutQuery
  split
  · next before after cut =>
    obtain ⟨rfl, noQuestion⟩ := Text.eq_of_cutFirst cut
    simp only [List.mem_append, List.mem_cons, not_or] at noHash
    exact ⟨by simp [noQuestion, noHash.1], Query.wellCut_parse noHash.2.2⟩
  · next uncut =>
    exact ⟨by simp [Text.cutFirst_eq_none.1 uncut, noHash], ⟨List.nodup_nil, by simp, by simp⟩⟩

/-- Splitting a text with no `?` or `#` leaves authority and path as reading leaves them. -/
theorem wellCut_splitHierarchy {rest : List Char} (clean : rest.Disjoint ['?', '#']) :
    (splitHierarchy rest).1.WellCut ∧ (splitHierarchy rest).2.toList.Disjoint ['?', '#'] ∧
      ((splitHierarchy rest).1.isEmpty = false →
        ∀ c ∈ (splitHierarchy rest).2.toList.head?, c = '/') := by
  unfold splitHierarchy
  split
  · next after dropped =>
    rw [Text.eq_of_dropPrefix? dropped] at clean
    have afterClean : after.Disjoint ['?', '#'] := (List.disjoint_append_left.1 clean).2
    split
    · next auth tail cut =>
      -- the path keeps the `/` that ended the authority
      obtain ⟨rfl, noSlash⟩ := Text.eq_of_cutFirst cut
      simp only [List.disjoint_append_left, List.disjoint_cons_left] at afterClean
      refine ⟨Authority.wellCut_parse (List.disjoint_cons_right.2 ⟨noSlash, afterClean.1⟩), ?_, ?_⟩
      · simpa using afterClean.2
      · intro _ c first
        simp only [List.drop_left', String.toList_ofList, List.head?_cons, Option.mem_def,
          Option.some.injEq] at first
        exact first.symm
    · next uncut =>
      have noSlash := Text.cutFirst_eq_none.1 uncut
      exact ⟨Authority.wellCut_parse (List.disjoint_cons_right.2 ⟨noSlash, afterClean⟩), by simp,
        by simp⟩
  · refine ⟨⟨by simp, by simp, by simp, by simp⟩, by simpa using clean, ?_⟩
    intro present
    cases present

/-- Every URI that reading gives is as reading leaves it. -/
theorem wellCut_of_parse {s : String} {u : Uri} (parsed : parse s = .ok u) : u.WellCut := by
  obtain ⟨scheme, rest, -, valid, rfl⟩ := eq_of_parse parsed
  obtain ⟨hierarchy, query⟩ := wellCut_cutQuery (hash_not_mem_cutFragment rest)
  obtain ⟨authority, path, rooted⟩ := wellCut_splitHierarchy hierarchy
  exact ⟨by simpa using valid, authority, path, rooted, query⟩

/-! #### Printing -/

/-- The text between the scheme and the query: `//` and the authority when there is one, then
the path. -/
def hierarchyText (u : Uri) : List Char :=
  (if u.authority.isEmpty then [] else '/' :: '/' :: u.authority.render.toList) ++ u.path.toList

theorem render_toList (u : Uri) :
    u.render.toList = u.scheme.toList ++ ':' :: (u.hierarchyText ++
      ((if u.query.size = 0 then [] else '?' :: u.query.render.toList) ++
        (if u.fragment = "" then [] else '#' :: u.fragment.toList))) := by
  unfold render hierarchyText
  split <;> split <;> split <;> simp

/-- The printed hierarchy holds none of the separators that end it. -/
theorem WellCut.hierarchyText_disjoint {u : Uri} (wc : u.WellCut) :
    u.hierarchyText.Disjoint ['?', '#'] := by
  have authority := wc.authority.render_disjoint
  have path := wc.path
  simp only [List.disjoint_cons_right] at authority path
  unfold hierarchyText
  split <;> simp_all

/-- The text of a URI with a valid scheme starts with a letter, so it is not blank. -/
theorem trimBlank_render_ne {u : Uri} (valid : validScheme u.scheme.toList = true) :
    Text.trimBlank u.render ≠ "" := by
  obtain ⟨c, rest, written, letter⟩ := letter_of_validScheme valid
  rw [Text.trimBlank, render_toList, written, List.cons_append, Ne, String.ofList_eq_empty_iff]
  exact Text.trimBlankList_ne_nil (Text.isBlank_of_isLetter letter) _

theorem cutFragment_append_ite {body : List Char} (absent : '#' ∉ body) (fragment : String) :
    cutFragment (body ++ if fragment = "" then [] else '#' :: fragment.toList) = (body, fragment) := by
  unfold cutFragment
  by_cases noFragment : fragment = ""
  · rw [if_pos noFragment, List.append_nil, Text.cutFirst_of_not_mem absent, noFragment]
  · rw [if_neg noFragment, Text.cutFirst_append_sep absent]
    dsimp only
    rw [String.ofList_toList]

theorem cutQuery_append_ite {body : List Char} (absent : '?' ∉ body) {q : Query} (wc : q.WellCut) :
    cutQuery (body ++ if q.size = 0 then [] else '?' :: q.render.toList) =
      (body, ⟨q.params.filter (· ≠ ("", ""))⟩) := by
  unfold cutQuery
  by_cases noQuery : q.size = 0
  · rw [if_pos noQuery, List.append_nil, Text.cutFirst_of_not_mem absent,
      List.eq_nil_of_length_eq_zero noQuery]
    rfl
  · rw [if_neg noQuery, Text.cutFirst_append_sep absent]
    dsimp only
    rw [Query.parse_render wc]

/-- Reading the text of a URI as reading leaves it gives its scheme, query (less its empty
arguments) and fragment back, and reads authority and path from the printed hierarchy. -/
theorem parse_render_eq {u : Uri} (wc : u.WellCut) :
    parse u.render = .ok
      { scheme := u.scheme, authority := (splitHierarchy u.hierarchyText).1,
        path := (splitHierarchy u.hierarchyText).2,
        query := ⟨u.query.params.filter (· ≠ ("", ""))⟩, fragment := u.fragment } := by
  have hierarchyFree := wc.hierarchyText_disjoint
  have queryFree : '?' ∉ u.hierarchyText := fun held => hierarchyFree held (by simp)
  have hashFree :
      '#' ∉ u.hierarchyText ++ (if u.query.size = 0 then [] else '?' :: u.query.render.toList) := by
    have queryHash := wc.query.hash_not_mem_render
    split <;> simp_all
  rw [parse_eq, if_neg (trimBlank_render_ne wc.scheme), render_toList,
    Text.cutFirst_append_sep (colon_not_mem_of_validScheme wc.scheme)]
  dsimp only
  rw [if_neg (by simp [wc.scheme]), ← List.append_assoc, cutFragment_append_ite hashFree,
    cutQuery_append_ite queryFree wc.query, String.ofList_toList]

/-- After an authority, the printed path is read back as it was, and the authority from its
text. -/
theorem splitHierarchy_of_authority {u : Uri} (wc : u.WellCut)
    (present : u.authority.isEmpty = false) :
    splitHierarchy u.hierarchyText = (Authority.parse u.authority.render.toList, u.path) := by
  have noSlash : '/' ∉ u.authority.render.toList :=
    fun held => wc.authority.render_disjoint held (by simp)
  have slashes : u.hierarchyText = ['/', '/'] ++ (u.authority.render.toList ++ u.path.toList) := by
    simp [hierarchyText, present]
  unfold splitHierarchy
  rw [slashes, Text.dropPrefix?_append]
  dsimp only
  rw [Text.cutFirst_append_of_not_mem noSlash]
  have rooted := wc.rooted present
  cases written : u.path.toList with
  | nil =>
    have noPath : u.path = "" := String.toList_eq_nil_iff.1 written
    simp [Text.cutFirst, noPath]
  | cons c rest =>
    rw [written] at rooted
    have slash : c = '/' := rooted c rfl
    subst slash
    have whole : u.path = String.ofList ('/' :: rest) := by rw [← written, String.ofList_toList]
    simp [Text.cutFirst, whole]

/-- With no authority, a path that does not start with `//` is read back as it was. -/
theorem splitHierarchy_of_empty {u : Uri} (empty : u.authority.isEmpty = true)
    (unslashed : ¬ ['/', '/'] <+: u.path.toList) :
    splitHierarchy u.hierarchyText = (u.authority, u.path) := by
  have plain : u.hierarchyText = u.path.toList := by simp [hierarchyText, empty]
  unfold splitHierarchy
  rw [plain, Text.dropPrefix?_of_not_prefix unslashed, eq_empty_of_isEmpty empty,
    String.ofList_toList]

/-- With no authority, a path that starts with `//` is read back shorter: its slashes are taken
for the start of an authority. -/
theorem path_splitHierarchy_ne {u : Uri} (empty : u.authority.isEmpty = true)
    (slashed : ['/', '/'] <+: u.path.toList) : (splitHierarchy u.hierarchyText).2 ≠ u.path := by
  obtain ⟨rest, written⟩ := slashed
  have plain : u.hierarchyText = ['/', '/'] ++ rest := by simp [hierarchyText, empty, written]
  have shorter : (splitHierarchy u.hierarchyText).2.toList.length ≤ rest.length := by
    unfold splitHierarchy
    rw [plain, Text.dropPrefix?_append]
    dsimp only
    split <;> simp
  intro same
  rw [same, ← written] at shorter
  simp at shorter

/-! #### Reading back -/

/-- The parts of a URI that its text keeps apart: a path that starts with `//` needs an
authority before it, a host with a `:` needs a port after it unless it ends with `]`, and an
argument needs a key or a value. -/
structure Reprints (u : Uri) : Prop where
  path : u.authority.isEmpty = true → ¬ ['/', '/'] <+: u.path.toList
  host : u.authority.port = "" → ':' ∈ u.authority.host.toList →
    u.authority.host.toList.getLast? = some ']'
  query : ("", "") ∉ u.query.params

/-- A URI as reading leaves it is read back from its text exactly when the text keeps its parts
apart. -/
theorem parse_render_self_iff_of_wellCut {u : Uri} (wc : u.WellCut) :
    parse u.render = .ok u ↔ u.Reprints := by
  rw [parse_render_eq wc]
  constructor
  · intro same
    have reread := Except.ok.inj same
    have authoritySame := congrArg Uri.authority reread
    have pathSame := congrArg Uri.path reread
    have querySame := congrArg (fun v => v.query.params) reread
    dsimp only at authoritySame pathSame querySame
    refine ⟨fun empty slashed => path_splitHierarchy_ne empty slashed pathSame,
      fun noPort colon => ?_, fun held => ?_⟩
    · by_contra unbracketed
      -- the host holds a `:`, so the authority is printed and read back from its text
      have hostWritten : u.authority.host ≠ "" := by
        rintro empty
        simp [empty] at colon
      have present : u.authority.isEmpty = false := by simp [Authority.isEmpty, hostWritten]
      rw [splitHierarchy_of_authority wc present] at authoritySame
      exact Authority.host_parse_render_ne noPort (List.disjoint_cons_right.1 wc.authority.host).1
        colon unbracketed (congrArg Authority.host authoritySame)
    · have kept := List.filter_eq_self.1 querySame _ held
      simp at kept
  · intro reprints
    have parts : splitHierarchy u.hierarchyText = (u.authority, u.path) := by
      cases present : u.authority.isEmpty
      · rw [splitHierarchy_of_authority wc present,
          Authority.parse_render wc.authority reprints.host]
      · exact splitHierarchy_of_empty present (reprints.path present)
    have kept : u.query.params.filter (· ≠ ("", "")) = u.query.params := by
      refine List.filter_eq_self.2 fun p held => ?_
      simp only [ne_eq, decide_eq_true_eq]
      rintro rfl
      exact reprints.query held
    rw [parts, kept]

/-- Reading the text of a URI that reading gave succeeds, keeps its scheme, its fragment and
its nonempty arguments, and gives the URI back exactly when the text keeps its parts apart. -/
theorem parse_render_of_parse {s : String} {u : Uri} (parsed : parse s = .ok u) :
    (∃ v, parse u.render = .ok v ∧ v.scheme = u.scheme ∧
      v.query.params = u.query.params.filter (· ≠ ("", "")) ∧ v.fragment = u.fragment) ∧
    (parse u.render = .ok u ↔ u.Reprints) := by
  have wc := wellCut_of_parse parsed
  exact ⟨⟨_, parse_render_eq wc, rfl, rfl, rfl⟩, parse_render_self_iff_of_wellCut wc⟩

theorem parse_render_of_parse_host_port :
    ∃ u, parse "imas://me@host:8080/db?run=3;user=x#top" = .ok u ∧
      (∃ v, parse u.render = .ok v ∧ v.scheme = u.scheme ∧
        v.query.params = u.query.params.filter (· ≠ ("", "")) ∧ v.fragment = u.fragment) ∧
      (parse u.render = .ok u ↔ u.Reprints) :=
  have parsed : parse "imas://me@host:8080/db?run=3;user=x#top" =
      .ok ⟨"imas", ⟨"me", "host", "8080"⟩, "/db", ⟨[("run", "3"), ("user", "x")]⟩, "top"⟩ := rfl
  ⟨_, parsed, parse_render_of_parse parsed⟩

/-- An empty authority before a path that starts with `//` does not survive printing: the
slashes of the path are read back as the start of an authority. -/
theorem slashed_path_reads_back_as_authority :
    parse "a:////p" = .ok { scheme := "a", path := "//p" } ∧
      parse (Uri.render { scheme := "a", path := "//p" }) =
        .ok { scheme := "a", authority := { host := "p" } } :=
  ⟨rfl, rfl⟩

end Uri

end AccessLayer
