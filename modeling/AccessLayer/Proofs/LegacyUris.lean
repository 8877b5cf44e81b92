import Mathlib
import AccessLayer.Context.Entry
import AccessLayer.Proofs.UriPrinting
/-!
Legacy parameters written as a URI, and the data entry that URI resolves to. `legacyUriText`
writes the token of a backend as the path, then `user`, `pulse`, `run`, `database` and the major
version as query arguments. When user, database and version hold none of `;`, `&` and `#`
(the text of a number holds only digits and `-`), reading that text gives exactly those five
arguments in order (`parse_legacy`), and resolving it takes the backend back from its token and
builds the path `root/database/major/pulse/run` (`resolve_legacy`), under the root the user
names: the shared tree for `public`, the user itself when it starts with `/`, and the user's
home tree otherwise (`legacyRoot_cases`). The main statement is `legacy_uri_resolves`; a
backend without a token has no legacy URI.
-/

namespace AccessLayer

/-! ### Printed numbers and versions -/

theorem toList_toString_ofNat (m : Nat) : (toString (Int.ofNat m)).toList = Nat.toDigits 10 m := by
  show (Int.repr (Int.ofNat m)).toList = _
  rw [Int.repr, Nat.toList_repr]

theorem toList_toString_negSucc (m : Nat) :
    (toString (Int.negSucc m)).toList = '-' :: Nat.toDigits 10 (m + 1) := by
  show (Int.repr (Int.negSucc m)).toList = _
  rw [Int.repr]
  simp [Nat.toList_repr]

/-- The text of an integer holds digits and a leading `-` only. -/
theorem not_mem_toString_int {n : Int} {c : Char} (notDigit : c.isDigit = false)
    (notMinus : c ≠ '-') : c ∉ (toString n).toList := by
  intro held
  cases n with
  | ofNat m =>
    rw [toList_toString_ofNat] at held
    have digit := Nat.isDigit_of_mem_toDigits (by decide) (by decide) held
    rw [notDigit] at digit
    cases digit
  | negSucc m =>
    rw [toList_toString_negSucc] at held
    rcases List.mem_cons.1 held with same | inDigits
    · exact notMinus same
    · have digit := Nat.isDigit_of_mem_toDigits (by decide) (by decide) inDigits
      rw [notDigit] at digit
      cases digit

/-- The major version holds no ASCII character that the version does not. -/
theorem not_mem_majorVersion {version : String} {c : Char} (absent : c ∉ version.toList)
    (ascii : c.toNat < 128) : c ∉ (majorVersion version).toList := by
  unfold majorVersion
  split
  · rw [String.toList_empty]
    exact List.not_mem_nil
  · next d rest written =>
    split
    · simp only [String.toList_singleton, List.mem_singleton]
      rintro rfl
      exact absent (by simp [written])
    · intro held
      have replacement : c = '�' := by simpa using held
      exact absurd (replacement ▸ ascii) (by decide)

/-! ### Backend tokens -/

namespace BackendId

/-- What resolving needs of the token of a backend: it holds none of the separators that reading
cuts at before the path, reads back as a path with no authority, and names the backend. -/
structure NamedBy (b : BackendId) (tok : String) : Prop where
  clean : tok.toList.Disjoint [':', '?', '#']
  split : Uri.splitHierarchy tok.toList = ({}, tok)
  pathToken : ∀ q : Query, DataEntry.pathToken ⟨"imas", {}, tok, q, ""⟩ = tok
  backend : ∀ q : Query, DataEntry.backendOf ⟨"imas", {}, tok, q, ""⟩ = .ok b

theorem namedBy_of_uriToken {b : BackendId} {tok : String} (token : b.uriToken = .ok tok) :
    b.NamedBy tok := by
  unfold uriToken at token
  -- one case per backend with a token, each settled by evaluation
  split_ifs at token with mds hdf asc mem uda <;> cases token
  all_goals subst_vars
  all_goals exact ⟨by simp, by simp [Uri.splitHierarchy, Text.dropPrefix?], fun q => by cbv,
    fun q => by cbv⟩

theorem uriToken_of_not_mem {b : BackendId}
    (unnamed : b ∉ [BackendId.ascii, .mdsplus, .hdf5, .memory, .uda]) :
    b.uriToken = .error (.context ("no URI backend token for " ++ b.name)) := by
  simp only [List.mem_cons, List.not_mem_nil, or_false, not_or] at unnamed
  obtain ⟨notAscii, notMdsplus, notHdf5, notMemory, notUda⟩ := unnamed
  unfold uriToken
  rw [if_neg notMdsplus, if_neg notHdf5, if_neg notAscii, if_neg notMemory, if_neg notUda]

theorem exists_uriToken {b : BackendId}
    (named : b ∈ [BackendId.ascii, .mdsplus, .hdf5, .memory, .uda]) :
    ∃ tok, b.uriToken = .ok tok := by
  simp only [List.mem_cons, List.not_mem_nil, or_false] at named
  rcases named with rfl | rfl | rfl | rfl | rfl <;> exact ⟨_, rfl⟩

end BackendId

/-! ### Reading and resolving the legacy text -/

theorem legacyUriText_of_uriToken {b : BackendId} {tok : String} (token : b.uriToken = .ok tok)
    (pulse run : Int) (user tokamak version : String) :
    legacyUriText b pulse run user tokamak version "" =
      .ok ("imas:" ++ tok ++ "?user=" ++ user ++ ";pulse=" ++ toString pulse ++ ";run=" ++
        toString run ++ ";database=" ++ tokamak ++ ";version=" ++ majorVersion version) := by
  simp [legacyUriText, token, bind, Except.bind]

/-- The arguments of a legacy URI, in the order it writes them. -/
def legacyArgs (user pulse run tokamak major : String) : List (String × String) :=
  [("user", user), ("pulse", pulse), ("run", run), ("database", tokamak), ("version", major)]

/-- Reading a legacy text gives the token as path and the five arguments as written. -/
theorem parse_legacy {b : BackendId} {tok : String} (named : b.NamedBy tok)
    {user pulse run tokamak major : String}
    (clean : ∀ v ∈ [user, pulse, run, tokamak, major], ∀ c ∈ [';', '&', '#'], c ∉ v.toList) :
    Uri.parse ("imas:" ++ tok ++ "?user=" ++ user ++ ";pulse=" ++ pulse ++ ";run=" ++ run ++
        ";database=" ++ tokamak ++ ";version=" ++ major) =
      .ok ⟨"imas", {}, tok, ⟨legacyArgs user pulse run tokamak major⟩, ""⟩ := by
  let text : String × String → List Char := fun p => p.1.toList ++ '=' :: p.2.toList
  have written : ("imas:" ++ tok ++ "?user=" ++ user ++ ";pulse=" ++ pulse ++ ";run=" ++ run ++
        ";database=" ++ tokamak ++ ";version=" ++ major).toList =
      ['i', 'm', 'a', 's'] ++ ':' :: (tok.toList ++ '?' ::
        [';'].intercalate ((legacyArgs user pulse run tokamak major).map text)) := by
    simp [legacyArgs, text, List.intercalate_cons_cons]
  simp only [List.mem_cons, List.not_mem_nil, or_false, forall_eq_or_imp, forall_eq] at clean
  have argsClean : ∀ p ∈ legacyArgs user pulse run tokamak major, ∀ c ∈ [';', '&', '#'],
      c ∉ text p := by
    simp [legacyArgs, text, clean]
  have reads : ∀ p ∈ legacyArgs user pulse run tokamak major, Query.paramOf (text p) = p := by
    intro p member
    refine Query.paramOf_append ?_ _
    simp only [legacyArgs, List.mem_cons, List.not_mem_nil, or_false] at member
    rcases member with rfl | rfl | rfl | rfl | rfl <;> simp
  -- every argument is written with its `=`, so none is empty
  have query : Query.parse ([';'].intercalate ((legacyArgs user pulse run tokamak major).map text)) =
      ⟨legacyArgs user pulse run tokamak major⟩ := by
    rw [Query.parse_intercalate _ text reads
      (fun p member => ⟨argsClean p member ';' (by simp), argsClean p member '&' (by simp)⟩)
      (by simp [legacyArgs]), List.filter_eq_self.2 fun p _ => by simp [text]]
  have hashFree : '#' ∉ tok.toList ++ '?' ::
      [';'].intercalate ((legacyArgs user pulse run tokamak major).map text) := by
    intro held
    simp only [List.mem_append, List.mem_cons] at held
    rcases held with inToken | same | inQuery
    · exact named.clean inToken (by simp)
    · exact absurd same (by decide)
    · exact Text.not_mem_intercalate_map (by decide)
        (fun p member => argsClean p member '#' (by simp)) inQuery
  have visible : Text.trimBlank ("imas:" ++ tok ++ "?user=" ++ user ++ ";pulse=" ++ pulse ++
      ";run=" ++ run ++ ";database=" ++ tokamak ++ ";version=" ++ major) ≠ "" := by
    rw [Text.trimBlank, written, Ne, String.ofList_eq_empty_iff]
    exact Text.trimBlankList_ne_nil (by decide) _
  rw [Uri.parse_eq, if_neg visible, written, Text.cutFirst_append_sep (by simp)]
  dsimp only
  rw [if_neg (by decide), Uri.cutFragment_of_not_mem hashFree,
    Uri.cutQuery_append (fun held => named.clean held (by simp)), named.split, query]

/-- Resolving a legacy URI keeps its backend and replaces its arguments by the path they name
under the user's root, or fails as the root does. -/
theorem resolve_legacy {b : BackendId} {tok text : String} (named : b.NamedBy tok)
    {user pulse run tokamak major : String}
    (parsed : Uri.parse text = .ok ⟨"imas", {}, tok, ⟨legacyArgs user pulse run tokamak major⟩, ""⟩)
    (env : Environment) (uid : Nat) :
    DataEntry.resolve env uid text = (DataEntry.legacyRoot env user).map fun root =>
      ⟨uid, ⟨"imas", {}, tok,
        ({} : Query).insert "path" ("/".intercalate [root, tokamak, major, pulse, run]), ""⟩, b⟩ := by
  -- no `backend` argument, so a `uda` token stays as it is
  have localized : DataEntry.localize env
      ⟨"imas", {}, tok, ⟨legacyArgs user pulse run tokamak major⟩, ""⟩ =
        ⟨"imas", {}, tok, ⟨legacyArgs user pulse run tokamak major⟩, ""⟩ := by
    have noBackend : Query.get? ⟨legacyArgs user pulse run tokamak major⟩ "backend" = none := by
      simp [Query.get?, legacyArgs, List.lookup]
    unfold DataEntry.localize
    simp only [noBackend, ite_self]
  unfold DataEntry.resolve
  rw [parsed]
  dsimp only
  unfold DataEntry.ofUri
  rw [localized]
  simp [named.backend, Query.contains, Query.get?, legacyArgs, DataEntry.ofLegacy,
    DataEntry.legacyArg, List.lookup, bind, Except.bind]
  cases DataEntry.legacyRoot env user <;> rfl

/-- The root a legacy user names, or why there is none. -/
theorem legacyRoot_cases (env : Environment) (user : String) :
    (user = "public" ∧ env.home = "" ∧ DataEntry.legacyRoot env user = .error .publicWithoutHome) ∨
    (user ≠ "public" ∧ user.startsWith "/" = false ∧
      (env.homeOf user = none ∨ env.homeOf user = some "") ∧
      DataEntry.legacyRoot env user = .error (.userDataUnreachable user)) ∨
    ∃ root, DataEntry.legacyRoot env user = .ok root ∧
      ((user = "public" ∧ env.home ≠ "" ∧ root = env.home ++ "/shared/imasdb") ∨
        (user ≠ "public" ∧ user.startsWith "/" = true ∧ root = user) ∨
        (user ≠ "public" ∧ user.startsWith "/" = false ∧
          ∃ home, env.homeOf user = some home ∧ home ≠ "" ∧ root = home ++ "/public/imasdb")) := by
  unfold DataEntry.legacyRoot
  by_cases shared : user = "public"
  · by_cases noHome : env.home = ""
    · exact .inl ⟨shared, noHome, by rw [if_pos shared, if_pos noHome]⟩
    · exact .inr (.inr ⟨_, by rw [if_pos shared, if_neg noHome], .inl ⟨shared, noHome, rfl⟩⟩)
  · cases absolute : user.startsWith "/"
    · cases found : env.homeOf user with
      | none => exact .inr (.inl ⟨shared, rfl, .inl rfl, by simp [shared]⟩)
      | some home =>
        by_cases noHome : home = ""
        · exact .inr (.inl ⟨shared, rfl, .inr (by rw [noHome]), by simp [shared, noHome]⟩)
        · exact .inr (.inr ⟨_, by simp [shared, noHome],
            .inr (.inr ⟨shared, rfl, home, rfl, noHome, rfl⟩)⟩)
    · exact .inr (.inr ⟨_, by simp [shared], .inr (.inl ⟨shared, rfl, rfl⟩)⟩)

/-! ### The legacy round trip -/

/-- The documented outcome of resolving the legacy URI of `user`, `database`, `major`, `pulse`
and `run` for backend `b`: it fails when `user` is `public` and there is no home, or when `user`
is neither `public` nor absolute and has no home directory; otherwise it is the entry of `b` at
`root/database/major/pulse/run`, where the root is the shared tree, the user itself, or the
user's home tree. -/
def LegacyResolution (env : Environment) (uid : Nat) (b : BackendId)
    (user database major pulse run : String) (result : Except EntryError DataEntry) : Prop :=
  (user = "public" ∧ env.home = "" ∧ result = .error .publicWithoutHome) ∨
  (user ≠ "public" ∧ user.startsWith "/" = false ∧
    (env.homeOf user = none ∨ env.homeOf user = some "") ∧
    result = .error (.userDataUnreachable user)) ∨
  ∃ root e, result = .ok e ∧ e.uid = uid ∧ e.backend = b ∧
    e.path = root ++ "/" ++ database ++ "/" ++ major ++ "/" ++ pulse ++ "/" ++ run ∧
    ((user = "public" ∧ env.home ≠ "" ∧ root = env.home ++ "/shared/imasdb") ∨
      (user ≠ "public" ∧ user.startsWith "/" = true ∧ root = user) ∨
      (user ≠ "public" ∧ user.startsWith "/" = false ∧
        ∃ home, env.homeOf user = some home ∧ home ≠ "" ∧ root = home ++ "/public/imasdb"))

/-- Legacy parameters free of `;`, `&` and `#` are written as a URI exactly when their backend
has a token, and that URI resolves as documented: to the backend and the path
`root/database/major/pulse/run`, or to the failure of the user's root. -/
theorem legacy_uri_resolves (b : BackendId) (pulse run : Int) (user tokamak version : String)
    (clean : ∀ c ∈ [';', '&', '#'], c ∉ user.toList ∧ c ∉ tokamak.toList ∧ c ∉ version.toList)
    (env : Environment) (uid : Nat) :
    (b ∉ [BackendId.ascii, .mdsplus, .hdf5, .memory, .uda] →
      legacyUriText b pulse run user tokamak version "" =
        .error (.context ("no URI backend token for " ++ b.name))) ∧
    (b ∈ [BackendId.ascii, .mdsplus, .hdf5, .memory, .uda] →
      ∃ text, legacyUriText b pulse run user tokamak version "" = .ok text ∧
        LegacyResolution env uid b user tokamak (majorVersion version) (toString pulse)
          (toString run) (DataEntry.resolve env uid text)) := by
  refine ⟨fun unnamed => ?_, fun named => ?_⟩
  · simp [legacyUriText, BackendId.uriToken_of_not_mem unnamed, bind, Except.bind]
  · obtain ⟨tok, token⟩ := BackendId.exists_uriToken named
    -- the printed numbers and the major version hold no separator either
    have valuesClean : ∀ v ∈ [user, toString pulse, toString run, tokamak, majorVersion version],
        ∀ c ∈ [';', '&', '#'], c ∉ v.toList := by
      intro v member c separator
      have separatorFacts : c.toNat < 128 ∧ c.isDigit = false ∧ c ≠ '-' := by
        simp only [List.mem_cons, List.not_mem_nil, or_false] at separator
        rcases separator with rfl | rfl | rfl <;> decide
      simp only [List.mem_cons, List.not_mem_nil, or_false] at member
      rcases member with rfl | rfl | rfl | rfl | rfl
      · exact (clean c separator).1
      · exact not_mem_toString_int separatorFacts.2.1 separatorFacts.2.2
      · exact not_mem_toString_int separatorFacts.2.1 separatorFacts.2.2
      · exact (clean c separator).2.1
      · exact not_mem_majorVersion (clean c separator).2.2 separatorFacts.1
    have tokenNamed := BackendId.namedBy_of_uriToken token
    have resolved := resolve_legacy tokenNamed (parse_legacy tokenNamed valuesClean) env uid
    refine ⟨_, legacyUriText_of_uriToken token pulse run user tokamak version, ?_⟩
    rw [resolved]
    have path : ∀ root, DataEntry.path ⟨uid, ⟨"imas", {}, tok, ({} : Query).insert "path"
        ("/".intercalate [root, tokamak, majorVersion version, toString pulse, toString run]), ""⟩,
          b⟩ = root ++ "/" ++ tokamak ++ "/" ++ majorVersion version ++ "/" ++
            toString pulse ++ "/" ++ toString run := by
      intro root
      simp [DataEntry.path, Query.insert, Query.setIn, Query.get?,
        String.intercalate_cons_cons, String.append_assoc]
    rcases legacyRoot_cases env user with ⟨shared, noHome, failed⟩ |
      ⟨other, relative, unknown, failed⟩ | ⟨root, found, rooted⟩
    · exact .inl ⟨shared, noHome, by rw [failed]; rfl⟩
    · exact .inr (.inl ⟨other, relative, unknown, by rw [failed]; rfl⟩)
    · exact .inr (.inr ⟨root, _, by rw [found]; rfl, rfl, rfl, path root, rooted⟩)

theorem legacy_public_hdf5_resolves :
    (∀ c ∈ [';', '&', '#'], c ∉ "public".toList ∧ c ∉ "iter".toList ∧ c ∉ "3.40".toList) ∧
      (BackendId.hdf5 ∉ [BackendId.ascii, .mdsplus, .hdf5, .memory, .uda] →
        legacyUriText .hdf5 134173 106 "public" "iter" "3.40" "" =
          .error (.context ("no URI backend token for " ++ BackendId.hdf5.name))) ∧
      (BackendId.hdf5 ∈ [BackendId.ascii, .mdsplus, .hdf5, .memory, .uda] →
        ∃ text, legacyUriText .hdf5 134173 106 "public" "iter" "3.40" "" = .ok text ∧
          LegacyResolution { home := "/work" } 1 .hdf5 "public" "iter" (majorVersion "3.40")
            (toString (134173 : Int)) (toString (106 : Int))
            (DataEntry.resolve { home := "/work" } 1 text)) :=
  have clean : ∀ c ∈ [';', '&', '#'],
      c ∉ "public".toList ∧ c ∉ "iter".toList ∧ c ∉ "3.40".toList := by simp
  ⟨clean, legacy_uri_resolves .hdf5 134173 106 "public" "iter" "3.40" clean { home := "/work" } 1⟩

end AccessLayer
