import AccessLayer.Uri.Basic
import AccessLayer.Modes
import AccessLayer.Failure
import AccessLayer.Environment
/-!
Data entries: a URI resolved to a backend. A remote URI served by a local host is first turned
into a local one; the backend is read from the path token; and a URI with neither a `path` nor a
`mapping` argument is given a path built from its legacy `user`, `database`, `version`, `pulse`
and `run` arguments. Each resolved entry gets a fresh identifier.
-/
namespace AccessLayer

/-- An open data entry: its identifier, resolved URI and backend. -/
structure DataEntry where
  uid : Nat
  uri : Uri
  backend : BackendId
  deriving Repr, Inhabited

/-- Why a URI does not resolve to a data entry. -/
inductive EntryError where
  | unparsable (raw : String)
  | noBackend
  | missingArgument (key : String)
  | pulseAndShot
  | publicWithoutHome
  | userDataUnreachable (user : String)
  | pathAndMapping
  deriving Repr, DecidableEq

/-- The failure reported for each reason, with its code. -/
def EntryError.failure : EntryError → Failure
  | .unparsable raw => .context ("Unable to parse the URI: " ++ raw)
  | .noBackend => .context "Unable to identify a backend from the URI"
  | .missingArgument key => .context ("'" ++ key ++
      "' is not specified in URI but it is required when path is not specified (legacy mode)")
  | .pulseAndShot => .context "Can't provide both 'pulse and 'shot', use just 'pulse' instead"
  | .publicWithoutHome =>
    .backend "when user is 'public', IMAS_HOME environment variable should be set."
  | .userDataUnreachable user => .backend ("Can't find or access " ++ user ++ " user's data")
  | .pathAndMapping => .context "URI cannot contain both path and mapping query arguments"

namespace DataEntry

/-- The path of a URI without its leading `/`. -/
def pathToken (u : Uri) : String :=
  if u.path.startsWith "/" then String.ofList (u.path.toList.drop 1) else u.path

/-- A URI `//host/uda?backend=b` whose host is local becomes the local URI `imas:b` with the
other arguments and the fragment. -/
def localize (env : Environment) (u : Uri) : Uri :=
  if pathToken u ≠ "uda" then u
  else
    match u.query.get? "backend" with
    | some b =>
      if env.isLocalHost u.authority.host then
        { scheme := "imas", path := b, query := u.query.erase "backend", fragment := u.fragment }
      else u
    | none => u

/-- The backend named by the path token; a URI with a host, or the token `uda`, is remote. -/
def backendOf (u : Uri) : Except EntryError BackendId :=
  let tok := pathToken u
  if tok = "mdsplus" then .ok .mdsplus
  else if tok = "hdf5" then .ok .hdf5
  else if tok = "ascii" then .ok .ascii
  else if tok = "memory" then .ok .memory
  else if tok = "serialize" then .ok .serialize
  else if tok = "uda" || u.authority.host ≠ "" then .ok .uda
  else .error .noBackend

/-- A required legacy argument. -/
def legacyArg (u : Uri) (key : String) : Except EntryError String :=
  match u.query.get? key with
  | some v => .ok v
  | none => .error (.missingArgument key)

/-- The root of a user's database tree: the shared tree for `public`, the user itself when it
is an absolute path, and the user's home tree otherwise. -/
def legacyRoot (env : Environment) (user : String) : Except EntryError String :=
  if user = "public" then
    if env.home = "" then .error .publicWithoutHome else .ok (env.home ++ "/shared/imasdb")
  else if user.startsWith "/" then .ok user
  else
    match env.homeOf user with
    | some home => if home = "" then .error (.userDataUnreachable user)
      else .ok (home ++ "/public/imasdb")
    | none => .error (.userDataUnreachable user)

/-- The URI with its legacy arguments replaced by the path they designate:
`root/database/version/pulse/run`. `shot` may stand for `pulse`, but not beside it. -/
def ofLegacy (env : Environment) (u : Uri) : Except EntryError Uri := do
  let user ← legacyArg u "user"
  let database ← legacyArg u "database"
  let version ← legacyArg u "version"
  let pulse ← match u.query.get? "pulse", u.query.get? "shot" with
    | some _, some _ => .error .pulseAndShot
    | _, some s => .ok s
    | some p, none => .ok p
    | none, none => .error (.missingArgument "pulse")
  let run ← legacyArg u "run"
  let root ← legacyRoot env user
  let path := "/".intercalate [root, database, version, pulse, run]
  .ok { scheme := u.scheme, authority := u.authority, path := u.path,
        query := ({} : Query).insert "path" path }

/-- Resolves a parsed URI to a data entry numbered `uid`. -/
def ofUri (env : Environment) (uid : Nat) (u : Uri) : Except EntryError DataEntry := do
  let u := localize env u
  let backend ← backendOf u
  let hasPath := u.query.contains "path"
  let hasMapping := u.query.contains "mapping"
  let u ← if !hasPath && !hasMapping then ofLegacy env u else .ok u
  if hasPath && hasMapping then .error .pathAndMapping
  else .ok ⟨uid, u, backend⟩

/-- Parses and resolves a URI text to a data entry numbered `uid`. -/
def resolve (env : Environment) (uid : Nat) (raw : String) : Except EntryError DataEntry :=
  match Uri.parse raw with
  | .error _ => .error (.unparsable raw)
  | .ok u => ofUri env uid u

/-- The `path` argument of the resolved URI, empty when there is none. -/
def path (e : DataEntry) : String := (e.uri.query.get? "path").getD ""

/-- The first lines of every context description: the identifier and the URI. -/
def render (e : DataEntry) : String :=
  "context_uid \t\t = " ++ toString e.uid ++ "\nuri \t\t\t = " ++ e.uri.render ++ "\n"

end DataEntry

/-- The path token of a backend that URIs can name. -/
def BackendId.uriToken (b : BackendId) : Except Failure String :=
  if b = .mdsplus then .ok "mdsplus"
  else if b = .hdf5 then .ok "hdf5"
  else if b = .ascii then .ok "ascii"
  else if b = .memory then .ok "memory"
  else if b = .uda then .ok "uda"
  else .error (.context ("no URI backend token for " ++ b.name))

/-- The first character of a version text as it is written into a legacy URI: one byte of its
encoding, so a character beyond ASCII leaves an incomplete one, shown as the replacement
character. -/
def majorVersion (version : String) : String :=
  match version.toList with
  | [] => ""
  | c :: _ => if c.toNat < 128 then String.singleton c else "�"

/-- The URI text of legacy parameters: backend token, user, pulse, run, database, the major
version, and extra options after `;`. -/
def legacyUriText (backend : BackendId) (pulse run : Int) (user tokamak version opts : String) :
    Except Failure String := do
  let tok ← backend.uriToken
  let s := "imas:" ++ tok ++ "?user=" ++ user ++ ";pulse=" ++ toString pulse ++ ";run=" ++
    toString run ++ ";database=" ++ tokamak ++ ";version=" ++ majorVersion version
  .ok (if opts = "" then s else s ++ ";" ++ opts)

end AccessLayer
