import AccessLayer.Uri.Query
import AccessLayer.Text.Blank
/-!
Data entry URIs of the form `scheme:[//authority]path[?query][#fragment]`. Keys and values are
kept as written, without percent decoding. Reading cuts the fragment at the first `#`, then the
query at the first `?`, then an authority introduced by `//` up to the next `/`; what is left is
the path. `Uri.render` assembles the parts again.
-/
namespace AccessLayer

/-- The user, host and port part of a URI. -/
structure Authority where
  userInfo : String := ""
  host : String := ""
  port : String := ""
  deriving Repr, DecidableEq, Inhabited

namespace Authority

/-- Whether no part of the authority was given. -/
def isEmpty (a : Authority) : Bool := a.userInfo = "" && a.host = "" && a.port = ""

/-- The text `user@host:port`, each separator written only with its part. -/
def render (a : Authority) : String :=
  (if a.userInfo = "" then "" else a.userInfo ++ "@") ++ a.host ++
    (if a.port = "" then "" else ":" ++ a.port)

/-- Reads an authority: the user info ends at the last `@`, and the port starts after the
last `:` unless the host is a bracketed address. -/
def parse (s : List Char) : Authority :=
  let (userInfo, hostPort) := match Text.cutLast '@' s with
    | some (u, rest) => (String.ofList u, rest)
    | none => ("", s)
  match Text.cutLast ':' hostPort with
  | some (h, p) =>
    if hostPort.getLast? = some ']' then ⟨userInfo, String.ofList hostPort, ""⟩
    else ⟨userInfo, String.ofList h, String.ofList p⟩
  | none => ⟨userInfo, String.ofList hostPort, ""⟩

end Authority

/-- A parsed data entry URI. -/
structure Uri where
  scheme : String
  authority : Authority := {}
  path : String := ""
  query : Query := {}
  fragment : String := ""
  deriving Repr, DecidableEq, Inhabited

/-- Why a text is not a URI. -/
inductive UriError where
  | empty
  | noScheme
  | badScheme
  deriving Repr, DecidableEq

/-- The text of each reason. -/
def UriError.message : UriError → String
  | .empty => "empty URI"
  | .noScheme => "URI has no scheme"
  | .badScheme => "invalid URI scheme"

namespace Uri

/-- Whether `c` is an ASCII letter. -/
def isLetter (c : Char) : Bool := ('a' ≤ c && c ≤ 'z') || ('A' ≤ c && c ≤ 'Z')

/-- A scheme is a letter followed by letters, digits, `+`, `-` and `.`. -/
def validScheme : List Char → Bool
  | [] => false
  | c :: rest => isLetter c &&
    rest.all fun d => isLetter d || ('0' ≤ d && d ≤ '9') || d = '+' || d = '-' || d = '.'

/-- The authority and path of the text between the scheme and the query. -/
def splitHierarchy (rest : List Char) : Authority × String :=
  match Text.dropPrefix? ['/', '/'] rest with
  | some afterSlashes =>
    match Text.cutFirst '/' afterSlashes with
    | some (auth, _) =>
      (Authority.parse auth, String.ofList (afterSlashes.drop auth.length))
    | none => (Authority.parse afterSlashes, "")
  | none => ({}, String.ofList rest)

/-- Reads a URI. A text that is blank, has no `:`, or whose scheme is not valid is refused. -/
def parse (s : String) : Except UriError Uri :=
  if Text.trimBlank s = "" then .error .empty
  else
    match Text.cutFirst ':' s.toList with
    | none => .error .noScheme
    | some (scheme, rest) =>
      if !validScheme scheme then .error .badScheme
      else
        let (rest, fragment) := match Text.cutFirst '#' rest with
          | some (r, f) => (r, String.ofList f)
          | none => (rest, "")
        let (rest, query) := match Text.cutFirst '?' rest with
          | some (r, q) => (r, Query.parse q)
          | none => (rest, {})
        let (authority, path) := splitHierarchy rest
        .ok { scheme := String.ofList scheme, authority, path, query, fragment }

/-- The text of a URI: the scheme, `//` and the authority when there is one, the path, the
query after `?` when it has arguments, and the fragment after `#` when it is not empty. -/
def render (u : Uri) : String :=
  u.scheme ++ ":" ++ (if u.authority.isEmpty then "" else "//" ++ u.authority.render) ++ u.path ++
    (if u.query.size = 0 then "" else "?" ++ u.query.render) ++
    (if u.fragment = "" then "" else "#" ++ u.fragment)

end Uri

end AccessLayer
