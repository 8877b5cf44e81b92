/-!
Paths as text, taken apart without looking at what is stored. Cleaning keeps a path's meaning
and drops what is redundant: empty and `.` components vanish and `..` cancels the component
before it, so that a cleaned path has `..` only at the front of a relative path. The working
directory is `.` and the root is `/`.

Besides cleaning there are the two ways of cutting a path into a directory and a last name that
the disk calls use: `mkdirParent`, which keeps repeated slashes, and `splitLast`, which drops
leading repeated slashes first.
-/
namespace AccessLayer.Disk

/-- Pushes one component on a stack of cleaned components, top first. -/
def push (rooted : Bool) (stack : List String) (c : String) : List String :=
  if c = "" || c = "." then stack
  else if c = ".." then
    match stack with
    | top :: rest => if top = ".." then ".." :: stack else rest
    | [] => if rooted then [] else [".."]
  else c :: stack

/-- Whether a path starts at the root. -/
def rooted (p : String) : Bool := p.startsWith "/"

/-- The components of the cleaned path, in order. The path is split at every slash, empty parts
included. -/
def cleanParts (p : String) : List String :=
  (((p.toList.splitOn '/').map String.ofList).foldl (push (rooted p)) []).reverse

/-- The shortest path with the same meaning: `.` for the working directory, `/` for the root. -/
def clean (p : String) : String :=
  let body := "/".intercalate (cleanParts p)
  if rooted p then "/" ++ body
  else if body = "" then "." else body

/-- `name` inside `dir`, cleaned; empty parts are left out. -/
def join (dir name : String) : String :=
  if dir = "" then (if name = "" then "" else clean name)
  else if name = "" then clean dir
  else clean (dir ++ "/" ++ name)

/-- The directory of a path: everything up to its last slash, cleaned. -/
def dirOf (p : String) : String :=
  match (p.toList.reverse.dropWhile (· ≠ '/')) with
  | [] => "."
  | rest => clean (String.ofList rest.reverse)

/-- The directory to make before `p`: `p` without trailing slashes and its last name, keeping
the slashes before it but the last; empty when there is none. -/
def mkdirParent (p : String) : String :=
  match (p.toList.reverse.dropWhile (· = '/')).dropWhile (· ≠ '/') with
  | [] => ""
  | _ :: rest => String.ofList rest.reverse

/-- `p` with repeated leading slashes cut to one and trailing slashes removed, the path's last
character kept. -/
def trimSlashes (p : String) : List Char :=
  let rec lead : List Char → List Char
    | '/' :: '/' :: rest => lead ('/' :: rest)
    | cs => cs
  let cs := lead p.toList
  let rec trail : List Char → List Char
    | [] => []
    | c :: rest => if c = '/' && rest.length > 0 then trail rest else c :: rest
  (trail cs.reverse).reverse

/-- A path split into its directory and last name: `.` when there is no slash, `/` when the
only slash leads. -/
def splitLast (p : String) : String × String :=
  let cs := trimSlashes p
  match cs.reverse with
  | [] => (".", "")
  | last :: before =>
    match before.findIdx? (· = '/') with
    | none => (".", String.ofList cs)
    | some j =>
      let i := before.length - 1 - j
      (if i = 0 then "/" else String.ofList (cs.take i),
       String.ofList ((before.take j).reverse ++ [last]))

/-- Whether a path names `.` or ends in `/.`. -/
def endsWithDot (p : String) : Bool := p = "." || p.endsWith "/."

end AccessLayer.Disk
