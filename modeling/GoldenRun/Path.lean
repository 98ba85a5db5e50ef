import GoldenRun.Text.Split

/-!
# Paths as text

A path is a text whose parts are separated by slashes.  The operations here look at the text
alone, never at a disk: empty parts and `.` are dropped, and `..` takes away the part before it.
A relative path may begin with `..` parts; an absolute one cannot climb above the root.
-/

namespace GoldenRun.Path

open GoldenRun.Text

/-- Whether a path begins at the root. -/
def isAbsolute (path : String) : Bool := path.toList.head? = some '/'

/-- The parts of a path between its slashes. -/
def parts (path : String) : List String := splitString '/' path

/-- One more part laid on the parts so far, the last of them in front. -/
def layPart (canClimb : Bool) (stack : List String) (part : String) : List String :=
  if part = "" ∨ part = "." then stack
  else if part = ".." then
    match stack with
    | [] => if canClimb then [".."] else []
    | top :: below => if top = ".." then ".." :: stack else below
  else part :: stack

/-- The parts that remain once `.` and `..` are carried out. -/
def collapse (canClimb : Bool) (parts : List String) : List String :=
  (parts.foldl (layPart canClimb) []).reverse

/-- A path without superfluous parts; a slash at its end is kept. -/
def normalize (path : String) : String :=
  if path = "" then "."
  else
    let absolute := isAbsolute path
    let trailing := path.toList.getLast? = some '/'
    let body := joinStrings "/" (collapse (!absolute) (parts path))
    let body := if body = "" then (if absolute then "" else ".") else body
    let body := if trailing ∧ ¬ (absolute ∧ body = "") then body ++ "/" else body
    if absolute then "/" ++ body else body

/-- Several paths written one behind the other. -/
def joinAll (paths : List String) : String :=
  normalize (joinStrings "/" (paths.filter (· ≠ "")))

/-- One path written behind another. -/
def join (base path : String) : String := joinAll [base, path]

/-- The parts of the absolute path that `path` means in the directory `cwd`. -/
def absoluteParts (cwd path : String) : List String :=
  collapse false (if isAbsolute path then parts path else parts cwd ++ parts path)

/-- The absolute path that `path` means in the directory `cwd`. -/
def absolute (cwd path : String) : String := "/" ++ joinStrings "/" (absoluteParts cwd path)

/-- Two lists without their longest common beginning. -/
def dropCommon : List String → List String → List String × List String
  | a :: as, b :: bs => if a = b then dropCommon as bs else (a :: as, b :: bs)
  | as, bs => (as, bs)

/-- The path that leads from one directory to another path. -/
def relative (cwd base path : String) : String :=
  if base = path then ""
  else
    let (up, down) := dropCommon (absoluteParts cwd base) (absoluteParts cwd path)
    joinStrings "/" (up.map (fun _ => "..") ++ down)

/-- The path up to the last slash that has a part behind it. -/
def directory (path : String) : String :=
  match path.toList with
  | [] => "."
  | first :: rest =>
    match (rest.reverse.dropWhile (· = '/')).dropWhile (· ≠ '/') with
    | [] => if first = '/' then "/" else "."
    | _ :: before =>
      if first = '/' ∧ before = [] then "//" else String.ofList (first :: before.reverse)

/-- A file name without the ending `extension`. -/
def stem (extension name : String) : String :=
  String.ofList (name.toList.take (name.toList.length - extension.toList.length))

/-- A path with the home directory in the place of a leading `~`. -/
def expandHome (home path : String) : String :=
  match path.toList with
  | ['~'] => home
  | '~' :: '/' :: rest => join home (String.ofList rest)
  | _ => path

/-- The path that leads from a root to another path, with every backslash turned into a slash. -/
def rootRelative (cwd path root : String) : String :=
  String.ofList ((relative cwd root path).toList.map fun c => if c = '\\' then '/' else c)

end GoldenRun.Path
