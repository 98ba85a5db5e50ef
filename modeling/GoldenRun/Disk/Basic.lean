import GoldenRun.Association
import GoldenRun.Path
import GoldenRun.Text.Utf8

/-!
# A disk

A disk is a tree of directories and files, held as the list of its entries below the root.  An
entry is found by its `Location`, the names that lead to it from the root.  Changing an entry
keeps its place in the list, so writing a file that is there never reorders a directory.

There are directories and files and nothing else: no links, devices or pipes.  Names are
well-formed text, so bytes that decode to nothing do not occur in them.  Permissions do not count,
except that a file may be marked as executable; whoever works on a disk may read, write and enter
everything.
-/

namespace GoldenRun

open GoldenRun.Text

/-- The names that lead from the root to an entry. -/
abbrev Location := List String

/-- The absolute path of a location. -/
def Location.path (location : Location) : String := "/" ++ joinStrings "/" location

/-- What stands at a location. -/
inductive Entry where
  /-- A directory. -/
  | directory
  /-- A file, which may be marked as executable. -/
  | file (bytes : Bytes) (executable : Bool)
  deriving DecidableEq, Repr, Inhabited

/-- A tree of files and directories. -/
structure Disk where
  /-- The entries below the root. -/
  entries : List (Location × Entry)
  deriving DecidableEq, Repr, Inhabited

namespace Disk

/-- The disk on which nothing stands but the root. -/
def empty : Disk := ⟨[]⟩

/-- The entry at a location; the root is always a directory. -/
def get? (disk : Disk) (location : Location) : Option Entry :=
  if location = [] then some .directory
  else (disk.entries.find? (·.1 = location)).map (·.2)

/-- Whether a location is a directory. -/
def isDirectory (disk : Disk) (location : Location) : Bool :=
  disk.get? location = some .directory

/-- The names in a directory. -/
def names (disk : Disk) (location : Location) : List String :=
  disk.entries.filterMap fun e =>
    match e.1.reverse with
    | [] => none
    | name :: above => if above.reverse = location then some name else none

/-- The disk with an entry at a location. -/
def put (disk : Disk) (location : Location) (entry : Entry) : Disk :=
  if disk.entries.any (·.1 = location) then
    ⟨disk.entries.map fun e => if e.1 = location then (location, entry) else e⟩
  else ⟨disk.entries ++ [(location, entry)]⟩

/-- Below the root, the entry put at a location stands there, and no other entry changes. -/
theorem get?_put (disk : Disk) {location : Location} (below : location ≠ []) (entry : Entry)
    (other : Location) :
    (disk.put location entry).get? other =
      if other = location then some entry else disk.get? other := by
  obtain ⟨entries⟩ := disk
  by_cases root : other = []
  · have apart : other ≠ location := fun same => below (same ▸ root)
    rw [if_neg apart]
    simp [get?, root]
  · unfold put get?
    rw [if_neg root, if_neg root]
    split
    · next there =>
      by_cases same : other = location
      · subst same
        rw [find?_replaced_self there, if_pos rfl]
        rfl
      · rw [find?_replaced entries same, if_neg same]
    · next absent =>
      rw [find?_added absent, apply_ite (Option.map _)]
      rfl

/-- The disk without a location and all that is below it. -/
def remove (disk : Disk) (location : Location) : Disk :=
  ⟨disk.entries.filter fun e => !location.isPrefixOf e.1⟩

/-- The disk with an entry at a location, and with directories wherever one is missing on the way
to it. -/
def install (disk : Disk) (location : Location) (entry : Entry) : Disk :=
  let above := (List.range location.length).map location.take
  let grown := above.foldl
    (fun d l => if (d.get? l).isSome then d else d.put l .directory) disk
  if location = [] then grown
  else match entry, grown.get? location with
    | .directory, some .directory => grown
    | _, _ => grown.put location entry

end Disk

/-- Why an operation on a disk fails. -/
inductive DiskFault where
  /-- A name on the way is missing. -/
  | notFound
  /-- A file stands where a directory is needed. -/
  | notDirectory
  /-- A directory stands where a file is needed. -/
  | isDirectory
  /-- A name or a path is too long. -/
  | nameTooLong
  /-- A path fills all the space for it, and leaves none for its end. -/
  | noBufferSpace
  /-- A path is longer than all the space for it. -/
  | outOfRange
  /-- The file may not be used so. -/
  | accessDenied
  deriving DecidableEq, Repr

namespace DiskFault

/-- The short code of a fault. -/
def code : DiskFault → String
  | .notFound => "ENOENT"
  | .notDirectory => "ENOTDIR"
  | .isDirectory => "EISDIR"
  | .nameTooLong => "ENAMETOOLONG"
  | .noBufferSpace => "ENOBUFS"
  | .outOfRange => "ERANGE"
  | .accessDenied => "EACCES"

/-- The words for a fault. -/
def words : DiskFault → String
  | .notFound => "no such file or directory"
  | .notDirectory => "not a directory"
  | .isDirectory => "illegal operation on a directory"
  | .nameTooLong => "name too long"
  | .noBufferSpace => "no buffer space available"
  | .outOfRange => "result too large"
  | .accessDenied => "permission denied"

end DiskFault

/-- What a path leads to. -/
inductive Place where
  /-- An entry. -/
  | present (location : Location) (entry : Entry)
  /-- Nothing, in a directory that exists; the path may end in a slash. -/
  | absent (location : Location) (trailingSlash : Bool)
  deriving DecidableEq, Repr

namespace Disk

/-- Follows names from a directory. -/
def follow (disk : Disk) (trailingSlash : Bool) : Location → List String → Except DiskFault Place
  | here, [] => .ok (.present here .directory)
  | here, name :: rest =>
    if name = "." then follow disk trailingSlash here rest
    else if name = ".." then follow disk trailingSlash here.dropLast rest
    else if 255 < name.utf8ByteSize then .error .nameTooLong
    else
      let next := here ++ [name]
      match disk.get? next with
      | none => if rest = [] then .ok (.absent next trailingSlash) else .error .notFound
      | some (.file bytes executable) =>
        if rest = [] && !trailingSlash then .ok (.present next (.file bytes executable))
        else .error .notDirectory
      | some .directory => follow disk trailingSlash next rest

/-- What a path leads to from the directory `cwd`. -/
def locate (disk : Disk) (cwd : Location) (path : String) : Except DiskFault Place :=
  let start := if Path.isAbsolute path then [] else cwd
  if path = "" then .error .notFound
  else if 4096 ≤ path.utf8ByteSize then .error .nameTooLong
  else if !disk.isDirectory start then .error .notFound
  else
    follow disk (path.toList.getLast? = some '/') start ((Path.parts path).filter (· ≠ ""))

/-- The entry that a path leads to, with its location. -/
def find (disk : Disk) (cwd : Location) (path : String) : Except DiskFault (Location × Entry) :=
  match disk.locate cwd path with
  | .ok (.present location entry) => .ok (location, entry)
  | .ok (.absent _ _) => .error .notFound
  | .error fault => .error fault

end Disk

end GoldenRun
