import GoldenRun.Disk.Basic
import GoldenRun.Text.Inspected

/-!
# Operations on a disk

Reading, listing and copying files, entering directories and telling where one is.  An operation
that fails says which call failed, why, and on which paths; a call with two paths counts the first
as its path and the second as its destination.
-/

namespace GoldenRun

open GoldenRun.Text

/-- A failed operation on a disk. -/
inductive DiskError where
  /-- A call failed. -/
  | failed (fault : DiskFault) (call : String) (path : Option String) (destination : Option String)
  /-- A path holds the character NUL. -/
  | nulInPath (argument : String) (path : String)
  deriving DecidableEq, Repr

namespace DiskError

/-- The short code of an error. -/
def code : DiskError → String
  | .failed fault .. => fault.code
  | .nulInPath .. => "ERR_INVALID_ARG_VALUE"

/-- The path that an error names. -/
def path? : DiskError → Option String
  | .failed _ _ path _ => path
  | .nulInPath .. => none

/-- The message of an error. -/
def message : DiskError → String
  | .failed fault call path destination =>
    fault.code ++ ": " ++ fault.words ++ ", " ++ call ++
      path.elim "" (fun p => " '" ++ p ++ "'") ++ destination.elim "" fun d => " -> '" ++ d ++ "'"
  | .nulInPath argument path =>
    "The argument '" ++ argument ++
      "' must be a string, Uint8Array, or URL without null bytes. Received " ++ inspected path

end DiskError

namespace Disk

/-- Whether a path holds the character NUL. -/
def hasNul (path : String) : Bool := path.toList.contains '\x00'

/-- Whether a path leads to anything. -/
def hasEntry (disk : Disk) (cwd : Location) (path : String) : Bool :=
  !hasNul path && (disk.find cwd path).toOption.isSome

/-- Whether a path leads to a file. -/
def isFile (disk : Disk) (cwd : Location) (path : String) : Bool :=
  !hasNul path &&
    match disk.find cwd path with
    | .ok (_, .file _ _) => true
    | _ => false

/-- The bytes of a file. -/
def read (disk : Disk) (cwd : Location) (path : String) : Except DiskError Bytes :=
  if hasNul path then .error (.nulInPath "path" path)
  else match disk.find cwd path with
    | .ok (_, .file bytes _) => .ok bytes
    | .ok (_, .directory) => .error (.failed .isDirectory "read" none none)
    | .error fault => .error (.failed fault "open" (some path) none)

/-- The text of a file. -/
def readText (disk : Disk) (cwd : Location) (path : String) : Except DiskError String :=
  (disk.read cwd path).map decode

/-- The names in a directory. -/
def list (disk : Disk) (cwd : Location) (path : String) : Except DiskError (List String) :=
  if hasNul path then .error (.nulInPath "path" path)
  else match disk.find cwd path with
    | .ok (location, .directory) => .ok (disk.names location)
    | .ok (_, .file _ _) => .error (.failed .notDirectory "scandir" (some path) none)
    | .error fault => .error (.failed fault "scandir" (some path) none)

/-- Where a copy may be written. -/
def destination (disk : Disk) (cwd : Location) (path : String) : Except DiskFault Location :=
  match disk.locate cwd path with
  | .ok (.present location (.file _ _)) => .ok location
  | .ok (.present _ .directory) => .error .isDirectory
  | .ok (.absent location trailingSlash) =>
    if trailingSlash then .error .isDirectory else .ok location
  | .error fault => .error fault

/-- Copies a file over another one or to a new place, with its executable mark.  A file copied
over itself is left alone.  The source is opened before the destination; that it is a directory
shows only when it is read, and then the destination is taken away again. -/
def copy (disk : Disk) (cwd : Location) (source target : String) : Except DiskError Unit × Disk :=
  let fail (fault : DiskFault) : Except DiskError Unit :=
    .error (.failed fault "copyfile" (some source) (some target))
  if hasNul source then (.error (.nulInPath "src" source), disk)
  else if hasNul target then (.error (.nulInPath "dest" target), disk)
  else match disk.find cwd source, disk.destination cwd target with
    | .error fault, _ => (fail fault, disk)
    | .ok _, .error fault => (fail fault, disk)
    | .ok (origin, .file bytes executable), .ok goal =>
      (.ok (), if origin = goal then disk else disk.put goal (.file bytes executable))
    | .ok (_, .directory), .ok goal => (fail .isDirectory, disk.remove goal)

/-- The part of a path that the system sees: it takes NUL for the end. -/
def upToNul (path : String) : String := String.ofList (path.toList.takeWhile (· ≠ '\x00'))

/-- The directory that a path leads to; the error names the directory that was to be left. -/
def enter (disk : Disk) (cwd : Location) (path : String) : Except DiskError Location :=
  let path := upToNul path
  let fail (fault : DiskFault) : Except DiskError Location :=
    .error (.failed fault "chdir" (some cwd.path) (some path))
  match disk.find cwd path with
  | .ok (location, .directory) => .ok location
  | .ok (_, .file _ _) => fail .notDirectory
  | .error fault => fail fault

end Disk

/-- The path of the directory that one works in, as the system tells it.  It has space for a path
that can be used, and no more.  The directory is taken to be there. -/
def Location.workingPath (cwd : Location) : Except DiskError String :=
  let path := Disk.upToNul cwd.path
  let fail (fault : DiskFault) : Except DiskError String :=
    .error (.failed fault "uv_cwd" none none)
  if path.utf8ByteSize < 4096 then .ok path
  else if path.utf8ByteSize = 4096 then fail .noBufferSpace
  else fail .outOfRange

end GoldenRun
