import GoldenRun.Disk.Change
import GoldenRun.Execution.Spawn
import GoldenRun.Program

/-!
# The command line

The outer layer of the program.  It copies the trees that the program may look at onto a disk: the
one under the working directory, and each one that an argument names.  The program works on that
disk; then its answer is shown and what it changed is written back.

Commands run on the machine of `GoldenRun.spawn`, which has its own utilities and runs scripts.
Files that name their interpreter count as executable.
-/

namespace GoldenRun.Outer

open GoldenRun GoldenRun.Text

/-- The location of a path. -/
def locationOf (path : String) : Location := (Path.parts path).filter (· ≠ "")

/-- Whether a file names its interpreter. -/
def namesInterpreter (bytes : Bytes) : Bool := bytes.take 2 = [0x23, 0x21]

/-- The entries at and below a directory entry, the entry itself in front; what cannot be read is
left out. -/
partial def entriesAt (above : Location) (item : IO.FS.DirEntry) :
    IO (List (Location × Entry)) := do
  let location := above ++ [item.fileName]
  try
    match (← item.path.symlinkMetadata).type with
    | .dir =>
      let mut below := #[]
      for inner in ← item.path.readDir do
        below := below.push (← entriesAt location inner)
      return (location, .directory) :: below.toList.flatten
    | .file =>
      let bytes := (← IO.FS.readBinFile item.path).toList
      return [(location, .file bytes (namesInterpreter bytes))]
    | _ => return []
  catch _ => return []

/-- A disk with what stands at an absolute path. -/
def copyTree (disk : Disk) (path : String) : IO Disk := do
  let place ← IO.FS.realPath path
  let location := locationOf place.toString
  if ← place.isDir then
    let mut below := #[]
    for item in ← place.readDir do
      below := below.push (← entriesAt location item)
    let grown := disk.install location .directory
    return ⟨grown.entries ++ below.toList.flatten⟩
  else
    let bytes := (← IO.FS.readBinFile place).toList
    return disk.install location (.file bytes (namesInterpreter bytes))

/-- The absolute path of what an argument, or the part of it behind an equals sign, names. -/
def named (argument : String) : IO (List String) := do
  let mut found := []
  for word in argument.splitOn "=" do
    unless word = "" do
      try
        found := (← IO.FS.realPath word).toString :: found
      catch _ => pure ()
  return found

/-- The paths that are not below another one, each once. -/
def outermost (paths : List String) : List String :=
  let distinct := paths.eraseDups
  distinct.filter fun path => !distinct.any fun other =>
    other ≠ path && (locationOf other).isPrefixOf (locationOf path)

/-- The environment variables that the program itself looks at. -/
def environment : IO Environment := do
  let mut env := []
  for name in ["PATH", "HOME"] do
    if let some value ← IO.getEnv name then env := env ++ [(name, value)]
  return env

/-- The workspace that the program starts in. -/
def startingWorkspace (args : List String) : IO Workspace := do
  let here := (← IO.currentDir).toString
  let mut disk := Disk.empty
  let mut paths := [here]
  for argument in args do
    paths := paths ++ (← named argument)
  for path in outermost paths do
    disk ← copyTree disk path
  let equipped := Utility.installAll ["usr", "bin"] (Utility.installAll ["bin"] disk)
  return ⟨equipped, locationOf here, ← environment⟩

/-- Makes a change. -/
def writeBack : Change → IO Unit
  | .removed location => do
    let path := location.path
    let place ← IO.FS.realPath path
    if ← place.isDir then IO.FS.removeDirAll path
    else if ← place.pathExists then IO.FS.removeFile path
  | .written location .directory => IO.FS.createDirAll location.path
  | .written location (.file bytes executable) => do
    IO.FS.writeBinFile location.path ⟨bytes.toArray⟩
    if executable then
      let all : IO.AccessRight := ⟨true, true, true⟩
      let others : IO.AccessRight := ⟨true, false, true⟩
      IO.setAccessRights location.path ⟨all, others, others⟩

/-- Shows a piece of the answer. -/
def showPiece (piece : Piece) : IO Unit :=
  match piece.outlet with
  | .standard => IO.print piece.text
  | .diagnostic => IO.eprint piece.text

end GoldenRun.Outer

open GoldenRun GoldenRun.Outer in
/-- Carries out a command line. -/
def main (args : List String) : IO UInt32 := do
  let start ← startingWorkspace args
  let (answer, finish, ()) := program spawn args start ()
  for change in start.disk.changes finish.disk do
    writeBack change
  for piece in answer.pieces do
    showPiece piece
  return UInt32.ofNat answer.status.code
