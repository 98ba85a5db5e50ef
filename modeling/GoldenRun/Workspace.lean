import GoldenRun.Disk.Operations
import GoldenRun.Execution.Basic

/-!
# Where the harness works

The surroundings of the harness: a disk, a working directory on it and an environment.  Relative
paths are read from the working directory.
-/

namespace GoldenRun

/-- A disk, a working directory and an environment. -/
structure Workspace where
  /-- The disk. -/
  disk : Disk
  /-- The working directory, which is taken to be there. -/
  cwd : Location
  /-- The environment. -/
  env : Environment
  deriving DecidableEq, Repr, Inhabited

namespace Workspace

/-- The home directory.  Where the environment does not tell it, the system would look the user up;
`/root` stands for what it finds, and the look-up is taken not to fail. -/
def home (w : Workspace) : String := (w.env.get? "HOME").getD "/root"

/-- The absolute path that a path means here. -/
def absolute (w : Workspace) (path : String) : String := Path.absolute w.cwd.path path

/-- The root of the fixture tree: the working directory, unless another is named. -/
def fixturesRoot (w : Workspace) (override : Option String) : String :=
  match override with
  | some path => if path = "" then w.absolute w.cwd.path else w.absolute path
  | none => w.absolute w.cwd.path

end Workspace

end GoldenRun
