import GoldenRun.Build.Basic
import GoldenRun.Config.Schema
import GoldenRun.Workspace
import GoldenRun.Yaml.Document

/-!
# Loading the configuration

The configuration of a fixture tree stands in a file in its root, or in a file that is named.  A
named file must exist; where the other one is missing, everything is as in `Config.default`.  A
file that cannot be parsed, says anything unknown, or has a build command that cannot be filled in
is refused.
-/

namespace GoldenRun

/-- The name of the configuration file in a root. -/
def configFileName : String := "golden-trace.yml"

/-- The path of the configuration file. -/
def configPath (w : Workspace) (root : String) (named : Option String) : String :=
  match named with
  | some path => w.absolute path
  | none => Path.join root configFileName

/-- The problem with a named file that does not exist. -/
def missingFileProblem : String := "file does not exist"

/-- The settings that the text of a file makes. -/
def Settings.parse (path text : String) : Except Failure Settings :=
  match Yaml.load (some path) text with
  | .error e => .error (.document e)
  | .ok document =>
    match Settings.ofDocument document with
    | .ok settings => .ok settings
    | .error complaints => .error (.defect (.configuration path (complaints.map Complaint.text)))

/-- The configuration that the text of a file means. -/
def Config.parse (home root path text : String) : Except Failure Config :=
  match Settings.parse path text with
  | .error e => .error e
  | .ok settings =>
    let config := settings.resolve home
    match config.checkCommand path root with
    | .ok () => .ok config
    | .error defect => .error (.defect defect)

/-- The configuration of a fixture tree. -/
def Config.load (w : Workspace) (root : String) (named : Option String) : Except Failure Config :=
  let path := configPath w root named
  if w.disk.hasEntry w.cwd path then
    match w.disk.readText w.cwd path with
    | .error e => .error (.disk e)
    | .ok text => Config.parse w.home root path text
  else if named.isSome then .error (.defect (.configuration path [missingFileProblem]))
  else .ok (Settings.resolve w.home {})

/-- What the loading of a configuration tells: the build command of its file is filled in once. -/
def Config.loadNotices (w : Workspace) (root : String) (named : Option String) :
    List Template.Notice :=
  let path := configPath w root named
  match w.disk.readText w.cwd path with
  | .error _ => []
  | .ok text =>
    match Settings.parse path text with
    | .error _ => []
    | .ok settings => (settings.resolve w.home).checkNotices root

end GoldenRun
