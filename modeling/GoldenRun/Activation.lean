import GoldenRun.Fixture
import GoldenRun.Workspace

/-!
# The active configuration

Before a tool is run, a manifest is copied over the active-configuration file of the fixture tree.
The copy is complete before anything else happens.
-/

namespace GoldenRun

/-- The manifest that was installed, and where. -/
structure ActiveConfiguration where
  /-- The name of the manifest. -/
  manifest : String
  /-- The path of the active-configuration file. -/
  path : String
  deriving DecidableEq, Repr, Inhabited

/-- The path of the active-configuration file. -/
def activePath (root activeConfig : String) : String := Path.join root activeConfig

/-- Copies a manifest over the active-configuration file. -/
def activate (w : Workspace) (name path root activeConfig : String) :
    Except DiskError ActiveConfiguration × Workspace :=
  let target := activePath root activeConfig
  let (outcome, disk) := w.disk.copy w.cwd path target
  (outcome.map fun _ => ⟨name, target⟩, { w with disk := disk })

end GoldenRun
