import GoldenRun.CommandLine.Help
import GoldenRun.CommandLine.Order
import GoldenRun.Config.Load
import GoldenRun.Fixture.Table
import GoldenRun.Suite.Report
import GoldenRun.Yaml.Printer

/-!
# The program

A command line is read as an order, and the order is carried out in a workspace.  To run suites the
program first loads the configuration, then finds the tool, then takes stock of the fixtures; while
this can still fail nothing is run and nothing is written.  The suites then run in the root of the
fixture tree.
-/

namespace GoldenRun

open GoldenRun.CommandLine

variable {σ : Type}

/-- The run that an order for suites means, if everything it needs is there. -/
def CommandLine.RunOrder.begin (order : RunOrder) (runner : Runner σ) (w : Workspace) :
    Except Failure (Run σ) := do
  let root := w.fixturesRoot order.root
  let loaded ← Config.load w root order.config
  let config := { loaded with timeout := order.timeout.getD loaded.timeout }
  let tool ← (resolveTool w order.tool).mapError .defect
  let catalog ← Catalog.load w root
  return { catalog, config, tool, env := w.env, runner }

/-- The selected suites of a run, in the root of its fixture tree. -/
def Run.inRoot (run : Run σ) (selection : Option (List Kind)) : Action (Progress σ) Verdict :=
  (run.verdict selection).within run.catalog.root

/-- Runs suites. -/
def CommandLine.RunOrder.answer (order : RunOrder) (runner : Runner σ) (w : Workspace) (state : σ) :
    Answer × Workspace × σ :=
  let notices := Config.loadNotices w (w.fixturesRoot order.root) order.config
  match order.begin runner w with
  | .error failure => (failure.answer (noticesReport notices), w, state)
  | .ok run =>
    let start : Progress σ := { runner := state }
    let (outcome, s) := (run.inRoot order.suites).perform ⟨w, start.hear notices⟩
    (runAnswer order.verbose s.state.log outcome, s.workspace, s.state.runner)

/-- Lists the fixtures of a tree. -/
def listAnswer (w : Workspace) (kind : Option Kind) (root : Option String) : Answer :=
  match Catalog.scan w (w.fixturesRoot root) with
  | .error failure => failure.answer []
  | .ok catalog =>
    ⟨ListRow.report ((catalog.rows w).filter fun row => kind.all (row.kind = ·)), .success⟩

/-- Shows a configuration. -/
def configAnswer (w : Workspace) (root file : Option String) : Answer :=
  let told := noticesReport (Config.loadNotices w (w.fixturesRoot root) file)
  match Config.load w (w.fixturesRoot root) file with
  | .error failure => failure.answer told
  | .ok config => ⟨told ++ [⟨.standard, Yaml.dump (.map config.entries)⟩], .success⟩

/-- Shows a help page; one that answers a mistake is a complaint. -/
def helpAnswer (topic : Option Topic) (mistaken : Bool) : Answer :=
  if mistaken then ⟨[⟨.diagnostic, helpText topic⟩], .failure⟩
  else ⟨[⟨.standard, helpText topic⟩], .success⟩

/-- Carries out an order. -/
def CommandLine.Order.answer (order : Order) (runner : Runner σ) (w : Workspace) (state : σ) :
    Answer × Workspace × σ :=
  match order with
  | .run order => order.answer runner w state
  | .list kind root => (listAnswer w kind root, w, state)
  | .config root file => (configAnswer w root file, w, state)
  | .help topic mistaken => (helpAnswer topic mistaken, w, state)
  | .version => (⟨[.line programVersion], .success⟩, w, state)
  | .refused fault => (⟨[.complaint fault.message], .failure⟩, w, state)

/-- The program: the answer to a command line, and the workspace that is left. -/
def program (runner : Runner σ) (args : List String) (w : Workspace) (state : σ) :
    Answer × Workspace × σ :=
  (Order.read args).answer runner w state

end GoldenRun
