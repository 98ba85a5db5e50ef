import GoldenRun.Expected
import GoldenRun.Fixture.Discovery
import GoldenRun.Suite.Event

/-!
# Suites

A run goes through three suites, always in the same order:

* binaries: the general manifest is made the active configuration once; then each binary is built,
  the tool resolves it, and the output is matched;
* manifests: each manifest is made the active configuration, the tool resolves one fixed target,
  and the output is matched;
* traces: the tool replays each trace, and the output is matched.

The first defect ends the run as aborted, and nothing is done after it.  A build or a resolution
that does not succeed is no defect, it is only told of.  Any other failure ends the run without a
verdict.
-/

namespace GoldenRun

variable {σ : Type}

/-- Everything that a run needs. -/
structure Run (σ : Type) where
  /-- The fixtures. -/
  catalog : Catalog
  /-- The configuration. -/
  config : Config
  /-- The absolute path of the tool. -/
  tool : String
  /-- The environment of the tool. -/
  env : Environment
  /-- Who runs the programs. -/
  runner : Runner σ

/-- How a run ends. -/
inductive Verdict where
  /-- Every fixture matched. -/
  | passed (checked : Nat)
  /-- A defect ended the run. -/
  | aborted (suite : Kind) (fixture : String) (defect : Defect)
  deriving DecidableEq, Repr

/-- An action, with a defect taken as an answer. -/
def Action.tryDefect {α : Type} (action : Action σ α) : Action σ (Except Defect α) :=
  Action.of fun s =>
    match action.perform s with
    | (.ok a, t) => (.ok (.ok a), t)
    | (.error (.defect d), t) => (.ok (.error d), t)
    | (.error e, t) => (.error e, t)

/-- What stands for the fixture while none has been begun. -/
def beforeFixtures : String := "(setup)"

/-- A defect and the fixture at which it was met. -/
structure Stop where
  /-- The name of the fixture. -/
  fixture : String
  /-- The defect. -/
  defect : Defect
  deriving DecidableEq, Repr

namespace Run

/-- How the tool is run. -/
def toolSetup (run : Run σ) : ToolSetup where
  tool := run.tool
  root := run.catalog.root
  toolBinDir := run.config.toolBinDir
  timeout := some run.config.timeout
  env := run.env

/-- How targets are built. -/
def buildSetup (run : Run σ) : BuildSetup where
  command := run.config.buildCommand
  root := run.catalog.root
  timeout := some run.config.timeout

/-- Makes a manifest the active configuration. -/
def activate (run : Run σ) (manifest : Fixture) : Action (Progress σ) ActiveConfiguration := do
  let active ← Action.of fun s =>
    let (outcome, w) := GoldenRun.activate s.workspace manifest.name manifest.path
      run.catalog.root run.config.activeConfig
    (outcome.mapError .disk, { s with workspace := w })
  publish (.activated active)
  pure active

/-- The manifest that is active while binaries are checked. -/
def generalManifest (run : Run σ) : Except Defect Fixture :=
  match run.catalog.manifests.find? (·.name = run.config.generalManifest) with
  | some manifest => .ok manifest
  | none => .error (.noGeneralManifest run.config.generalManifest)

/-- Matches an output with the expected output of a fixture. -/
def judge (run : Run σ) (fixture : Fixture) (output : Captured) : Action (Progress σ) Unit := do
  let w ← Action.workspace
  let lines ← Action.settle (Expected.read w run.config.blankLines fixture.expectedPath)
  match Expected.firstMissing? output.text lines with
  | none => pure ()
  | some missing => Action.settle (.error (.defect (.mismatch fixture missing output)))

/-- Has the tool resolve a target, and tells when it does not succeed. -/
def resolve (run : Run σ) (fixture : Fixture) (target : String) (active : ActiveConfiguration) :
    Action (Progress σ) Captured := do
  let output ← run.runner.invoke run.toolSetup (.resolve target active)
  unless output.succeeded do publish (.resolveFailed fixture output)
  pure output

/-- Checks a binary. -/
def checkBinary (run : Run σ) (active : ActiveConfiguration) (fixture : Fixture) :
    Action (Progress σ) Unit := do
  let build ← run.runner.build run.buildSetup fixture.name active
  unless build.ok do publish (.buildFailed fixture build)
  let output ← run.resolve fixture fixture.name active
  run.judge fixture output

/-- Checks a manifest. -/
def checkManifest (run : Run σ) (fixture : Fixture) : Action (Progress σ) Unit := do
  let active ← run.activate fixture
  let output ← run.resolve fixture run.config.resolveTarget active
  run.judge fixture output

/-- Checks a trace. -/
def checkTrace (run : Run σ) (fixture : Fixture) : Action (Progress σ) Unit := do
  let w ← Action.workspace
  let file := Path.rootRelative w.cwd.path fixture.path run.catalog.root
  let output ← run.runner.invoke run.toolSetup (.replay file fixture.name)
  run.judge fixture output

/-- Prepares a suite; the answer is how to check one of its fixtures. -/
def prepare (run : Run σ) : Kind → Action (Progress σ) (Fixture → Action (Progress σ) Unit)
  | .binary => do
    let manifest ← Action.settle (run.generalManifest.mapError .defect)
    let active ← run.activate manifest
    pure (run.checkBinary active)
  | .manifest => pure run.checkManifest
  | .trace => pure run.checkTrace

/-- Checks fixtures one after the other, up to the first defect. -/
def checkAll (suite : Kind) (check : Fixture → Action (Progress σ) Unit) :
    List Fixture → Action (Progress σ) (Option Stop)
  | [] => pure none
  | fixture :: rest => do
    match ← (check fixture).tryDefect with
    | .error defect => pure (some ⟨fixture.name, defect⟩)
    | .ok () =>
      publish (.passed suite fixture)
      checkAll suite check rest

/-- Goes through one suite. -/
def suite (run : Run σ) (kind : Kind) : Action (Progress σ) (Option Stop) := do
  let fixtures := run.catalog.fixtures kind
  publish (.suiteStarted kind fixtures.length)
  match ← (run.prepare kind).tryDefect with
  | .error defect => pure (some ⟨beforeFixtures, defect⟩)
  | .ok check => checkAll kind check fixtures

/-- Goes through several suites, up to the first that stops; `checked` counts the fixtures that
matched before. -/
def suites (run : Run σ) (checked : Nat) : List Kind → Action (Progress σ) Verdict
  | [] => pure (.passed checked)
  | kind :: rest => do
    match ← run.suite kind with
    | some stop => pure (.aborted kind stop.fixture stop.defect)
    | none => run.suites (checked + (run.catalog.fixtures kind).length) rest

/-- The suites of a selection, in the order in which they run; without one, all of them. -/
def selected (selection : Option (List Kind)) : List Kind :=
  Kind.all.filter fun kind => selection.all (·.contains kind)

/-- Goes through the selected suites. -/
def verdict (run : Run σ) (selection : Option (List Kind)) : Action (Progress σ) Verdict :=
  run.suites 0 (selected selection)

end Run

end GoldenRun
