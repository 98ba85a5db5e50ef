import GoldenRun.Proofs.Path.Directory
import GoldenRun.Suite.Basic
import Mathlib.Algebra.GroupWithZero.Nat

/-!
# The plan of a run

What a run does is settled beforehand by its catalog and its configuration, as long as nothing
fails: `Run.plan` lists the steps.  Suites come in the order binary, manifest, trace, and within a
suite its fixtures come in the order of the catalog.

* a binary: it is built, the tool resolves it, and the output is judged;
* a manifest: it is made active, the tool resolves the fixed target, and the output is judged;
* a trace: the tool replays it, and the output is judged.

The requests are written out here once more, with every field, so that a statement about the plan
does not rest on how the harness puts them together.
-/

namespace GoldenRun

/-- One step of a run. -/
inductive Step where
  /-- A suite begins. -/
  | start (suite : Kind) (fixtures : Nat)
  /-- The general manifest is made active. -/
  | setUp
  /-- A manifest is made active in order to be checked. -/
  | activate (manifest : Fixture)
  /-- A binary is built. -/
  | build (binary : Fixture)
  /-- The tool resolves a target in order to check a fixture. -/
  | resolve (suite : Kind) (fixture : Fixture) (target : String)
  /-- The tool replays a trace. -/
  | replay (trace : Fixture)
  /-- The output of the tool is judged. -/
  | judge (suite : Kind) (fixture : Fixture)
  deriving DecidableEq, Repr

namespace Step

/-- The suite that a step belongs to. -/
def suite : Step → Kind
  | .start suite _ => suite
  | .setUp => .binary
  | .activate _ => .manifest
  | .build _ => .binary
  | .resolve suite _ _ => suite
  | .replay _ => .trace
  | .judge suite _ => suite

/-- The fixture that a step belongs to; the beginning of a suite has none. -/
def fixture? : Step → Option Fixture
  | .start _ _ => none
  | .setUp => none
  | .activate manifest => some manifest
  | .build binary => some binary
  | .resolve _ fixture _ => some fixture
  | .replay trace => some trace
  | .judge _ fixture => some fixture

/-- The place of a step as a verdict names it. -/
def place (step : Step) : String := step.fixture?.elim beforeFixtures Fixture.name

end Step

namespace Run

variable {σ : Type}

/-! ## Requests -/

/-- The path of the active-configuration file. -/
def activeFile (run : Run σ) : String :=
  activePath run.catalog.root run.config.activeConfig

/-- The variables of the build command for a binary. -/
def buildContext (run : Run σ) (binary : Fixture) : BuildContext where
  binary := binary.name
  manifest := run.config.generalManifest
  root := run.catalog.root

/-- The request that runs a build command, filled in; it takes the environment of the harness. -/
def buildRequest (run : Run σ) (command : String) (args : List String) : Request where
  command := command
  args := args
  cwd := Path.directory run.activeFile
  env := none
  timeout := some run.config.timeout

/-- The request that has the tool resolve a target. -/
def resolveRequest (run : Run σ) (target : String) : Request where
  command := run.tool
  args := ["trace", "--resolve-only", "--bin", target]
  cwd := Path.directory run.activeFile
  env := some run.env
  timeout := some run.config.timeout

/-- The request that has the tool replay a trace file. -/
def replayRequest (run : Run σ) (file : String) : Request where
  command := run.tool
  args := ["replay", "--trace-file", file]
  cwd := run.catalog.root
  env := some (run.env.appendToPath run.config.toolBinDir)
  timeout := some run.config.timeout

/-- The trace file of a trace, as the tool is given it. -/
def traceFile (run : Run σ) (cwd : Location) (trace : Fixture) : String :=
  Path.rootRelative cwd.path trace.path run.catalog.root

/-- The request of a step, if it makes one. -/
def request? (run : Run σ) (cwd : Location) : Step → Option Request
  | .build binary =>
    match renderCommand run.config.buildCommand (run.buildContext binary) with
    | .ok (command :: args) => some (run.buildRequest command args)
    | _ => none
  | .resolve _ _ target => some (run.resolveRequest target)
  | .replay trace => some (run.replayRequest (run.traceFile cwd trace))
  | _ => none

/-- The directory in which the request of a step is run. -/
def requestDirectory (run : Run σ) : Step → String
  | .replay _ => run.catalog.root
  | _ => Path.directory run.activeFile

/-- Builds and resolutions are run where the active file is, one up from where its path leads. -/
theorem directory_activeFile (run : Run σ) (h : Path.isAbsolute run.catalog.root = true) :
    Path.directory run.activeFile =
      Location.path (Path.collapse false (Path.parts run.catalog.root ++
        Path.parts run.config.activeConfig)).dropLast :=
  Path.directory_join h run.config.activeConfig

/-- The environment that the request of a step brings.  The directory of the tool is added to that
of the run, whatever was replayed before. -/
def requestEnv (run : Run σ) : Step → Option Environment
  | .resolve _ _ _ => some run.env
  | .replay _ => some (run.env.appendToPath run.config.toolBinDir)
  | _ => none

theorem request?_place {run : Run σ} {cwd : Location} {step : Step} {request : Request}
    (h : run.request? cwd step = some request) :
    request.cwd = run.requestDirectory step ∧ request.env = run.requestEnv step ∧
      request.timeout = some run.config.timeout := by
  cases step with
  | build binary =>
    simp only [request?] at h
    split at h
    · obtain rfl := Option.some.inj h
      exact ⟨rfl, rfl, rfl⟩
    · cases h
  | resolve suite f target =>
    obtain rfl := Option.some.inj h
    exact ⟨rfl, rfl, rfl⟩
  | replay f =>
    obtain rfl := Option.some.inj h
    exact ⟨rfl, rfl, rfl⟩
  | _ => cases h

/-- The one request to the tool with which a fixture is checked. -/
def toolRequest (run : Run σ) (cwd : Location) : Kind → Fixture → Request
  | .binary, fixture => run.resolveRequest fixture.name
  | .manifest, _ => run.resolveRequest run.config.resolveTarget
  | .trace, fixture => run.replayRequest (run.traceFile cwd fixture)

/-- What a step tells before it makes its request. -/
def stepNotices (run : Run σ) : Step → List Template.Notice
  | .build binary => commandNotices (run.buildContext binary) run.config.buildCommand
  | _ => []

/-! ## Plans -/

/-- The steps that check a fixture. -/
def fixtureSteps (run : Run σ) : Kind → Fixture → List Step
  | .binary, f => [.build f, .resolve .binary f f.name, .judge .binary f]
  | .manifest, f =>
    [.activate f, .resolve .manifest f run.config.resolveTarget, .judge .manifest f]
  | .trace, f => [.replay f, .judge .trace f]

/-- The step in which the tool is run for a fixture. -/
def toolStep (run : Run σ) : Kind → Fixture → Step
  | .binary, f => .resolve .binary f f.name
  | .manifest, f => .resolve .manifest f run.config.resolveTarget
  | .trace, f => .replay f

/-- The steps before it. -/
def leadSteps : Kind → Fixture → List Step
  | .binary, f => [.build f]
  | .manifest, f => [.activate f]
  | .trace, _ => []

/-- The output of the tool is judged right after the tool was run. -/
theorem fixtureSteps_eq (run : Run σ) (suite : Kind) (f : Fixture) :
    run.fixtureSteps suite f = leadSteps suite f ++ [run.toolStep suite f, .judge suite f] := by
  cases suite <;> rfl

@[simp] theorem request?_toolStep (run : Run σ) (cwd : Location) (suite : Kind) (f : Fixture) :
    run.request? cwd (run.toolStep suite f) = some (run.toolRequest cwd suite f) := by
  cases suite <;> rfl

/-- The steps of a suite before its first fixture. -/
def openingSteps (run : Run σ) (suite : Kind) : List Step :=
  .start suite (run.catalog.fixtures suite).length ::
    match suite with
    | .binary => [.setUp]
    | _ => []

/-- The steps of a suite. -/
def suiteSteps (run : Run σ) (suite : Kind) : List Step :=
  run.openingSteps suite ++ (run.catalog.fixtures suite).flatMap (run.fixtureSteps suite)

/-- The steps of a run. -/
def plan (run : Run σ) (selection : Option (List Kind)) : List Step :=
  (selected selection).flatMap run.suiteSteps

/-- The number of fixtures in the selected suites. -/
def count (run : Run σ) (selection : Option (List Kind)) : Nat :=
  ((selected selection).map fun suite => (run.catalog.fixtures suite).length).sum

/-- Before the first fixture of a suite nothing is asked. -/
theorem requests_openingSteps (run : Run σ) (cwd : Location) (suite : Kind) :
    (run.openingSteps suite).filterMap (run.request? cwd) = [] := by
  cases suite <;> rfl

theorem request?_of_openingSteps {run : Run σ} {suite : Kind} {step : Step} {lead rest : List Step}
    (cwd : Location) (h : run.openingSteps suite = lead ++ step :: rest) :
    run.request? cwd step = none := by
  have hnone := run.requests_openingSteps cwd suite
  rw [List.filterMap_eq_nil_iff] at hnone
  exact hnone step (List.mem_iff_append.mpr ⟨lead, rest, h⟩)

/-! ## Where a step stands -/

variable {run : Run σ} {suite : Kind} {f : Fixture} {step : Step}

theorem place_of_mem_fixtureSteps (h : step ∈ run.fixtureSteps suite f) :
    step.suite = suite ∧ step.place = f.name := by
  cases suite <;> simp only [fixtureSteps, List.mem_cons, List.not_mem_nil, or_false] at h
  · rcases h with rfl | rfl | rfl <;> exact ⟨rfl, rfl⟩
  · rcases h with rfl | rfl | rfl <;> exact ⟨rfl, rfl⟩
  · rcases h with rfl | rfl <;> exact ⟨rfl, rfl⟩

theorem place_of_mem_openingSteps (h : step ∈ run.openingSteps suite) :
    step.suite = suite ∧ step.place = beforeFixtures := by
  cases suite <;> simp only [openingSteps, List.mem_cons, List.not_mem_nil, or_false] at h
  · rcases h with rfl | rfl <;> exact ⟨rfl, rfl⟩
  · rw [h]
    exact ⟨rfl, rfl⟩
  · rw [h]
    exact ⟨rfl, rfl⟩

theorem suite_of_mem_suiteSteps (h : step ∈ run.suiteSteps suite) : step.suite = suite := by
  rcases List.mem_append.mp h with h | h
  · exact (place_of_mem_openingSteps h).1
  · obtain ⟨f, -, hstep⟩ := List.mem_flatMap.mp h
    exact (place_of_mem_fixtureSteps hstep).1

/-- A step that belongs to a fixture belongs to one of its suite. -/
theorem mem_fixtures_of_plan {selection : Option (List Kind)} (h : step ∈ run.plan selection)
    (hf : step.fixture? = some f) : f ∈ run.catalog.fixtures step.suite := by
  obtain ⟨suite, -, hsuite⟩ := List.mem_flatMap.mp h
  rw [suite_of_mem_suiteSteps hsuite]
  rcases List.mem_append.mp hsuite with hopening | hfixture
  · -- The steps before the first fixture belong to none.
    have hnone : ∀ step ∈ run.openingSteps suite, step.fixture? = none := by
      cases suite <;> simp [openingSteps, Step.fixture?]
    cases (hnone step hopening).symm.trans hf
  · obtain ⟨f', hf', hstep⟩ := List.mem_flatMap.mp hfixture
    have hsome : ∀ step ∈ run.fixtureSteps suite f', step.fixture? = some f' := by
      cases suite <;> simp [fixtureSteps, Step.fixture?]
    obtain rfl := Option.some.inj (hf.symm.trans (hsome step hstep))
    exact hf'

/-- An element of two lists put together stands in the first or in the second. -/
theorem append_split {α : Type} {l m before after : List α} {x : α}
    (h : l ++ m = before ++ x :: after) :
    (∃ rest, l = before ++ x :: rest) ∨
      ∃ between, before = l ++ between ∧ m = between ++ x :: after := by
  rcases List.append_eq_append_iff.mp h with ⟨between, hbefore, hm⟩ | ⟨rest, hl, hrest⟩
  · exact .inr ⟨between, hbefore, hm⟩
  · cases rest with
    | nil => exact .inr ⟨[], by simpa using hl.symm, hrest.symm⟩
    | cons y rest =>
      obtain ⟨rfl, -⟩ := List.cons_eq_cons.mp hrest
      exact .inl ⟨rest, hl⟩

/-- An element of parts put together stands in one of the parts. -/
theorem flatMap_split {α β : Type} {part : α → List β} {parts : List α} {before after : List β}
    {x : β} (h : parts.flatMap part = before ++ x :: after) :
    ∃ earlier a later lead rest, parts = earlier ++ a :: later ∧ part a = lead ++ x :: rest ∧
      before = earlier.flatMap part ++ lead := by
  induction parts generalizing before with
  | nil => simp at h
  | cons a parts ih =>
    rcases append_split h with ⟨rest, hpart⟩ | ⟨between, rfl, hrest⟩
    · exact ⟨[], a, parts, before, rest, rfl, hpart, rfl⟩
    · obtain ⟨earlier, b, later, lead, rest, rfl, hb, rfl⟩ := ih hrest
      exact ⟨a :: earlier, b, later, lead, rest, rfl, hb, by simp⟩

/-- A step of a plan belongs to the opening of its suite, or to one of the fixtures there. -/
theorem plan_split {selection : Option (List Kind)} {before after : List Step}
    (h : run.plan selection = before ++ step :: after) :
    ∃ earlier later, selected selection = earlier ++ step.suite :: later ∧
      ((∃ lead rest, run.openingSteps step.suite = lead ++ step :: rest ∧
          before = earlier.flatMap run.suiteSteps ++ lead) ∨
        ∃ ahead f behind lead rest,
          run.catalog.fixtures step.suite = ahead ++ f :: behind ∧
          run.fixtureSteps step.suite f = lead ++ step :: rest ∧
          before = earlier.flatMap run.suiteSteps ++ (run.openingSteps step.suite ++
            ahead.flatMap (run.fixtureSteps step.suite)) ++ lead) := by
  obtain ⟨earlier, suite, later, lead, rest, hselected, hsuite, hbefore⟩ := flatMap_split h
  obtain rfl : step.suite = suite := suite_of_mem_suiteSteps (hsuite ▸ List.mem_append_right _
    List.mem_cons_self)
  refine ⟨earlier, later, hselected, ?_⟩
  rcases append_split hsuite with ⟨rest, hopening⟩ | ⟨between, rfl, hfixtures⟩
  · exact .inl ⟨lead, rest, hopening, hbefore⟩
  · obtain ⟨ahead, f, behind, lead, rest, hsplit, hsteps, rfl⟩ := flatMap_split hfixtures
    exact .inr ⟨ahead, f, behind, lead, rest, hsplit, hsteps, by simp [hbefore]⟩

end Run

end GoldenRun
