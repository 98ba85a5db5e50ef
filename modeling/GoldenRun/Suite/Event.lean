import GoldenRun.Build.Basic
import GoldenRun.Execution.Runner
import GoldenRun.Fixture
import GoldenRun.Tool.Invocation

/-!
# The log of a run

A run tells of its progress in events, and asks for programs to be run in requests; a build command
can tell something while it is filled in.  All of this is kept in one log, in the order in which it
happened.
-/

namespace GoldenRun

/-- News of the progress of a run. -/
inductive Event where
  /-- A suite begins. -/
  | suiteStarted (suite : Kind) (fixtures : Nat)
  /-- A manifest was made the active configuration. -/
  | activated (active : ActiveConfiguration)
  /-- A build did not succeed. -/
  | buildFailed (fixture : Fixture) (build : BuildOutcome)
  /-- The tool did not end successfully when it resolved a target. -/
  | resolveFailed (fixture : Fixture) (output : Captured)
  /-- A fixture matched its expected output. -/
  | passed (suite : Kind) (fixture : Fixture)
  deriving DecidableEq, Repr

/-- An entry of the log. -/
inductive Happening where
  /-- A program was asked for. -/
  | requested (request : Request)
  /-- An event was published. -/
  | published (event : Event)
  /-- A build command told something. -/
  | noticed (notice : Template.Notice)
  deriving DecidableEq, Repr

namespace Happening

/-- The request of an entry. -/
def request? : Happening → Option Request
  | .requested request => some request
  | _ => none

/-- The event of an entry. -/
def event? : Happening → Option Event
  | .published event => some event
  | _ => none

/-- The notice of an entry. -/
def notice? : Happening → Option Template.Notice
  | .noticed notice => some notice
  | _ => none

end Happening

/-- How far a run has come: the state of its runner, and the log. -/
structure Progress (σ : Type) where
  /-- What the runner remembers. -/
  runner : σ
  /-- What happened so far. -/
  log : List Happening := []
  deriving Repr

namespace Progress

variable {σ : Type}

/-- The requests of the log. -/
def requests (p : Progress σ) : List Request := p.log.filterMap Happening.request?

/-- The events of the log. -/
def events (p : Progress σ) : List Event := p.log.filterMap Happening.event?

/-- The progress with one more entry in the log. -/
def note (p : Progress σ) (h : Happening) : Progress σ := { p with log := p.log ++ [h] }

/-- The progress with some notices at the end of the log. -/
def hear (p : Progress σ) (notices : List Template.Notice) : Progress σ :=
  { p with log := p.log ++ notices.map .noticed }

end Progress

/-- Publishes an event. -/
def publish {σ : Type} (event : Event) : Action (Progress σ) Unit :=
  Action.update (·.note (.published event))

/-- Asks a runner, and notes the request. -/
def Runner.request {σ : Type} (runner : Runner σ) (request : Request) :
    Action (Progress σ) Captured :=
  Action.of fun s =>
    let p := s.state.note (.requested request)
    let (outcome, disk, remembered) := runner request s.workspace p.runner
    (outcome, ⟨{ s.workspace with disk := disk }, { p with runner := remembered }⟩)

/-- Builds a target. -/
def Runner.build {σ : Type} (runner : Runner σ) (setup : BuildSetup) (binary : String)
    (active : ActiveConfiguration) : Action (Progress σ) BuildOutcome := do
  Action.update (·.hear (setup.notices binary active))
  let request ← Action.settle (setup.request binary active)
  let output ← runner.request request
  pure (.of request output)

/-- Invokes the tool. -/
def Runner.invoke {σ : Type} (runner : Runner σ) (setup : ToolSetup) (invocation : Invocation) :
    Action (Progress σ) Captured := do
  let output ← runner.request (invocation.request setup)
  Action.settle ((invocation.accept output).mapError .defect)

end GoldenRun
