import GoldenRun.Activation
import GoldenRun.Failure.Basic

/-!
# Invocations of the tool under test

The tool is invoked in one of two modes.  To resolve a target it runs beside the active
configuration, and any way it ends is part of what is tested.  To replay a trace it runs in the
root of the fixture tree with one more directory on its search path, and it must succeed.
-/

namespace GoldenRun

open GoldenRun.Number

/-- What the tool is asked to do. -/
inductive Invocation where
  /-- To resolve a target. -/
  | resolve (target : String) (active : ActiveConfiguration)
  /-- To replay a trace file. -/
  | replay (traceFile name : String)
  deriving DecidableEq, Repr

namespace Invocation

/-- The arguments of the tool. -/
def args : Invocation → List String
  | .resolve target _ => ["trace", "--resolve-only", "--bin", target]
  | .replay traceFile _ => ["replay", "--trace-file", traceFile]

end Invocation

/-- How the tool is run. -/
structure ToolSetup where
  /-- The absolute path of the tool. -/
  tool : String
  /-- The root of the fixture tree. -/
  root : String
  /-- The directory appended to the search path of a replay. -/
  toolBinDir : String
  /-- The time limit of each invocation. -/
  timeout : Option Binary64
  /-- The environment of the tool. -/
  env : Environment
  deriving DecidableEq, Repr

namespace Invocation

/-- The request that carries out an invocation. -/
def request (setup : ToolSetup) (invocation : Invocation) : Request where
  command := setup.tool
  args := invocation.args
  cwd := match invocation with
    | .resolve _ active => Path.directory active.path
    | .replay _ _ => setup.root
  env := some <| match invocation with
    | .resolve _ _ => setup.env
    | .replay _ _ => setup.env.appendToPath setup.toolBinDir
  timeout := setup.timeout

/-- What becomes of the output of an invocation: a replay that did not succeed is a defect. -/
def accept (invocation : Invocation) (output : Captured) : Except Defect Captured :=
  match invocation with
  | .resolve _ _ => .ok output
  | .replay _ name => if output.succeeded then .ok output else .error (.replayFailed name output)

end Invocation

/-- The absolute path of the tool; it must be a file. -/
def resolveTool (w : Workspace) (tool : String) : Except Defect String :=
  let path := w.absolute tool
  if w.disk.isFile w.cwd path then .ok path else .error (.noTool path)

end GoldenRun
