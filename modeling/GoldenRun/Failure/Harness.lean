import GoldenRun.Execution.Basic
import GoldenRun.Expected
import GoldenRun.Fixture
import GoldenRun.Text.Quoted

/-!
# Defects that a run reports

The conditions that end a run as aborted: they are findings about the fixtures, the configuration
or the tool, not accidents of the machine.
-/

namespace GoldenRun

open GoldenRun.Text

/-- A defect that ends a run. -/
inductive Defect where
  /-- The manifest to begin with is not among the fixtures. -/
  | noGeneralManifest (name : String)
  /-- The tool is not a file. -/
  | noTool (path : String)
  /-- The expected output of a fixture is missing. -/
  | missingFixture (kind : Kind) (name expectedPath : String)
  /-- An expected output may not be used. -/
  | invalidFixture (path : String) (lineNumber : Nat) (reason : String)
  /-- The tool did not replay a trace. -/
  | replayFailed (trace : String) (output : Captured)
  /-- An expected line is not in the output. -/
  | mismatch (fixture : Fixture) (missing : ExpectedLine) (output : Captured)
  /-- The configuration cannot be used. -/
  | configuration (path : String) (problems : List String)
  /-- Any other defect, in its own words. -/
  | stated (message : String)
  deriving DecidableEq, Repr

/-- The reason given for a blank line of an expected output. -/
def blankLineReason : String := "blank expectation line"

/-- The message of a defect. -/
def Defect.message : Defect → String
  | .noGeneralManifest name => "General manifest \"" ++ name ++ "\" not found in manifests/"
  | .noTool path => "Tool binary not found: " ++ path
  | .missingFixture kind name expectedPath =>
    "Missing expected-output fixture for " ++ kind.name ++ " \"" ++ name ++ "\": " ++ expectedPath
  | .invalidFixture path lineNumber reason =>
    "Invalid expected-output fixture " ++ path ++ ":" ++ toString lineNumber ++ ": " ++ reason
  | .replayFailed trace output =>
    "Replay of trace \"" ++ trace ++ "\" failed (" ++ output.describe ++ ")"
  | .mismatch fixture missing _ =>
    "Expected line not found in output of " ++ fixture.kind.name ++ " \"" ++ fixture.name ++
      "\" (" ++ fixture.expectedPath ++ ":" ++ toString missing.lineNumber ++ "): " ++
      quoted missing.text
  | .configuration path problems =>
    "Invalid configuration " ++ path ++ ":\n" ++
      joinStrings "\n" (problems.map fun p => "  - " ++ p)
  | .stated message => message

end GoldenRun
