import GoldenRun.Console
import GoldenRun.Shell.Word
import GoldenRun.Suite.Basic
import GoldenRun.Text.Blank

/-!
# What is told of a run

Everything that is told of a run follows from its log and from how it ended.  A terse report names
the suites, the fixtures that matched and the builds that did not succeed; a verbose one also shows
each command before it runs, and what unsuccessful builds and resolutions wrote.

A run that is aborted ends with the output of the tool, if that is what was wrong, and the defect.

A notice is told as it stands; a name that has nothing to show is told of once only.
-/

namespace GoldenRun

open GoldenRun.Text

/-- The title of a suite. -/
def Kind.title : Kind → String
  | .binary => "Per-binary resolve"
  | .manifest => "Per-manifest resolve"
  | .trace => "Trace replay"

/-- What is told of an event. -/
def Event.report (verbose : Bool) : Event → List Piece
  | .suiteStarted suite fixtures =>
    [.line ("\n" ++ suite.title ++ " (" ++ toString fixtures ++ " fixture(s))")]
  | .activated active =>
    if verbose then [.line ("Activated manifest " ++ active.manifest ++ " → " ++ active.path)]
    else []
  | .buildFailed fixture build =>
    .complaint ("⚠  Build of " ++ fixture.name ++ " failed (" ++ build.output.describe ++
      "); checking tool output anyway") ::
      if verbose then [.complaint (trimEndString build.output.text)] else []
  | .resolveFailed _ output =>
    if verbose then
      [.line ("  resolve-only exited unsuccessfully (" ++ output.describe ++ "):"),
        .line (trimEndString output.text)]
    else []
  | .passed suite fixture => [.line ("✓ " ++ suite.name ++ " " ++ fixture.name)]

/-- A notice as it is told. -/
def Piece.ofNotice (notice : Template.Notice) : Piece :=
  if notice.isGrave then .complaint notice.text else .line notice.text

/-- What is told of an entry of the log. -/
def Happening.report (verbose : Bool) : Happening → List Piece
  | .requested request =>
    if verbose then [.line ("$ " ++ Shell.commandLine request.command request.args)] else []
  | .published event => event.report verbose
  | .noticed notice => [.ofNotice notice]

/-- The log without the notices that repeat an earlier one that is given only once. -/
def Happening.once (log : List Happening) : List Happening :=
  go [] log
where
  /-- The log, given the names that have been told of. -/
  go (told : List String) : List Happening → List Happening
    | [] => []
    | .noticed (.denied name) :: rest =>
      if told.contains name then go told rest
      else .noticed (.denied name) :: go (name :: told) rest
    | h :: rest => h :: go told rest

/-- What is told of some notices. -/
def noticesReport (notices : List Template.Notice) : List Piece :=
  (Happening.once (notices.map .noticed)).flatMap (Happening.report false)

/-- The output that shows a defect. -/
def Defect.output? : Defect → Option Captured
  | .mismatch _ _ output => some output
  | .replayFailed _ output => some output
  | _ => none

namespace Verdict

/-- What is told of a verdict. -/
def report : Verdict → List Piece
  | .passed checked =>
    [.line ("\n✓ All " ++ toString checked ++ " fixture(s) matched their expected output.")]
  | .aborted suite fixture defect =>
    (match defect.output? with
      | some output =>
        [.complaint ("\n--- captured output: " ++ suite.name ++ " " ++ fixture ++ " ---"),
          .complaint (trimEndString output.text), .complaint "--- end of captured output ---"]
      | none => []) ++
    [.complaint ("\n✗ " ++ suite.title ++ " aborted at " ++ fixture ++ ": " ++ defect.message)]

/-- The exit status that a verdict means. -/
def status : Verdict → ExitStatus
  | .passed _ => .success
  | .aborted .. => .failure

end Verdict

/-- What is told of a failure. -/
def Failure.complaint (failure : Failure) : Piece := .complaint ("Error: " ++ failure.report)

/-- The answer to a failure before which some pieces were written. -/
def Failure.answer (failure : Failure) (before : List Piece) : Answer :=
  ⟨before ++ [failure.complaint], .failure⟩

/-- What is told of a whole run. -/
def runAnswer (verbose : Bool) (log : List Happening) (outcome : Except Failure Verdict) :
    Answer :=
  let told := (Happening.once log).flatMap (Happening.report verbose)
  match outcome with
  | .ok verdict => ⟨told ++ verdict.report, verdict.status⟩
  | .error failure => failure.answer told

end GoldenRun
