import GoldenRun.Activation
import GoldenRun.Build.Command
import GoldenRun.Config.Basic
import GoldenRun.Failure.Basic

/-!
# Builds

A target is built beside the active configuration.  A build that does not succeed is no failure of
the harness: the output of the tool is expected to tell.  What can fail is the filling in of the
build command, and a build command without elements.

`Config.checkCommand` finds such faults beforehand, with the general manifest in the place of both
the target and the active manifest.
-/

namespace GoldenRun

open GoldenRun.Number

/-- What a build came to. -/
structure BuildOutcome where
  /-- Whether it succeeded. -/
  ok : Bool
  /-- The program that was run. -/
  command : String
  /-- Its arguments. -/
  args : List String
  /-- What it wrote and how it ended. -/
  output : Captured
  deriving DecidableEq, Repr

/-- How targets are built. -/
structure BuildSetup where
  /-- The build command, each element a template. -/
  command : List String
  /-- The root of the fixture tree. -/
  root : String
  /-- The time limit of a build. -/
  timeout : Option Binary64
  deriving DecidableEq, Repr

/-- The request that builds a target. -/
def BuildSetup.request (setup : BuildSetup) (binary : String) (active : ActiveConfiguration) :
    Except Failure Request :=
  match renderCommand setup.command ⟨binary, active.manifest, setup.root⟩ with
  | .error fault => .error (.template fault)
  | .ok [] => .error .emptyBuildCommand
  | .ok (command :: args) =>
    .ok { command, args, cwd := Path.directory active.path, timeout := setup.timeout }

/-- What the build command tells while a request is made of it. -/
def BuildSetup.notices (setup : BuildSetup) (binary : String) (active : ActiveConfiguration) :
    List Template.Notice :=
  commandNotices ⟨binary, active.manifest, setup.root⟩ setup.command

/-- What the output of a build comes to. -/
def BuildOutcome.of (request : Request) (output : Captured) : BuildOutcome :=
  ⟨output.succeeded, request.command, request.args, output⟩

/-- The problem with an element of a build command. -/
def commandProblem (index : Nat) (fault : Template.Fault) : String :=
  "/buildCommand/" ++ toString index ++ ": " ++ fault.message

/-- The variables with which a build command is checked. -/
def Config.checkContext (c : Config) (root : String) : BuildContext :=
  ⟨c.generalManifest, c.generalManifest, root⟩

/-- Refuses a configuration whose build command cannot be filled in. -/
def Config.checkCommand (c : Config) (path root : String) : Except Defect Unit :=
  match commandFaults c.buildCommand (c.checkContext root) with
  | [] => .ok ()
  | faults => .error (.configuration path (faults.map fun (i, fault) => commandProblem i fault))

/-- What the build command tells while it is checked; every element is filled in. -/
def Config.checkNotices (c : Config) (root : String) : List Template.Notice :=
  c.buildCommand.flatMap (elementNotices (c.checkContext root))

end GoldenRun
