import GoldenRun.Disk.Operations
import GoldenRun.Execution.Basic
import GoldenRun.Failure.Harness
import GoldenRun.Failure.Report
import GoldenRun.Template.Fault
import GoldenRun.Yaml.Fault

/-!
# Failures

Whatever can end an operation before its answer: a defect of the fixtures, a fault of the disk, a
malformed document, or the failure of an outside party in its own words.
-/

namespace GoldenRun

/-- Why an operation has no answer. -/
inductive Failure where
  /-- A defect that a run reports. -/
  | defect (defect : Defect)
  /-- A failed operation on the disk. -/
  | disk (error : DiskError)
  /-- A malformed document. -/
  | document (error : Yaml.Error)
  /-- A template of the build command yields no text. -/
  | template (fault : Template.Fault)
  /-- The build command has no element. -/
  | emptyBuildCommand
  /-- A command cannot be asked for so. -/
  | request (fault : RequestFault)
  /-- Something outside the harness gave up. -/
  | raised (message : String)
  deriving DecidableEq, Repr

namespace Failure

/-- The message of a failure. -/
def message : Failure → String
  | .defect d => d.message
  | .disk e => e.message
  | .document e => e.message
  | .template fault => fault.message
  | .emptyBuildCommand => "Build command is empty"
  | .request fault => fault.message
  | .raised m => m

/-- What the report of a failure is made from. -/
def subject (failure : Failure) : Report.Subject :=
  match failure with
  | .disk e => { message := e.message, code := some e.code, path := e.path? }
  | .request fault => { message := fault.message, code := some fault.code }
  | .document e =>
    { message := e.message, document := e.fault.isOfDocument, reason := some e.fault.reason
      mark := e.mark }
  | _ => { message := failure.message }

/-- The report of a failure on the command line. -/
def report (failure : Failure) : String := failure.subject.text

end Failure

end GoldenRun
