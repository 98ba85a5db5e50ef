/-!
# What the command line says about a failure

The report of a failure has four forms.  A malformed document is reported with the place of the
fault, lines and columns counted from 1.  Three kinds of machine fault have a sentence of their
own, and the others name their code.  Every other failure is reported by its message alone.
-/

namespace GoldenRun.Report

/-- The place of a fault in a document; lines and columns count from 0. -/
structure Mark where
  /-- The name of the document. -/
  name : Option String := none
  /-- The line. -/
  line : Option Int := none
  /-- The column. -/
  column : Option Int := none
  /-- The lines around the place. -/
  snippet : Option String := none
  deriving DecidableEq, Repr

/-- What a report is made from. -/
structure Subject where
  /-- The message of the failure. -/
  message : String
  /-- Whether a document is malformed. -/
  document : Bool := false
  /-- What is wrong with the document. -/
  reason : Option String := none
  /-- Where it is wrong. -/
  mark : Option Mark := none
  /-- The code of a machine fault. -/
  code : Option String := none
  /-- The path that a machine fault names. -/
  path : Option String := none
  deriving DecidableEq, Repr

/-- The report of a malformed document. -/
def documentText (reason : Option String) (mark : Option Mark) : String :=
  let reason := reason.getD "invalid YAML syntax"
  match mark with
  | some { name, line := some line, column, snippet } =>
    let file := match name with
      | some n => if n = "" then "" else n ++ " "
      | none => ""
    let location :=
      "line " ++ toString (line + 1) ++ ", column " ++ toString (column.getD 0 + 1)
    let shown := match snippet with
      | some s => if s = "" then "" else "\n" ++ s
      | none => ""
    "Failed to parse YAML: " ++ reason ++ " (" ++ file ++ location ++ ")" ++ shown
  | _ => "Failed to parse YAML: " ++ reason

/-- The report of a machine fault. -/
def machineText (code message : String) (path : Option String) : String :=
  let file := match path with
    | some p => if p = "" then "" else " \"" ++ p ++ "\""
    | none => ""
  if code = "ENOENT" then
    "File not found:" ++ file ++
      ". Check that the path exists and --root points at the fixture tree."
  else if code = "EACCES" ∨ code = "EPERM" then
    "Permission denied:" ++ file ++ ". Check file permissions."
  else if code = "EISDIR" then "Expected a file but found a directory:" ++ file ++ "."
  else "System error (" ++ code ++ "):" ++ file ++ ": " ++ message

/-- The report of a failure. -/
def Subject.text (subject : Subject) : String :=
  if subject.document then documentText subject.reason subject.mark
  else match subject.code with
    | some code => machineText code subject.message subject.path
    | none => subject.message

end GoldenRun.Report
