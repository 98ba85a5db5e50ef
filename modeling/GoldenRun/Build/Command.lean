import GoldenRun.Template.Evaluation

/-!
# The build command

The command that builds a target is a list of templates over three variables: the target's name,
the name of the active manifest and the root of the fixture tree.  Each element is filled in by
itself and in one pass; a value is never read as a template again.

An element can also tell something while it is filled in.  What a command tells are the notices of
its elements in order, those of an element that fails included.
-/

namespace GoldenRun

open GoldenRun.Template (Datum Fault)

/-- The variables of a build command. -/
structure BuildContext where
  /-- The target to be built. -/
  binary : String
  /-- The active manifest. -/
  manifest : String
  /-- The root of the fixture tree. -/
  root : String
  deriving DecidableEq, Repr

/-- The variables as the fields of a template's context. -/
def BuildContext.fields (c : BuildContext) : List (String × Datum) :=
  [("binary", .string c.binary), ("manifest", .string c.manifest), ("root", .string c.root)]

/-- One element of a build command, filled in. -/
def renderElement (c : BuildContext) (template : String) : Except Fault String :=
  Template.render template c.fields

/-- A build command, filled in; the first element that fails decides. -/
def renderCommand (templates : List String) (c : BuildContext) : Except Fault (List String) :=
  templates.mapM (renderElement c)

/-- What one element tells while it is filled in. -/
def elementNotices (c : BuildContext) (template : String) : List Template.Notice :=
  (Template.rendering template c.fields).notices

/-- What a build command tells while it is filled in, up to the first element that fails. -/
def commandNotices (c : BuildContext) : List String → List Template.Notice
  | [] => []
  | template :: rest =>
    elementNotices c template ++
      match renderElement c template with
      | .ok _ => commandNotices c rest
      | .error _ => []

/-- What is wrong with the elements of a build command, each with its position. -/
def commandFaults (templates : List String) (c : BuildContext) : List (Nat × Fault) :=
  templates.zipIdx.filterMap fun (template, i) =>
    match renderElement c template with
    | .ok _ => none
    | .error fault => some (i, fault)

end GoldenRun
