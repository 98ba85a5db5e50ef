/-!
# What the program writes

The program writes pieces of text to two outlets, one for answers and one for complaints.  The
order of the pieces is kept across the outlets; each outlet shows its own pieces only.
-/

namespace GoldenRun

/-- The two places that text goes to. -/
inductive Outlet where
  /-- For what was asked for. -/
  | standard
  /-- For what is wrong. -/
  | diagnostic
  deriving DecidableEq, Repr

/-- A piece of text on its way to an outlet. -/
structure Piece where
  /-- Where it goes. -/
  outlet : Outlet
  /-- What it says. -/
  text : String
  deriving DecidableEq, Repr

namespace Piece

/-- A line of an answer. -/
def line (text : String) : Piece := ⟨.standard, text ++ "\n"⟩

/-- A line of a complaint. -/
def complaint (text : String) : Piece := ⟨.diagnostic, text ++ "\n"⟩

end Piece

/-- Whether the program did what was asked for. -/
inductive ExitStatus where
  /-- It did. -/
  | success
  /-- It did not. -/
  | failure
  deriving DecidableEq, Repr

/-- The number of an exit status. -/
def ExitStatus.code : ExitStatus → Nat
  | .success => 0
  | .failure => 1

/-- All that the program writes, and how it exits. -/
structure Answer where
  /-- The pieces, in order. -/
  pieces : List Piece
  /-- The exit status. -/
  status : ExitStatus
  deriving DecidableEq, Repr

namespace Answer

/-- What an outlet shows. -/
def text (answer : Answer) (outlet : Outlet) : String :=
  String.join ((answer.pieces.filter (·.outlet = outlet)).map (·.text))

end Answer

end GoldenRun
