import GoldenRun.Console
import GoldenRun.Fixture.Discovery
import GoldenRun.Text.Units

/-!
# The list of fixtures as a table

Four columns under a heading, one row per fixture.  Each column but the last is as wide as its
widest cell, in sixteen-bit units, and two blanks stand between columns.
-/

namespace GoldenRun

open GoldenRun.Text

/-- The cells of a row. -/
def ListRow.cells (row : ListRow) : List String :=
  [row.kind.name, row.name, row.fixture, row.expected]

namespace Table

/-- The heading. -/
def heading : List String := ["KIND", "NAME", "FIXTURE", "EXPECTED"]

/-- The widest cell of each column. -/
def widths (rows : List (List String)) : List Nat :=
  rows.foldl (fun widths row => (widths.zip row).map fun (n, cell) => max n (stringWidth cell))
    (heading.map fun _ => 0)

/-- A row, its cells filled up to the widths but for the last one. -/
def line : List Nat → List String → String
  | n :: widths, cell :: next :: cells =>
    padEnd n cell ++ "  " ++ line widths (next :: cells)
  | _, cells => String.join cells

/-- The lines of a table. -/
def lines (rows : List ListRow) : List String :=
  let all := heading :: rows.map ListRow.cells
  all.map (line (widths all))

end Table

/-- What is told about a list of fixtures. -/
def ListRow.report (rows : List ListRow) : List Piece :=
  Piece.line ("\n" ++ toString rows.length ++ " fixture(s) found:\n") ::
    (if rows.isEmpty then ["No fixtures found."] else Table.lines rows).map Piece.line

end GoldenRun
