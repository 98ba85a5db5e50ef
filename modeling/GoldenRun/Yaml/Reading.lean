import GoldenRun.Value
import GoldenRun.Yaml.Cursor
import GoldenRun.Yaml.Fault

/-!
# Reading a document

A step of reading moves the cursor, may name nodes with anchors, and can fail at a spot.  What
was declared or named stays in force up to the end of the document.

A collection gets its name before its entries are read, so an alias may stand inside the very
collection that it means.  Such an alias means the entries read so far: a collection keeps its
`slot` among the named nodes and brings it up to date with every entry.
-/

namespace GoldenRun.Yaml

/-- How far the reading has come. -/
structure Scan where
  /-- The cursor. -/
  cursor : Cursor
  /-- The named nodes, the latest last. -/
  anchors : Array (String × Value) := #[]
  /-- The declared tag handles with their prefixes. -/
  handles : List (String × String) := []
  /-- What merges have cost. -/
  mergeCost : Nat := 0
  deriving Inhabited

/-- A fault at a spot: the offset, the line and the beginning of the line. -/
structure Flaw where
  /-- The fault. -/
  fault : Fault
  /-- Its offset. -/
  offset : Nat
  /-- The number of its line. -/
  line : Nat
  /-- The offset of the beginning of the line. -/
  lineStart : Nat
  deriving DecidableEq, Repr

/-- A fault at a cursor. -/
def Flaw.here (fault : Fault) (c : Cursor) : Flaw := ⟨fault, c.offset, c.line, c.lineStart⟩

/-- A step of reading. -/
abbrev Reading (α : Type) := StateT Scan (Except Flaw) α

namespace Reading

/-- The cursor. -/
def cursor : Reading Cursor := return (← get).cursor

/-- Puts the cursor at a place. -/
def moveTo (c : Cursor) : Reading Unit := modify ({ · with cursor := c })

/-- Changes the cursor. -/
def move (f : Cursor → Cursor) : Reading Unit := modify fun s => { s with cursor := f s.cursor }

/-- Fails at a cursor. -/
def failAt {α : Type} (c : Cursor) (fault : Fault) : Reading α := throw (.here fault c)

/-- Fails here. -/
def fail {α : Type} (fault : Fault) : Reading α := do failAt (← cursor) fault

/-- Goes over the separation that is next; the answer is the number of line breaks in it. -/
def separation (comments : Bool) : Reading Nat := do
  let (n, c) := (← cursor).separation comments
  moveTo c
  return n

/-- Goes over separation with comments. -/
def skipSeparation : Reading Unit := do let _ ← separation true

/-- Names a value, if there is a name; the answer is the slot of the value. -/
def anchor (name : Option String) (value : Value) : Reading (Option Nat) := do
  match name with
  | some name =>
    let s ← get
    set { s with anchors := s.anchors.push (name, value) }
    return some s.anchors.size
  | none => return none

/-- Brings the value in a slot up to date. -/
def update (slot : Option Nat) (value : Value) : Reading Unit :=
  match slot with
  | some i =>
    modify fun s => { s with anchors := s.anchors.modify i fun (name, _) => (name, value) }
  | none => pure ()

/-- The value with a name: the one that was named so last. -/
def named? (name : String) : Reading (Option Value) := do
  return ((← get).anchors.findRev? (·.1 = name)).map (·.2)

end Reading

end GoldenRun.Yaml
