import GoldenRun.Disk.Basic
import GoldenRun.Shell.Pattern
import GoldenRun.Text.Octets

/-!
# Fields

An expanded word is cut into fields at the separators that expansions have brought in.  White space
among the separators ends a field but never makes an empty one; any other separator ends a field
even if it is empty.  What was quoted is kept together, and a quoted field is kept even if it is
empty.  A field that is a pattern is replaced by the paths of that form, if there are any.
-/

namespace GoldenRun.Shell

open GoldenRun.Text

/-- A part of an expanded word. -/
inductive Atom where
  /-- A character, and whether it can separate fields. -/
  | glyph (g : Glyph) (separates : Bool)
  /-- Keeps the field, even if it is empty. -/
  | mark
  /-- Ends the field. -/
  | cut
  deriving DecidableEq, Repr

/-- Characters with the same quoting. -/
def glyphs (quoted : Bool) (s : List Char) : List Glyph := s.map (⟨·, quoted⟩)

/-- The text of some characters. -/
def glyphText (s : List Glyph) : String := String.ofList (s.map (·.char))

/-- The separators of fields. -/
structure Separators where
  /-- The white space among them. -/
  white : List Char
  /-- The others. -/
  other : List Char
  deriving DecidableEq, Repr

/-- The separators that a text lists. -/
def Separators.ofText (text : String) : Separators :=
  let isWhite (c : Char) : Bool := c = ' ' || c = '\t' || c = '\n'
  ⟨text.toList.filter isWhite, text.toList.filter (!isWhite ·)⟩

/-- The separators where none are given. -/
def Separators.default : Separators := .ofText " \t\n"

/-- Fields on the way. -/
structure Cutting where
  /-- The field so far, its last character in front. -/
  field : List Glyph := []
  /-- Whether the field is kept even if it is empty. -/
  begun : Bool := false
  /-- Whether white space has just ended a field. -/
  closed : Bool := false
  /-- The fields before, the last in front. -/
  done : List (List Glyph) := []

namespace Cutting

/-- Ends the field. -/
def close (c : Cutting) (closed : Bool) : Cutting :=
  { done := c.field.reverse :: c.done, closed }

/-- Takes one more part of the word. -/
def step (separators : Separators) (c : Cutting) : Atom → Cutting
  | .glyph g separates =>
    if separates && separators.white.contains g.char then
      if c.begun then c.close true else c
    else if separates && separators.other.contains g.char then
      if c.closed && !c.begun then { c with closed := false } else c.close false
    else { c with field := g :: c.field, begun := true, closed := false }
  | .mark => { c with begun := true, closed := false }
  | .cut => if c.begun then c.close false else { c with closed := false }

end Cutting

/-- The fields of an expanded word. -/
def cutFields (separators : Separators) (atoms : List Atom) : List (List Glyph) :=
  let c := atoms.foldl (Cutting.step separators) {}
  (if c.begun then c.field.reverse :: c.done else c.done).reverse

/-- The characters of an expanded word that is not cut; several arguments are joined by `joint`. -/
def uncut (joint : List Char) (atoms : List Atom) : List Glyph :=
  atoms.flatMap fun
    | .glyph g _ => [g]
    | .cut => joint.map (⟨·, true⟩)
    | .mark => []

/-! ## Paths -/

/-- A field in its parts between slashes. -/
def pathParts : List Glyph → List (List Glyph)
  | [] => [[]]
  | g :: rest =>
    if g.char = '/' then [] :: pathParts rest
    else match pathParts rest with
      | part :: parts => (g :: part) :: parts
      | [] => [[g]]

/-- The names in a directory that have the form of a pattern, in order, with those of the directory
itself and of the one above it.  A dot at the beginning of a name has to be written. -/
def matchingNames (disk : Disk) (cwd : Location) (directory : String) (part : List Glyph) :
    List String :=
  let pattern := Pattern.ofGlyphs part
  let wantsDot := pattern.head? = some (.exactly '.')
  match disk.find cwd (if directory = "" then "." else ofUtf8Octets directory) with
  | .ok (location, .directory) =>
    let names := ("." :: ".." :: (disk.names location).map octets).filter fun name =>
      pattern.accepts name.toList && (wantsDot || !name.startsWith ".")
    names.mergeSort fun a b => decide (a ≤ b)
  | _ => []

/-- The paths below a directory that have the form of some parts. -/
def matchingPaths (disk : Disk) (cwd : Location) : String → List (List Glyph) → List String
  | before, [] => [before]
  | before, part :: rest =>
    let names :=
      if (Pattern.ofGlyphs part).isProper then matchingNames disk cwd before part
      else [glyphText part]
    names.flatMap fun name =>
      let path := before ++ name
      if rest = [] then
        if (disk.find cwd (ofUtf8Octets path)).toOption.isSome then [path] else []
      else matchingPaths disk cwd (path ++ "/") rest

/-- What a field stands for: the paths of its form, or else itself. -/
def expandPath (disk : Disk) (cwd : Location) (field : List Glyph) : List String :=
  if (Pattern.ofGlyphs field).isProper then
    match matchingPaths disk cwd "" (pathParts field) with
    | [] => [glyphText field]
    | paths => paths
  else [glyphText field]

end GoldenRun.Shell
