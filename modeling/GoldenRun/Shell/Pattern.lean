/-!
# Patterns

In a pattern `*` stands for any text, `?` for any character, and brackets for a character out of a
set; a quoted character always stands for itself.  `Pattern.accepts` says whether a whole text has
the form of a pattern; the two ways of cutting a text try its beginnings or ends in order of
length.
-/

namespace GoldenRun.Shell

/-- A character, and whether it was quoted. -/
structure Glyph where
  /-- The character. -/
  char : Char
  /-- Whether it stands for itself. -/
  quoted : Bool
  deriving DecidableEq, Repr

/-- A range of characters. -/
structure CharRange where
  /-- The first. -/
  low : Char
  /-- The last. -/
  high : Char
  deriving DecidableEq, Repr

/-- A part of a pattern. -/
inductive Matcher where
  /-- One character. -/
  | exactly (c : Char)
  /-- Any one character. -/
  | anyOne
  /-- Any text. -/
  | anyText
  /-- A character in one of some ranges, or in none of them. -/
  | oneOf (negated : Bool) (ranges : List CharRange)
  deriving DecidableEq, Repr

/-- A pattern. -/
abbrev Pattern := List Matcher

namespace Pattern

/-- The classes of characters that have a name. -/
def classes : List (String × List CharRange) :=
  [("digit", [⟨'0', '9'⟩]), ("lower", [⟨'a', 'z'⟩]), ("upper", [⟨'A', 'Z'⟩]),
    ("alpha", [⟨'a', 'z'⟩, ⟨'A', 'Z'⟩]), ("alnum", [⟨'a', 'z'⟩, ⟨'A', 'Z'⟩, ⟨'0', '9'⟩]),
    ("blank", [⟨' ', ' '⟩, ⟨'\t', '\t'⟩]), ("space", [⟨' ', ' '⟩, ⟨'\t', '\x0D'⟩]),
    ("xdigit", [⟨'0', '9'⟩, ⟨'a', 'f'⟩, ⟨'A', 'F'⟩]),
    ("cntrl", [⟨'\x00', '\x1F'⟩, ⟨'\x7F', '\x7F'⟩]), ("print", [⟨' ', '~'⟩]),
    ("graph", [⟨'!', '~'⟩]),
    ("punct", [⟨'!', '/'⟩, ⟨':', '@'⟩, ⟨'[', '\x60'⟩, ⟨'\x7b', '~'⟩])]

/-- The class that is next behind its opening brackets, and what comes behind it. -/
def class? (s : List Glyph) : Option (List CharRange × List Glyph) :=
  let name := s.takeWhile (·.char.isAlpha)
  match s.drop name.length with
  | ⟨':', false⟩ :: ⟨']', false⟩ :: rest =>
    ((classes.find? (·.1 = String.ofList (name.map (·.char)))).map fun c => (c.2, rest))
  | _ => none

/-- The ranges of a set up to its closing bracket, and what comes behind it; none when there is no
closing bracket.  A bracket at the very beginning stands for itself. -/
def set? : Nat → Bool → List Glyph → Option (List CharRange × List Glyph)
  | 0, _, _ => none
  | _ + 1, _, [] => none
  | n + 1, first, ⟨c, quoted⟩ :: rest =>
    if c = ']' && !quoted && !first then some ([], rest)
    else
      let opensClass := c = '[' && !quoted && rest.head? = some ⟨':', false⟩
      match (if opensClass then class? (rest.drop 1) else none) with
      | some (ranges, behind) => (set? n false behind).map fun (r, s) => (ranges ++ r, s)
      | none =>
        match rest with
        | ⟨'-', false⟩ :: high :: behind =>
          if high.char = ']' && !high.quoted then
            (set? n false rest).map fun (r, s) => (⟨c, c⟩ :: r, s)
          else (set? n false behind).map fun (r, s) => (⟨c, high.char⟩ :: r, s)
        | _ => (set? n false rest).map fun (r, s) => (⟨c, c⟩ :: r, s)

/-- The pattern that some characters write. -/
def ofGlyphsFrom : Nat → List Glyph → Pattern
  | 0, _ => []
  | _ + 1, [] => []
  | n + 1, ⟨c, quoted⟩ :: rest =>
    if quoted then .exactly c :: ofGlyphsFrom n rest
    else if c = '*' then .anyText :: ofGlyphsFrom n rest
    else if c = '?' then .anyOne :: ofGlyphsFrom n rest
    else if c = '\\' then
      match rest with
      | next :: behind => .exactly next.char :: ofGlyphsFrom n behind
      | [] => [.exactly c]
    else if c = '[' then
      let negated := rest.head? = some ⟨'!', false⟩
      let inside := if negated then rest.drop 1 else rest
      match set? (inside.length + 1) true inside with
      | some (ranges, behind) => .oneOf negated ranges :: ofGlyphsFrom n behind
      | none => .exactly c :: ofGlyphsFrom n rest
    else .exactly c :: ofGlyphsFrom n rest

/-- The pattern that some characters write. -/
def ofGlyphs (s : List Glyph) : Pattern := ofGlyphsFrom (s.length + 1) s

/-- Whether a pattern stands for more than one text. -/
def isProper (p : Pattern) : Bool :=
  p.any fun
    | .exactly _ => false
    | _ => true

/-- Whether a character fits one part of a pattern. -/
def fits (c : Char) : Matcher → Bool
  | .exactly d => c = d
  | .anyOne => true
  | .anyText => false
  | .oneOf negated ranges => (ranges.any fun r => r.low ≤ c && c ≤ r.high) != negated

/-- Whether some end of a text, the text itself included, satisfies a condition. -/
def someTail (p : List Char → Bool) : List Char → Bool
  | [] => p []
  | c :: rest => p (c :: rest) || someTail p rest

/-- Whether a text has the form of a pattern. -/
def accepts : Pattern → List Char → Bool
  | [], s => s.isEmpty
  | .anyText :: p, s => someTail (accepts p) s
  | m :: p, c :: s => fits c m && accepts p s
  | _ :: _, [] => false

/-- The text without its shortest or longest beginning that has the form of the pattern. -/
def trimStart (longest : Bool) (p : Pattern) (s : List Char) : List Char :=
  let sizes := List.range (s.length + 1)
  match (if longest then sizes.reverse else sizes).find? fun n => p.accepts (s.take n) with
  | some n => s.drop n
  | none => s

/-- The text without its shortest or longest end that has the form of the pattern. -/
def trimEnd (longest : Bool) (p : Pattern) (s : List Char) : List Char :=
  let sizes := List.range (s.length + 1)
  match (if longest then sizes else sizes.reverse).find? fun n => p.accepts (s.drop n) with
  | some n => s.take n
  | none => s

end Pattern

end GoldenRun.Shell
