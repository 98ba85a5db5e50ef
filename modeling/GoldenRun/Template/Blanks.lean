import GoldenRun.Template.Tree
import GoldenRun.Text.Blank

/-!
# Blanks around tags

A tilde in a tag takes away all blanks on its side.  Besides, a comment, a partial, or the opening
or closing tag of a block that stands alone on its line takes the whole line away: what precedes it
on the line and what follows it up to and with the line end.  Whether a tag stands alone is judged
by the text as written, before anything is taken away.  The blanks before a partial that stands
alone are kept with it: they indent every line of its text.
-/

namespace GoldenRun.Template

open GoldenRun.Text

/-! ## One piece of text -/

/-- Whether a character is a blank inside a line. -/
def isLineBlank (c : Char) : Bool := c = ' ' || c = '\t'

/-- Whether the blanks at the beginning of a text hold a line end. -/
def startsWithLineEnd (text : List Char) : Bool := (text.takeWhile isBlank).contains '\n'

/-- Whether the blanks at the end of a text hold a line end. -/
def endsWithLineEnd (text : List Char) : Bool := (text.reverse.takeWhile isBlank).contains '\n'

/-- A text without a line end in front. -/
def dropLineEnd : List Char → List Char
  | '\r' :: '\n' :: rest => rest
  | '\r' :: rest => rest
  | '\n' :: rest => rest
  | rest => rest

/-- Takes blanks away at the beginning: all of them, or those up to and with the line end. -/
def Content.cutFront (all : Bool) (c : Content) : Content :=
  if !all && c.cutInFront then c
  else
    let shown :=
      if all then c.shown.dropWhile isBlank else dropLineEnd (c.shown.dropWhile isLineBlank)
    { c with shown := shown, cutInFront := shown ≠ c.shown }

/-- Takes blanks away at the end: all of them, or those inside the last line. -/
def Content.cutEnd (all : Bool) (c : Content) : Content :=
  if !all && c.cutAtEnd then c
  else
    let blank := if all then isBlank else isLineBlank
    let shown := (c.shown.reverse.dropWhile blank).reverse
    { c with shown := shown, cutAtEnd := shown ≠ c.shown }

/-! ## Neighbours -/

/-- The statement with blanks taken away at its beginning, if it is plain text. -/
def Statement.cutFront (all : Bool) : Statement → Statement
  | .content c => .content (c.cutFront all)
  | s => s

/-- The statement with blanks taken away at its end, if it is plain text. -/
def Statement.cutEnd (all : Bool) : Statement → Statement
  | .content c => .content (c.cutEnd all)
  | s => s

/-- Takes blanks away at the beginning of a list of statements. -/
def cutFirst (all : Bool) : List Statement → List Statement
  | [] => []
  | s :: rest => s.cutFront all :: rest

/-- Takes blanks away at the end of a list of statements. -/
def cutLast (all : Bool) (statements : List Statement) : List Statement :=
  match statements.reverse with
  | [] => []
  | s :: rest => (s.cutEnd all :: rest).reverse

/-- Whether a line begins here, the statements before being given last first. -/
def lineBegins (isRoot : Bool) : List Statement → Bool
  | [] => isRoot
  | .content c :: before =>
    endsWithLineEnd c.written || (isRoot && before.isEmpty && allBlank c.written)
  | _ => false

/-- Whether the line ends here. -/
def lineFinishes (isRoot : Bool) : List Statement → Bool
  | [] => isRoot
  | .content c :: behind =>
    startsWithLineEnd c.written || (isRoot && behind.isEmpty && allBlank c.written)
  | _ => false

/-! ## Whole programs -/

/-- How a statement treats the text around it. -/
structure Manner where
  /-- Takes all blanks before it. -/
  before : Bool := false
  /-- Takes all blanks behind it. -/
  behind : Bool := false
  /-- Its opening tag may stand alone. -/
  openAlone : Bool := false
  /-- Its closing tag may stand alone. -/
  closeAlone : Bool := false
  /-- It may stand alone as a whole. -/
  alone : Bool := false

/-- A program with its statements changed. -/
def Program.mapStatements (f : List Statement → List Statement) (p : Program) : Program :=
  p.withStatements (f p.statements)

/-- Changes the body of a block, or its inverse if it has no body. -/
def Statement.mapFirst (f : List Statement → List Statement) : Statement → Statement
  | .block fl call (some b) inv o i c place =>
    .block fl call (some (b.mapStatements f)) inv o i c place
  | .block fl call none (some inv) o i c place =>
    .block fl call none (some (inv.mapStatements f)) o i c place
  | s => s

/-- Changes the inverse of a block, or its body if it has no inverse. -/
def Statement.mapSecond (f : List Statement → List Statement) : Statement → Statement
  | .block fl call b (some inv) o i c place =>
    .block fl call b (some (inv.mapStatements f)) o i c place
  | .block fl call (some b) none o i c place =>
    .block fl call (some (b.mapStatements f)) none o i c place
  | s => s

/-- Changes the statements of an inverse: those of its first branch if it is chained. -/
def Program.mapBranch (f : List Statement → List Statement) (p : Program) : Program :=
  if p.chained then
    p.mapStatements fun
      | .block fl call (some b) inv o i c place :: rest =>
        .block fl call (some (b.mapStatements f)) inv o i c place :: rest
      | l => l
  else p.mapStatements f

/-- The statements of an inverse: those of its first branch if it is chained. -/
def Program.branch (p : Program) : List Statement :=
  if p.chained then
    match p.statements with
    | .block _ _ (some b) _ _ _ _ _ :: _ => b.statements
    | l => l
  else p.statements

/-- Takes blanks away at the end of the last of some statements, which are given last first. -/
def cutBehind (all : Bool) : List Statement → List Statement
  | [] => []
  | last :: before => last.cutEnd all :: before

/-- The blanks that stand before a tag alone on its line and have not been taken away yet, the
statements before it being given last first. -/
def lineIndent : List Statement → List Char
  | .content c :: _ =>
    if !c.cutAtEnd && (c.cutEnd false).cutAtEnd then
      (c.written.reverse.takeWhile isLineBlank).reverse
    else []
  | _ => []

/-- The statement with blanks to be written before each of its lines, if it is a partial. -/
def Statement.indented (indent : List Char) : Statement → Statement
  | .partialCall call strip place _ => .partialCall call strip place indent
  | s => s

/-- Lays out statements side by side.  Those already done are given last first, with the cuts
that they make at the beginning of the next statement. -/
def arrange (isRoot : Bool) :
    (cuts : List Bool) → List Statement → List (Statement × Option Manner) → List Statement
  | _, done, [] => done.reverse
  | cuts, done, (s, manner) :: rest =>
    let s := cuts.foldl (fun s all => s.cutFront all) s
    match manner with
    | none => arrange isRoot [] (s :: done) rest
    | some m =>
      let starts := lineBegins isRoot done
      let finishes := lineFinishes isRoot (rest.map (·.1))
      let whole := m.alone && starts && finishes
      let opens := m.openAlone && starts
      let closes := m.closeAlone && finishes
      let done := if m.before then cutBehind true done else done
      let s := if whole then s.indented (lineIndent done) else s
      let done := if whole then cutBehind false done else done
      let done := if opens then cutBehind false done else done
      let s := if opens then s.mapFirst (cutFirst false) else s
      let s := if closes then s.mapSecond (cutLast false) else s
      let ahead := (if m.behind then [true] else []) ++ (if whole then [false] else []) ++
        (if closes then [false] else [])
      arrange isRoot ahead (s :: done) rest

/-- The manner of a block and the block with the blanks inside it taken away. -/
def trimBlock (flavour : BlockFlavour) (call : Call) (body inverse : Option Program)
    (openStrip inverseStrip closeStrip : Strip) (place : Place) : Statement × Option Manner :=
  let rebuild (b i : Option Program) : Statement :=
    .block flavour call b i openStrip inverseStrip closeStrip place
  match body, inverse with
  | none, none => (rebuild none none, some {})
  | some b, some i =>
    let manner : Manner :=
      { before := openStrip.before, behind := closeStrip.behind
        openAlone := lineFinishes false b.statements
        closeAlone := lineBegins false i.branch.reverse }
    let alone := lineBegins false b.statements.reverse && lineFinishes false i.branch
    let b := if openStrip.behind then b.mapStatements (cutFirst true) else b
    let b := if inverseStrip.before then b.mapStatements (cutLast true) else b
    let i := if inverseStrip.behind then i.mapBranch (cutFirst true) else i
    let i := if closeStrip.before then i.mapBranch (cutLast true) else i
    let b := if alone then b.mapStatements (cutLast false) else b
    let i := if alone then i.mapBranch (cutFirst false) else i
    (rebuild (some b) (some i), some manner)
  | some p, none =>
    let (p, manner) := single p
    (rebuild (some p) none, some manner)
  | none, some p =>
    let (p, manner) := single p
    (rebuild none (some p), some manner)
where
  /-- The same for a block with one program. -/
  single (p : Program) : Program × Manner :=
    let manner : Manner :=
      { before := openStrip.before, behind := closeStrip.behind
        openAlone := lineFinishes false p.statements
        closeAlone := lineBegins false p.statements.reverse }
    let p := if openStrip.behind then p.mapStatements (cutFirst true) else p
    let p := if closeStrip.before then p.mapStatements (cutLast true) else p
    (p, manner)

mutual

/-- A statement with the blanks inside it taken away, and its manner. -/
def trimStatement : Statement → Statement × Option Manner
  | .content c => (.content c, none)
  | .comment strip =>
    (.comment strip, some { before := strip.before, behind := strip.behind, alone := true })
  | .mustache call strip =>
    (.mustache call strip, some { before := strip.before, behind := strip.behind })
  | .decorator call strip =>
    (.decorator call strip, some { before := strip.before, behind := strip.behind })
  | .partialCall call strip place indent =>
    (.partialCall call strip place indent,
      some { before := strip.before, behind := strip.behind, alone := true })
  | .block flavour call body inverse openStrip inverseStrip closeStrip place =>
    trimBlock flavour call (trimOption body) (trimOption inverse) openStrip inverseStrip closeStrip
      place

/-- `trimProgram` where there may be none. -/
def trimOption : Option Program → Option Program
  | none => none
  | some p => some (trimProgram p)

/-- A program inside a block with the blanks around its tags taken away. -/
def trimProgram : Program → Program
  | .mk statements params chained => .mk (arrange false [] [] (trimList statements)) params chained

/-- `trimStatement` for each of some statements. -/
def trimList : List Statement → List (Statement × Option Manner)
  | [] => []
  | s :: rest => trimStatement s :: trimList rest

end

/-- A whole template with the blanks around its tags taken away. -/
def trimTemplate (p : Program) : Program := p.mapStatements fun l => arrange true [] [] (trimList l)

end GoldenRun.Template
