import GoldenRun.CommandLine.Flag

/-!
# Help pages

A help page shows how a command is called and lists its arguments, its flags and, for the program
itself, its commands.  The lists have two columns; the second one is wrapped at blanks so that no
line is longer than the page, unless a single word is.
-/

namespace GoldenRun.CommandLine

/-- The width of a page. -/
def pageWidth : Nat := 80

/-- The blanks in front of an item. -/
def itemIndent : Nat := 2

/-- The blanks between the columns. -/
def columnGap : Nat := 2

/-- Words laid out in lines of at most `width` characters; `line` is the line so far. -/
def layWords (width : Nat) (line : String) : List String → List String
  | [] => [line]
  | word :: rest =>
    if line.length + 1 + word.length ≤ width then layWords width (line ++ " " ++ word) rest
    else line :: layWords width word rest

/-- A text wrapped in lines of at most `width` characters. -/
def wrapped (width : Nat) (text : String) : List String :=
  match text.splitOn " " with
  | [] => []
  | word :: rest => layWords width word rest

/-- A text followed by as many blanks as it takes. -/
def padded (columns : Nat) (text : String) : String :=
  text ++ String.ofList (List.replicate (columns - text.length) ' ')

/-- A page, in its lines. -/
structure Page where
  /-- How the command is called. -/
  usage : String
  /-- What it does. -/
  description : String
  /-- Its lists: a title, and the items with what they are. -/
  lists : List (String × List (String × String))

namespace Page

/-- The width of the first column. -/
def column (page : Page) : Nat :=
  (page.lists.flatMap (·.2)).foldl (fun n item => max n item.1.length) 0

/-- An item of a list. -/
def itemLines (column : Nat) (item : String × String) : List String :=
  let left := column + columnGap
  let lines := wrapped (pageWidth - itemIndent - left - 1) item.2
  let indent := padded itemIndent ""
  lines.zipIdx.map fun (line, i) =>
    indent ++ (if i = 0 then padded left item.1 else padded left "") ++ line

/-- A list with its title. -/
def listLines (column : Nat) (list : String × List (String × String)) : List String :=
  (list.1 ++ ":") :: list.2.flatMap (itemLines column)

/-- The text of a page. -/
def text (page : Page) : String :=
  let blocks := ["Usage: " ++ page.usage] :: [page.description] ::
    page.lists.map (listLines page.column)
  "\n\n".intercalate (blocks.map ("\n".intercalate ·)) ++ "\n"

end Page

/-- The items for some flags and the flag for help. -/
def flagItems (flags : List Flag) : List (String × String) :=
  (flags ++ [helpFlag]).map fun flag => (flag.shown, flag.explanation)

/-- The page of the program. -/
def programPage : Page where
  usage := programName ++ " [options] [command]"
  description := programDescription
  lists := [("Options", flagItems programFlags),
    ("Commands", Topic.all.map (fun t => (t.usage, t.description)) ++
      [(helpName ++ " [command]", helpFlag.description)])]

/-- The page of a command. -/
def Topic.page (topic : Topic) : Page where
  usage := programName ++ " " ++ topic.usage
  description := topic.description
  lists := (if topic.operands.isEmpty then [] else [("Arguments", topic.operands)]) ++
    [("Options", flagItems topic.flags)]

/-- The help about a command, or about the program. -/
def helpText (topic : Option Topic) : String := (topic.elim programPage Topic.page).text

end GoldenRun.CommandLine
