import GoldenRun.Template.Datum
import GoldenRun.Text.Inspected
import GoldenRun.Text.Quoted

/-!
# Notices

What a rendering tells besides its text: the messages that a template asks for, and the names to
which a value answers with nothing to show.

A message is made of values.  A text stands for itself, any other value is inspected; but if the
first value is a text with directives behind percent signs, these take the values that follow.
-/

namespace GoldenRun.Template

open GoldenRun.Number GoldenRun.Text

/-- What a rendering tells besides its text. -/
inductive Notice where
  /-- A message; a grave one is a complaint. -/
  | message (grave : Bool) (text : String)
  /-- A name has nothing to show. -/
  | denied (name : String)
  deriving DecidableEq, Repr

namespace Notice

/-- The line that tells of a name with nothing to show. -/
def deniedText (name : String) : String :=
  "Handlebars: Access has been denied to resolve the property \"" ++ name ++
    "\" because it is not an \"own property\" of its parent.\n" ++
  "You can add a runtime option to disable the check or this warning:\n" ++
  "See https:" ++ "//handlebarsjs.com/api-reference/runtime-options.html" ++
    "#options-to-control-prototype-access for details"

/-- Whether a notice is a complaint. -/
def isGrave : Notice → Bool
  | message grave _ => grave
  | denied _ => true

/-- The text of a notice. -/
def text : Notice → String
  | message _ text => text
  | denied name => deniedText name

end Notice

/-! ## Inspected values -/

/-- The text of an inspected number. -/
def inspectedNumber (x : Binary64) : String := if x.isNegativeZero then "-0" else x.text

/-- Whether a name needs no quotes. -/
def isPlainName (name : String) : Bool :=
  match name.toList with
  | [] => false
  | c :: rest =>
    (c.isAlpha || c = '_') && rest.all fun c => c.isAlphanum || c = '_'

/-- A name as it stands before an inspected field. -/
def inspectedName (name : String) : String :=
  if name = "__proto__" then "['__proto__']"
  else if isPlainName name then name
  else String.ofList (inspectedPiece name.toList)

/-- Some inspected entries between brackets: on one line, if that is allowed and wide enough, or
each on a line of its own. -/
def bracketed (opening closing : String) (indentation : Nat) (mayJoin : Bool)
    (entries : List String) : String :=
  let taken := entries.foldl (fun n e => n + stringWidth e) (2 * entries.length + indentation + 11)
  let fits := mayJoin && taken ≤ inspectedWidth && !entries.any (·.toList.contains '\n')
  if fits then opening ++ " " ++ ", ".intercalate entries ++ " " ++ closing
  else
    let lineStart := "\n" ++ String.ofList (List.replicate indentation ' ')
    opening ++ lineStart ++ "  " ++ ("," ++ lineStart ++ "  ").intercalate entries ++ lineStart ++
      closing

/-- How values are inspected. -/
structure Inspection where
  /-- How deep values are shown. -/
  depth : Nat := 2
  /-- Whether the lengths of lists are shown. -/
  lengths : Bool := false

mutual

/-- A value as it is inspected at a level inside other values and some columns from the left.
`latest` is the level of the value inspected last; the answer comes with the new one. -/
def Datum.inspect (how : Inspection) (level indentation latest : Nat) : Datum → String × Nat
  | .undefined => ("undefined", latest)
  | .null => ("null", latest)
  | .bool b => (if b then "true" else "false", latest)
  | .number x => (inspectedNumber x, latest)
  | .string s => (inspectedAt indentation s, latest)
  | .block .nothing => ("[Function: noop]", latest)
  | .block (.routine ..) => ("[Function: prog]", latest)
  | .block (.body ..) => ("[Function: partialBlockWrapper]", latest)
  | .list _ items path =>
    if items.isEmpty && path.isEmpty && !how.lengths then ("[]", latest)
    else if how.depth < level then ("[Array]", latest)
    else
      let (entries, latest) := inspectItems how (level + 1) (indentation + 2) (level + 1) items
      let lengths := if how.lengths then ["[length]: " ++ toString items.length] else []
      let (origins, latest) :=
        if path.isEmpty then ([], latest)
        else if how.depth < level + 1 then (["path: [Array]"], latest)
        else
          let (inner, latest) := inspectItems how (level + 2) (indentation + 4) (level + 2) path
          let lengths := if how.lengths then ["[length]: " ++ toString path.length] else []
          (["path: " ++
            bracketed "[" "]" (indentation + 2) (latest < level + 5) (inner ++ lengths)], latest)
      (bracketed "[" "]" indentation (latest < level + 4) (entries ++ lengths ++ origins), latest)
  | .object _ fields =>
    if fields.isEmpty then ("\x7b\x7d", latest)
    else if how.depth < level then ("[Object]", latest)
    else
      let (entries, latest) := inspectFields how (level + 1) (indentation + 2) (level + 1) fields
      (bracketed "\x7b" "\x7d" indentation (latest < level + 4) entries, latest)

/-- The inspected items of a list. -/
def inspectItems (how : Inspection) (level indentation latest : Nat) :
    List Datum → List String × Nat
  | [] => ([], latest)
  | d :: rest =>
    let (text, latest) := d.inspect how level indentation latest
    let (texts, latest) := inspectItems how level indentation latest rest
    (text :: texts, latest)

/-- The inspected fields of an object. -/
def inspectFields (how : Inspection) (level indentation latest : Nat) :
    List (String × Datum) → List String × Nat
  | [] => ([], latest)
  | (name, d) :: rest =>
    let (text, latest) := d.inspect how level indentation latest
    let (texts, latest) := inspectFields how level indentation latest rest
    ((inspectedName name ++ ": " ++ text) :: texts, latest)

end

/-- A value as it is inspected by itself. -/
def Datum.inspected (how : Inspection) (d : Datum) : String := (d.inspect how 0 0 0).1

mutual

/-- The compact notation of a value, if it has one. -/
def Datum.compact? : Datum → Option String
  | .undefined | .block _ => none
  | .null => some "null"
  | .bool b => some (if b then "true" else "false")
  | .number x => some (if x.isFinite then x.text else "null")
  | .string s => some (quoted s)
  | .list _ items _ => some ("[" ++ ",".intercalate (compactItems items) ++ "]")
  | .object _ fields => some ("\x7b" ++ ",".intercalate (compactFields fields) ++ "\x7d")

/-- The compact notations of the items of a list. -/
def compactItems : List Datum → List String
  | [] => []
  | d :: rest => d.compact?.getD "null" :: compactItems rest

/-- The compact notations of the fields of an object; a field without one is left out. -/
def compactFields : List (String × Datum) → List String
  | [] => []
  | (name, d) :: rest =>
    match d.compact? with
    | some text => (quoted name ++ ":" ++ text) :: compactFields rest
    | none => compactFields rest

end

/-! ## Messages -/

/-- What a directive makes of a value; none for a letter that is no directive. -/
def directiveText? (letter : Char) (d : Datum) : Option String :=
  match letter with
  | 's' =>
    some <| match d with
      | .number x => inspectedNumber x
      | .list .. | .object .. => d.inspected { depth := 0 }
      | d => d.text
  | 'd' =>
    some <| match d with
      | .block _ => "NaN"
      | d => inspectedNumber d.toNumber
  | 'i' => some (inspectedNumber (leadingWhole true d.text))
  | 'f' => some (inspectedNumber (leadingDecimal d.text))
  | 'j' => some (d.compact?.getD "undefined")
  | 'O' => some (d.inspected {})
  | 'o' => some (d.inspected { depth := 4, lengths := true })
  | 'c' => some ""
  | _ => none

/-- The text with the directives in it carried out, and the values that are left. -/
def fillIn : List Char → List Datum → List Char × List Datum
  | '%' :: '%' :: rest, values =>
    let (text, left) := fillIn rest values
    ('%' :: text, left)
  | '%' :: letter :: rest, d :: values =>
    match directiveText? letter d with
    | some made =>
      let (text, left) := fillIn rest values
      (made.toList ++ text, left)
    | none =>
      let (text, left) := fillIn rest (d :: values)
      ('%' :: letter :: text, left)
  | c :: rest, values =>
    let (text, left) := fillIn rest values
    (c :: text, left)
  | [], values => ([], values)

/-- A value in a message. -/
def Datum.messageText : Datum → String
  | .string s => s
  | d => d.inspected {}

/-- The text of a message made of some values. -/
def messageText : List Datum → String
  | [] => ""
  | [.string s] => s
  | .string s :: values =>
    let (text, left) := fillIn s.toList values
    " ".intercalate (String.ofList text :: left.map Datum.messageText)
  | values => " ".intercalate (values.map Datum.messageText)

/-- The names of the levels of a message. -/
def levelNames : List String := ["debug", "info", "warn", "error"]

/-- The level that a value stands for. -/
def levelOf : Datum → Datum
  | .string s =>
    match levelNames.idxOf? s.toLower with
    | some i => .number (.ofNat i)
    | none => .number (leadingWhole false s)
  | d => d

/-- Whether a number is one or more. -/
def reachesOne (x : Binary64) : Bool :=
  match x with
  | .nan => false
  | .infinity negative => !negative
  | .finite negative m e _ =>
    !negative && if 0 ≤ e then m ≠ 0 else Nat.pow 2 (-e).toNat ≤ m

/-- The notice of a message with a level, unless the level is too low. -/
def messageNotice? (level : Datum) (values : List Datum) : Option Notice :=
  let level := levelOf level
  if reachesOne level.toNumber then
    some (.message (["2", "3"].contains level.text) (messageText values))
  else none

end GoldenRun.Template
