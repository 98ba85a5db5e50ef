import GoldenRun.Number.Numeral
import GoldenRun.Text.Quoted
import GoldenRun.Value
import GoldenRun.Yaml.Fault
import GoldenRun.Yaml.Property

/-!
# What nodes mean

A plain scalar without a tag means the empty value, a truth value, a number, a point in time or,
if it has none of these forms, its own text.  A tag fixes the meaning, and a node that has not the
form its tag demands is a fault.
-/

namespace GoldenRun.Yaml

open GoldenRun.Number GoldenRun.Text

/-- The three kinds of node. -/
inductive NodeKind where
  /-- A text. -/
  | scalar
  /-- A sequence. -/
  | sequence
  /-- A mapping. -/
  | mapping
  deriving DecidableEq, Repr

/-- The name of a kind. -/
def NodeKind.name : NodeKind → String
  | .scalar => "scalar"
  | .sequence => "sequence"
  | .mapping => "mapping"

/-! ## Forms of scalars -/

/-- Whether a text is a word for the empty value. -/
def isNullWord (s : String) : Bool := ["~", "null", "Null", "NULL"].contains s

/-- The truth value of a word. -/
def boolOf? (s : String) : Option Bool :=
  if ["true", "True", "TRUE"].contains s then some true
  else if ["false", "False", "FALSE"].contains s then some false
  else none

/-- The whole number that a text denotes: decimal, or in base two, eight or sixteen. -/
def integerOf? (s : String) : Option Binary64 :=
  let (negative, body) := takeSign s.toList
  let based (base : Nat) (digits : List Char) : Option Binary64 :=
    if digits ≠ [] ∧ digits.all (isDigitOf base) then
      let x := Binary64.ofNat (digitsValue base digits)
      if !x.isFinite then none else some (if negative then x.negate else x)
    else none
  match body with
  | ['0'] => some (.zero false)
  | '0' :: 'b' :: digits => based 2 digits
  | '0' :: 'o' :: digits => based 8 digits
  | '0' :: 'x' :: digits => based 16 digits
  | digits => based 10 digits

/-- The number that a text denotes as a decimal with a fraction or a power of ten, or as a word
for an infinity or for what is not a number. -/
def floatOf? (s : String) : Option Binary64 :=
  let (negative, body) := takeSign s.toList
  let signed := body.length != s.toList.length
  let word := String.ofList body
  if [".inf", ".Inf", ".INF"].contains word then some (.infinity negative)
  else if [".nan", ".NaN", ".NAN"].contains s then some .nan
  else if signed && body.head? = some '.' then none
  else if !(body.head?.any fun c => c.isDigit || c = '.') then none
  else match takeDecimal s.toList with
    | some (x, []) => if x.isFinite then some x else none
    | _ => none

/-- A number of digits at the beginning of a text, at least `least` and at most `most`. -/
def takeDigits? (least most : Nat) (text : List Char) : Option (Nat × List Char) :=
  let run := (text.take most).takeWhile Char.isDigit
  if run.length < least then none else some (digitsValue 10 run, text.drop run.length)

/-- The rest of a text behind a character. -/
def after? (c : Char) : List Char → Option (List Char)
  | x :: rest => if x = c then some rest else none
  | [] => none

/-- The offset in minutes of a time zone at the end of a text. -/
def zoneOf? (text : List Char) : Option Int :=
  match text.dropWhile isWhite with
  | [] => if text = [] then some 0 else none
  | ['Z'] => some 0
  | sign :: rest =>
    if sign = '+' ∨ sign = '-' then do
      let (hours, rest) ← takeDigits? 1 2 rest
      let minutes ← match rest with
        | [] => some 0
        | ':' :: rest => do
          let (minutes, rest) ← takeDigits? 2 2 rest
          if rest = [] then some minutes else none
        | _ => none
      let zone : Int := (hours * 60 + minutes : Nat)
      return if sign = '-' then -zone else zone
    else none

/-- The milliseconds of a fraction of a second. -/
def milliseconds (digits : List Char) : Nat :=
  digitsValue 10 ((digits ++ ['0', '0', '0']).take 3)

/-- The instant of a date, or of a date and a time with an optional fraction and zone. -/
def instantOf? (s : String) : Option Instant := do
  let (year, rest) ← takeDigits? 4 4 s.toList
  let rest ← after? '-' rest
  let (month, rest) ← takeDigits? 1 2 rest
  let monthWidth := s.toList.length - 5 - rest.length
  let rest ← after? '-' rest
  let (day, behind) ← takeDigits? 1 2 rest
  if behind = [] then
    if monthWidth = 2 ∧ rest.length = 2 then
      return Calendar.instant year (month - 1 : Int) day 0 0 0 0
    else none
  else
    let time ← match behind with
      | [] => none
      | c :: more =>
        if c = 'T' ∨ c = 't' then some more
        else if isWhite c then some (more.dropWhile isWhite)
        else none
    let (hour, rest) ← takeDigits? 1 2 time
    let rest ← after? ':' rest
    let (minute, rest) ← takeDigits? 2 2 rest
    let rest ← after? ':' rest
    let (second, rest) ← takeDigits? 2 2 rest
    let (fraction, rest) := match rest with
      | '.' :: more => (more.takeWhile Char.isDigit, more.dropWhile Char.isDigit)
      | more => ([], more)
    let zone ← zoneOf? rest
    return Calendar.instant year (month - 1 : Int) day hour minute second (milliseconds fraction) -
      zone * 60000

/-- The word whose value is merged into the mapping around it. -/
def mergeWord : String := "<<"

/-- The tag of a merge. -/
def mergeTag : String := standardPrefix ++ "merge"

/-- What a plain scalar without a tag means. -/
def plainValue (s : String) : Value :=
  if isNullWord s then .null
  else match boolOf? s, integerOf? s, floatOf? s, instantOf? s with
    | some b, _, _, _ => .bool b
    | none, some x, _, _ => .number x
    | none, none, some x, _ => .number x
    | none, none, none, some t => .date t
    | none, none, none, none => .string s

/-! ## Raw bytes -/

/-- The digits in base sixty-four. -/
def base64Digits : List Char :=
  "ABCDEFGHIJKLMNOPQRSTUVWXYZabcdefghijklmnopqrstuvwxyz0123456789+/".toList

/-- The value of a digit in base sixty-four. -/
def base64Value? (c : Char) : Option Nat := base64Digits.idxOf? c

/-- The low eight bits of a number. -/
def lowByte (n : Nat) : UInt8 := UInt8.ofNat (n % 256)

/-- The bytes of some digits, four digits for three bytes.  No digits at all are three zeros. -/
def base64Bytes : List Nat → Bytes
  | a :: b :: c :: d :: rest =>
    let n := ((a * 64 + b) * 64 + c) * 64 + d
    lowByte (n / 65536) :: lowByte (n / 256) :: lowByte n ::
      if rest = [] then [] else base64Bytes rest
  | [a, b, c] =>
    let n := (a * 64 + b) * 64 + c
    [lowByte (n / 1024), lowByte (n / 4)]
  | [a, b] => [lowByte ((a * 64 + b) / 16)]
  | [_] => []
  | [] => [0, 0, 0]

/-- The bytes that a text encodes in base sixty-four.  Line breaks do not count; the digits and
the padding make up whole bytes. -/
def bytesOf? (s : String) : Option Bytes :=
  let text := s.toList.filter fun c => !isBreak c
  let digits := text.filter (· ≠ '=')
  if digits.all (fun c => (base64Value? c).isSome) && text.length * 6 % 8 = 0 then
    some (base64Bytes (digits.filterMap base64Value?))
  else none

/-! ## Tags -/

/-- The only entry of a mapping, if the value is one with one entry. -/
def singleEntry? (v : Value) : Option (String × Value) :=
  match v with
  | .map [entry] => some entry
  | _ => none

/-- The standard tags. -/
inductive Tag where
  /-- The empty value. -/
  | null
  /-- A truth value. -/
  | bool
  /-- A whole number. -/
  | int
  /-- A number. -/
  | float
  /-- A point in time. -/
  | timestamp
  /-- A merge. -/
  | merge
  /-- Raw bytes. -/
  | binary
  /-- A list of mappings with one key each, all different. -/
  | omap
  /-- A list of pairs. -/
  | pairs
  /-- A mapping to empty values. -/
  | set
  /-- A text. -/
  | str
  /-- A sequence. -/
  | seq
  /-- A mapping. -/
  | map
  deriving DecidableEq, Repr

namespace Tag

/-- The standard tags. -/
def all : List Tag :=
  [null, bool, int, float, timestamp, merge, binary, omap, pairs, set, str, seq, map]

/-- The name of a tag behind the standard prefix. -/
def name : Tag → String
  | null => "null"
  | bool => "bool"
  | int => "int"
  | float => "float"
  | timestamp => "timestamp"
  | merge => "merge"
  | binary => "binary"
  | omap => "omap"
  | pairs => "pairs"
  | set => "set"
  | str => "str"
  | seq => "seq"
  | map => "map"

/-- The kind of node that a tag goes with. -/
def kind : Tag → NodeKind
  | omap | pairs | seq => .sequence
  | set | map => .mapping
  | _ => .scalar

/-- The standard tag of a text. -/
def ofText? (text : String) : Option Tag := all.find? fun t => standardPrefix ++ t.name = text

/-- What is asked of a value that is no text when it is read as a decimal. -/
def decimalQuestion? : Value → Option String
  | .number x => if x.isFinite then some "toLowerCase" else none
  | .binary [_] => some "toLowerCase"
  | _ => none

/-- What is asked of a value that is no text when it is read as a whole number. -/
def integerQuestion? : Value → Option String
  | .binary (_ :: _) => some "charCodeAt"
  | _ => none

/-- What is asked of a value that is no text when it is read as raw bytes. -/
def binaryQuestion? : Value → Option String
  | .binary (_ :: _) => some "charAt"
  | .number _ | .bool _ | .date _ | .binary [] => some "replace"
  | _ => none

/-- What a node with a tag means, if it has the form that the tag demands.  Most tags of scalars
refuse whatever is no text; three of them ask it what only a text can answer. -/
def construct (tag : Tag) (value : Value) : Except Fault Value :=
  let demand (found : Option Value) : Except Fault Value :=
    match found with
    | some v => .ok v
    | none => .error (.unresolved (standardPrefix ++ tag.name))
  let text (read : String → Option Value) (question : Option String) : Except Fault Value :=
    match value, question with
    | .string s, _ => demand (read s)
    | _, some question => .error (.notText question)
    | _, none => demand none
  match tag, value with
  | .null, .null => .ok .null
  | .null, _ => text (fun s => if isNullWord s then some .null else none) none
  | .bool, _ => text (fun s => (boolOf? s).map .bool) none
  | .int, _ => text (fun s => (integerOf? s).map .number) (integerQuestion? value)
  | .float, _ => text (fun s => (floatOf? s).map .number) (decimalQuestion? value)
  | .timestamp, _ => text (fun s => (instantOf? s).map .date) none
  | .merge, .null => .ok .null
  | .merge, _ => text (fun s => if s = mergeWord then some value else none) none
  | .binary, _ => text (fun s => (bytesOf? s).map .binary) (binaryQuestion? value)
  | .str, .null => .ok (.string "")
  | .str, v => .ok v
  | .seq, .null => .ok (.list [])
  | .seq, v => .ok v
  | .map, .null => .ok (.map [])
  | .map, v => .ok v
  | .omap, .list items =>
    demand <| (items.mapM singleEntry?).bind fun entries =>
      if entries.map (·.1) |>.Nodup then some value else none
  | .omap, _ => .ok (.list [])
  | .pairs, .list items =>
    demand <| (items.mapM singleEntry?).map fun entries =>
      .list (entries.map fun (k, v) => .list [.string k, v])
  | .pairs, _ => .ok (.list [])
  | .set, .map entries => demand (if entries.all (·.2 matches .null) then some value else none)
  | .set, _ => .ok (.map [])

end Tag

/-- The tag that stands for the meaning of a plain scalar. -/
def plainTag : String := "?"

/-- The tag that keeps a node as it stands. -/
def verbatimTag : String := "!"

/-- The word for the kind of a node; a node that an alias stands for has none. -/
def kindWord (kind : Option NodeKind) : String := (kind.map NodeKind.name).getD "null"

/-- What a node means. -/
structure Meaning where
  /-- Its tag. -/
  tag : Option String := none
  /-- Its value. -/
  value : Value
  /-- Whether the name of the node, if it has one, goes over to this value. -/
  isNamed : Bool := true

/-- What a value means by its form alone. -/
def Meaning.ofForm (value : Value) : Except Fault Meaning :=
  match value with
  | .null => .ok { tag := some plainTag, value }
  | .string s =>
    let tag := if s = mergeWord then mergeTag else plainTag
    let meant := plainValue s
    .ok { tag := some tag, value := meant, isNamed := tag = mergeTag || !(meant matches .string _) }
  | v =>
    match (Tag.integerQuestion? v).or (Tag.decimalQuestion? v) with
    | some question => .error (.notText question)
    | none => .ok { tag := some plainTag, value := v, isNamed := false }

/-- What a node means by its tag.  Without one it means its value; the tag of plain scalars lets
the form decide, and the verbatim tag changes nothing.  The other tags go with one kind of node
each; the empty value goes with all of them. -/
def Meaning.ofNode (tag : Option String) (kind : Option NodeKind) (value : Value) :
    Except Fault Meaning :=
  let isEmpty := value matches .null
  match tag with
  | none => .ok { value }
  | some tag =>
    if tag = plainTag then
      if isEmpty || kind = some .scalar then Meaning.ofForm value
      else .error (.wrongKind tag NodeKind.scalar.name (kindWord kind))
    else if tag = verbatimTag then .ok { tag, value, isNamed := false }
    else match Tag.ofText? tag with
      | none => .error (.unknownTag tag)
      | some t =>
        if kind.any (· ≠ t.kind) then .error (.unknownTag tag)
        else if kind.isNone && !isEmpty then .error (.wrongKind tag t.kind.name (kindWord kind))
        else (t.construct value).map fun value => { tag, value }

end GoldenRun.Yaml
