import GoldenRun.Number.Numeral
import GoldenRun.Number.Shortest
import GoldenRun.Template.Fault
import GoldenRun.Template.Routine
import GoldenRun.Value

/-!
# Values inside a template

What a template works on: scalars, objects with named fields, lists of block parameters, and blocks
that can be entered.  Objects and lists have a mark, by which one is told from another that looks
the same.

Reading a field is lenient or strict.  Lenient reading gives no value for a field that is not
there, but fails where there is nothing to read from.  Strict reading fails for a field that is not
there, save for the names that every value of the kind answers to without having one to show.  Of
some of these names a rendering gives notice (`Datum.isDenied`).
-/

namespace GoldenRun.Template

open GoldenRun.Number GoldenRun.Text

mutual

/-- A value. -/
inductive Datum where
  /-- No value. -/
  | undefined
  /-- The empty value. -/
  | null
  /-- A truth value. -/
  | bool (b : Bool)
  /-- A number. -/
  | number (x : Binary64)
  /-- A text. -/
  | string (s : String)
  /-- The values of block parameters, and where they come from. -/
  | list (mark : Nat) (items path : List Datum)
  /-- Named fields. -/
  | object (mark : Nat) (fields : List (String × Datum))
  /-- A block that can be entered. -/
  | block (b : Block)

/-- A block with what it was met in. -/
inductive Block where
  /-- The block without a text. -/
  | nothing
  /-- A routine, with the data, the block parameters and the contexts around it, and with the
  partials that it declares. -/
  | routine (r : Routine) (data : Datum) (params depths : List Datum)
      (declared : List (String × Datum))
  /-- The body of a partial; the body of the partial around it stands for it while it runs. -/
  | body (inner : Block) (around : Datum)

end

instance : Inhabited Datum := ⟨.undefined⟩

/-- Named values. -/
abbrev Fields := List (String × Datum)

namespace Fields

/-- The value of a field. -/
def get? (fields : Fields) (name : String) : Option Datum :=
  (fields.find? (·.1 = name)).map (·.2)

/-- Whether a field stands before a new one: a field that is named by a number does so when its
number is smaller, and every field does so when the new one is named by none. -/
def standsBefore (name : String) (field : String × Datum) : Bool :=
  match Entries.indexOf? name, Entries.indexOf? field.1 with
  | none, _ => true
  | some n, some m => m < n
  | some _, none => false

/-- The fields with one of them set. -/
def set (fields : Fields) (name : String) (value : Datum) : Fields :=
  if fields.any (·.1 = name) then fields.map fun f => if f.1 = name then (name, value) else f
  else fields.takeWhile (standsBefore name) ++ (name, value) :: fields.dropWhile (standsBefore name)

/-- The fields with others set, one after the other. -/
def setAll (fields more : Fields) : Fields := more.foldl (fun fields f => fields.set f.1 f.2) fields

end Fields

/-! ## Names that values answer to -/

/-- The names of all values that are silently without a value to show. -/
def silentNames : List String :=
  ["constructor", "__defineGetter__", "__defineSetter__", "__lookupGetter__", "__lookupSetter__",
    "__proto__"]

/-- The further names of all values. -/
def commonNames : List String :=
  ["toString", "toLocaleString", "valueOf", "hasOwnProperty", "isPrototypeOf",
    "propertyIsEnumerable"]

/-- The further names of texts. -/
def stringNames : List String :=
  ["anchor", "at", "big", "blink", "bold", "charAt", "charCodeAt", "codePointAt", "concat",
    "endsWith", "fontcolor", "fontsize", "fixed", "includes", "indexOf", "italics", "lastIndexOf",
    "link", "localeCompare", "match", "matchAll", "normalize", "padEnd", "padStart", "repeat",
    "replace", "replaceAll", "search", "slice", "small", "split", "strike", "sub", "substr",
    "substring", "sup", "startsWith", "trim", "trimStart", "trimLeft", "trimEnd", "trimRight",
    "toLocaleLowerCase", "toLocaleUpperCase", "toLowerCase", "toUpperCase", "isWellFormed",
    "toWellFormed"]

/-- The further names of numbers. -/
def numberNames : List String := ["toExponential", "toFixed", "toPrecision"]

/-- The further names of lists. -/
def listNames : List String :=
  ["at", "concat", "copyWithin", "fill", "find", "findIndex", "findLast", "findLastIndex",
    "lastIndexOf", "pop", "push", "reverse", "shift", "unshift", "slice", "sort", "splice",
    "includes", "indexOf", "join", "keys", "entries", "values", "forEach", "filter", "flat",
    "flatMap", "map", "every", "some", "reduce", "reduceRight", "toReversed", "toSorted",
    "toSpliced", "with"]

/-- The further names of blocks. -/
def blockNames : List String := ["apply", "bind", "call"]

namespace Datum

/-! ## Texts and truth -/

mutual

/-- The text of a value, as diagnoses show it. -/
def text : Datum → String
  | undefined => "undefined"
  | null => "null"
  | bool b => if b then "true" else "false"
  | number x => x.text
  | string s => s
  | list _ items _ => ",".intercalate (itemTexts items)
  | object _ _ => "[object Object]"
  | block _ => ""

/-- The texts of the items of a list; an empty item is the empty text. -/
def itemTexts : List Datum → List String
  | [] => []
  | undefined :: rest | null :: rest => "" :: itemTexts rest
  | d :: rest => d.text :: itemTexts rest

end

/-- Whether a value counts as true. -/
def truthy : Datum → Bool
  | undefined | null => false
  | bool b => b
  | number x => !(x.isZero || x = .nan)
  | string s => s ≠ ""
  | _ => true

/-- Whether a value counts as empty; the number zero does not. -/
def isEmpty : Datum → Bool
  | number x => x = .nan
  | list _ items _ => items.isEmpty
  | d => !d.truthy

/-- The number that a scalar or a text stands for. -/
def toNumber : Datum → Binary64
  | undefined => .nan
  | null => .zero false
  | bool b => .ofNat (if b then 1 else 0)
  | number x => x
  | d => readNumeral d.text

/-- The value that is written for a value: the empty text for none. -/
def shown : Datum → Datum
  | undefined | null => string ""
  | d => d

/-- Whether a value is added as a number. -/
def isNumeric : Datum → Bool
  | bool _ | number _ | null | undefined => true
  | _ => false

/-- What is written for two values that stand side by side: numbers and truth values are added, all
else is written one behind the other. -/
def beside (a b : Datum) : Datum :=
  if a.isNumeric && b.isNumeric then number (a.toNumber.add b.toNumber)
  else string (a.text ++ b.text)

/-- Whether two numbers are equal; both zeros are. -/
def sameNumber (x y : Binary64) : Bool := x == y && x != .nan || x.isZero && y.isZero

/-- Whether two contexts count as one and the same.  Scalars and texts are compared by their
numbers where their kinds differ, objects and lists by their marks or their texts. -/
def same (a b : Datum) : Bool :=
  match a, b with
  | undefined, undefined | undefined, null | null, undefined | null, null => true
  | undefined, _ | null, _ | _, undefined | _, null => false
  | block _, _ | _, block _ => false
  | object m _, object n _ | list m _ _, list n _ _ => m = n
  | object .., list .. | list .., object .. => false
  | string s, string t => s = t
  | object .., string t | list .., string t => a.text = t
  | string s, object .. | string s, list .. => s = b.text
  | a, b => sameNumber a.toNumber b.toNumber

/-! ## Reading fields -/

/-- The unit of a text at a position that a name spells. -/
def unitAt? (s name : String) : Option Datum :=
  match Entries.indexOf? name with
  | some n => ((s.toList.flatMap units)[n]?).map fun u => string (String.ofList (ofUnits [u]))
  | none => none

/-- The value of a field of its own. -/
def own? (d : Datum) (name : String) : Option Datum :=
  match d with
  | object _ fields => Fields.get? fields name
  | list mark items path =>
    if name = "length" then some (number (.ofNat items.length))
    else if name = "path" then if path = [] then none else some (list mark path [])
    else (Entries.indexOf? name).bind fun n => items[n]?
  | string s =>
    if name = "length" then some (number (.ofNat (stringWidth s))) else unitAt? s name
  | block _ => if name = "length" then some (number (.ofNat 1)) else none
  | _ => none

/-- Whether a value answers to a name with nothing to show, which is worth a notice. -/
def isDenied (d : Datum) (name : String) : Bool :=
  (d.own? name).isNone &&
    (commonNames.contains name ||
      match d with
      | string _ => stringNames.contains name
      | number _ => numberNames.contains name
      | list .. => listNames.contains name
      | block _ => blockNames.contains name
      | _ => false)

/-- A field, read leniently. -/
def property (d : Datum) (name : String) : Except Fault Datum :=
  match d with
  | undefined | null => .error (.noHolder d.text name)
  | d => .ok ((d.own? name).getD undefined)

/-- A field, read strictly at a place of the template. -/
def strictProperty (d : Datum) (name : String) (place : Place) : Except Fault Datum :=
  match d with
  | object .. | list .. | block _ =>
    match d.own? name with
    | some value => .ok value
    | none =>
      if d.isDenied name || silentNames.contains name then .ok undefined
      else .error (.notDefined name d.text place)
  | _ =>
    if d.truthy then .error (.notSearchable name d.text) else .error (.notDefined name d.text place)

/-- The fields that a value brings along when it is extended. -/
def fields : Datum → Fields
  | object _ fields => fields
  | list mark items path =>
    (items.zipIdx.map fun (d, i) => (toString i, d)) ++
      if path = [] then [] else [("path", list mark path [])]
  | string s =>
    ((s.toList.flatMap units).zipIdx).map fun (u, i) =>
      (toString i, string (String.ofList (ofUnits [u])))
  | _ => []

end Datum

end GoldenRun.Template
