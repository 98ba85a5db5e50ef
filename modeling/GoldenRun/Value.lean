import GoldenRun.Calendar
import GoldenRun.Number.Shortest
import GoldenRun.Text.Utf8

/-!
# Document values

The values a document can hold.  A mapping has string keys, each once.  Its entries are kept in
one order: first the keys that are whole numbers below 2^32 - 1 in plain decimal, by increasing
number, and then all others in the order in which they were first written (`Entries.put`).

`Value.text` is the plain text of a value where a text is wanted: a list is its items joined by
commas, and a mapping has no text of its own.
-/

namespace GoldenRun

open GoldenRun.Number GoldenRun.Text

/-- A document value. -/
inductive Value where
  /-- The empty value. -/
  | null
  /-- A truth value. -/
  | bool (b : Bool)
  /-- A number. -/
  | number (x : Binary64)
  /-- A text. -/
  | string (s : String)
  /-- A sequence. -/
  | list (items : List Value)
  /-- A mapping. -/
  | map (entries : List (String × Value))
  /-- A point in time. -/
  | date (t : Instant)
  /-- Raw bytes. -/
  | binary (bytes : Bytes)
  deriving Inhabited, Repr

/-- The entries of a mapping. -/
abbrev Entries := List (String × Value)

namespace Entries

/-- The number that a key denotes, if it is a whole number below 2^32 - 1 in plain decimal. -/
def indexOf? (key : String) : Option Nat :=
  match key.toList with
  | [] => none
  | ['0'] => some 0
  | c :: rest =>
    if c = '0' then none
    else if (c :: rest).all Char.isDigit && rest.length < 10 then
      let n := (c :: rest).foldl (fun n d => n * 10 + (d.toNat - '0'.toNat)) 0
      if n < 0xFFFFFFFF then some n else none
    else none

/-- The value at a key. -/
def get? (entries : Entries) (key : String) : Option Value :=
  (entries.find? (·.1 = key)).map (·.2)

/-- Whether there is a value at a key. -/
def contains (entries : Entries) (key : String) : Bool := entries.any (·.1 = key)

/-- The keys, in order. -/
def keys (entries : Entries) : List String := entries.map (·.1)

/-- Whether an entry stands before a new key: an index key does so when its number is smaller,
and every entry does so when the new key is no index. -/
def standsBefore (key : String) (entry : String × Value) : Bool :=
  match indexOf? key, indexOf? entry.1 with
  | none, _ => true
  | some n, some m => m < n
  | some _, none => false

/-- The entries with a value at a key.  A key that is there already keeps its place. -/
def put (entries : Entries) (key : String) (value : Value) : Entries :=
  if entries.contains key then entries.map fun e => if e.1 = key then (key, value) else e
  else entries.takeWhile (standsBefore key) ++ (key, value) :: entries.dropWhile (standsBefore key)

/-- The entries of a list of pairs; the last value written at a key counts. -/
def ofList (pairs : List (String × Value)) : Entries :=
  pairs.foldl (fun entries p => put entries p.1 p.2) []

end Entries

namespace Value

mutual

/-- The plain text of a value. -/
def text : Value → String
  | .null => "null"
  | .bool b => if b then "true" else "false"
  | .number x => x.text
  | .string s => s
  | .list items => ",".intercalate (itemTexts items)
  | .map _ => "[object Object]"
  | .date t => Calendar.longText t
  | .binary bytes => ",".intercalate (bytes.map fun b => toString b.toNat)

/-- The texts of the items of a list; an empty item is the empty text. -/
def itemTexts : List Value → List String
  | [] => []
  | .null :: rest => "" :: itemTexts rest
  | v :: rest => text v :: itemTexts rest

end

end Value

end GoldenRun
