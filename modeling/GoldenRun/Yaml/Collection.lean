import GoldenRun.Yaml.Resolution

/-!
# Building mappings

A mapping takes its entries one after the other.  A key that is no text is turned into one, and a
key may stand only once.  A merge brings in the entries of other mappings: they never replace an
entry that is there, and an entry written later may replace them.  A merge costs one for every
mapping that it looks at and one for every entry of that mapping, and what all merges of a text
cost is limited.
-/

namespace GoldenRun.Yaml

open GoldenRun.Text Reading

/-- A mapping that is being read. -/
structure Gathering where
  /-- The entries so far. -/
  entries : Entries := []
  /-- The keys that were merged in. -/
  merged : List String := []
  /-- Its slot among the named nodes. -/
  slot : Option Nat := none
  deriving Inhabited

/-- A key, and where it stands. -/
structure KeySpot where
  /-- The tag of the key. -/
  tag : Option String := none
  /-- The key. -/
  value : Value := .null
  /-- Its place. -/
  place : Cursor := { rest := [] }
  deriving Inhabited

/-- The text of a key; none if it is a list that holds a list. -/
def keyText? : Value → Option String
  | .list items =>
    if items.any (· matches .list _) then none else some (Value.text (.list items))
  | v => some v.text

/-- The entries that a value brings into a merge. -/
def mergeEntries? : Value → Option Entries
  | .map entries => some entries
  | .list items => some (items.zipIdx.map fun (v, i) => (toString i, v))
  | .date _ => some []
  | .binary bytes =>
    some (bytes.zipIdx.map fun (b, i) => (toString i, .number (.ofNat b.toNat)))
  | _ => none

/-- The greatest number of values merged at once. -/
def mergeLimit : Nat := 100

/-- The greatest cost of all merges. -/
def mergeCostLimit : Nat := 10000

/-- Adds to the cost of merges. -/
def payForMerge (cost : Nat) : Reading Unit := do
  let s ← get
  let paid := s.mergeCost + cost
  set { s with mergeCost := paid }
  if mergeCostLimit < paid then fail (.mergeCost mergeCostLimit)

namespace Gathering

/-- Merges some entries. -/
def merge (g : Gathering) (entries : Entries) : Gathering :=
  entries.foldl (fun g (k, v) =>
    if g.entries.contains k then g
    else { g with entries := g.entries.put k v, merged := k :: g.merged }) g

/-- Merges the entries that several values bring. -/
def mergeAll (g : Gathering) (values : List Value) : Reading Gathering :=
  values.foldlM (fun g v => do
    match mergeEntries? v with
    | some entries =>
      payForMerge (entries.length + 1)
      return g.merge entries
    | none => fail .mergeSource) g

/-- Merges what a value brings: its entries, or those of the values that it lists. -/
def mergeValue (g : Gathering) : Value → Reading Gathering
  | .list values => if mergeLimit < values.length then fail .mergeLength else g.mergeAll values
  | v => g.mergeAll [v]

/-- Whether a key may not be written any more. -/
def isTaken (g : Gathering) (key : String) : Bool :=
  g.entries.contains key && !g.merged.contains key

/-- Puts a value at a key. -/
def put (g : Gathering) (key : String) (value : Value) : Gathering :=
  { g with entries := g.entries.put key value, merged := g.merged.filter (· ≠ key) }

/-- The mapping as it is so far, brought up to date among the named nodes. -/
def publish (g : Gathering) : Reading Gathering := do
  update g.slot (.map g.entries)
  return g

end Gathering

/-- A number, or another one in the place of zero. -/
def orElseNat (n m : Nat) : Nat := if n = 0 then m else n

/-- Adds an entry to a mapping.  A key that stands twice is a fault at the place of the second;
any part of that place that is zero is taken from the cursor instead. -/
def addEntry (g : Gathering) (key : KeySpot) (value : Value) : Reading Gathering := do
  match keyText? key.value with
  | none => fail .nestedKey
  | some text =>
    if key.tag = some mergeTag then (← g.mergeValue value).publish
    else if g.isTaken text then
      let c ← cursor
      throw ⟨.duplicateKey, orElseNat key.place.offset c.offset, orElseNat key.place.line c.line,
        orElseNat key.place.lineStart c.lineStart⟩
    else (g.put text value).publish

end GoldenRun.Yaml
