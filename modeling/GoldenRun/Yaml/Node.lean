import GoldenRun.Yaml.Collection
import GoldenRun.Yaml.Scalar

/-!
# Nodes

A node is a scalar, a sequence, a mapping or an alias, with an optional tag and anchor before it.
Collections are written in flow style, between brackets, or in block style, by indentation.

`composeWith` reads one node and takes as a parameter how to read the nodes inside it; `compose`
ties the knot, for nodes that are nested up to a limit.
-/

namespace GoldenRun.Yaml

open GoldenRun.Text Reading

/-- Where a node stands. -/
inductive Context where
  /-- In a flow collection. -/
  | flowIn
  /-- As a key of a block mapping. -/
  | flowOut
  /-- As an entry of a block sequence. -/
  | blockIn
  /-- As a value of a block mapping, or as the document. -/
  | blockOut
  deriving DecidableEq, Repr

/-- Whether block style is possible. -/
def Context.isBlock (c : Context) : Bool := c = .blockIn || c = .blockOut

/-- A node that was read. -/
structure Node where
  /-- Whether there was anything. -/
  present : Bool := false
  /-- Its tag. -/
  tag : Option String := none
  /-- Its kind. -/
  kind : Option NodeKind := none
  /-- What it means. -/
  value : Value := .null
  deriving Inhabited

/-- How a node is read: the indentation of its parent, its place, whether separation may stand
before it, and whether a block collection may begin on the line of its parent. -/
abbrev Compose := Int → Context → Bool → Bool → Reading Node

/-! ## Flow collections -/

/-- The entries of a flow collection. -/
inductive FlowEntries where
  /-- Of a sequence, the last one first, with its slot among the named nodes. -/
  | sequence (slot : Option Nat) (reversed : List Value)
  /-- Of a mapping. -/
  | mapping (gathering : Gathering)

/-- The value of a flow collection. -/
def FlowEntries.value : FlowEntries → Value
  | .sequence _ reversed => .list reversed.reverse
  | .mapping g => .map g.entries

/-- The kind of a flow collection. -/
def FlowEntries.kind : FlowEntries → NodeKind
  | .sequence _ _ => .sequence
  | .mapping _ => .mapping

/-- Brings a list that is being read up to date among the named nodes. -/
def publishList (slot : Option Nat) (reversed : List Value) : Reading Unit :=
  match slot with
  | some _ => update slot (.list reversed.reverse)
  | none => pure ()

/-- Adds an entry: in a sequence, a pair is a mapping of its own. -/
def FlowEntries.add (entries : FlowEntries) (key : KeySpot) (value : Option Value) :
    Reading FlowEntries :=
  match entries, value with
  | .mapping g, v => return .mapping (← addEntry g key (v.getD .null))
  | .sequence slot reversed, v => do
    let item ← match v with
      | some v => pure (Value.map (← addEntry {} key v).entries)
      | none => pure key.value
    publishList slot (item :: reversed)
    return .sequence slot (item :: reversed)

/-- Reads the entries of a flow collection up to its closing bracket.  `ready` says whether an
entry may come next. -/
def flowEntries (compose : Compose) (indent : Int) (close : Char) :
    Nat → Bool → FlowEntries → Reading FlowEntries
  | 0, _, _ => fail .streamInFlow
  | fuel + 1, ready, entries => do
    if (← cursor).atEnd then fail .streamInFlow
    skipSeparation
    let c ← cursor
    if c.sees close then
      moveTo c.advance
      return entries
    else if !ready then fail .comma
    else if c.sees ',' then fail .emptyEntry
    else
      let explicit := c.sees '?' && c.second?.any isSpacing
      if explicit then
        moveTo c.advance
        skipSeparation
      let start ← cursor
      let key ← compose indent .flowIn false true
      skipSeparation
      let behind ← cursor
      let value ←
        if (explicit || behind.line = start.line) && behind.sees ':' then do
          moveTo behind.advance
          skipSeparation
          pure (some (← compose indent .flowIn false true).value)
        else pure (if explicit then some .null else none)
      let entries ← entries.add ⟨key.tag, key.value, start⟩ value
      skipSeparation
      let d ← cursor
      if d.sees ',' then
        moveTo d.advance
        flowEntries compose indent close fuel true entries
      else flowEntries compose indent close fuel false entries

/-- Reads a flow collection, if one begins here. -/
def flowCollection (compose : Compose) (indent : Int) (name : Option String) :
    Reading (Option FlowEntries) := do
  let c ← cursor
  let fuel := 2 * c.rest.length + 2
  if c.sees '[' then
    let slot ← anchor name (.list [])
    moveTo c.advance
    return some (← flowEntries compose indent ']' fuel true (.sequence slot []))
  else if c.sees '{' then
    let slot ← anchor name (.map [])
    moveTo c.advance
    return some (← flowEntries compose indent '}' fuel true (.mapping { slot }))
  else return none

/-! ## Block sequences -/

/-- Reads the entries of a block sequence; `reversed` are those read, the last one first, and
none of them before the first hyphen. -/
def sequenceEntries (compose : Compose) (indent : Int) (slot : Option Nat) :
    Nat → Option (List Value) → Reading (Option (List Value))
  | 0, entries => return entries
  | fuel + 1, entries => do
    let c ← cursor
    if c.atEnd then return entries
    else match c.tab with
    | some tab => throw ⟨.tab, tab, c.line, c.lineStart⟩
    | none =>
      if !(c.sees '-' && c.second?.any isSpacing) then return entries
      else
        let reversed := entries.getD []
        moveTo c.advance
        let breaks ← separation true
        let d ← cursor
        if 0 < breaks && d.indent ≤ indent then
          publishList slot (.null :: reversed)
          sequenceEntries compose indent slot fuel (some (.null :: reversed))
        else
          let node ← compose indent .blockIn false true
          publishList slot (node.value :: reversed)
          skipSeparation
          let e ← cursor
          let entries := some (node.value :: reversed)
          if (e.line = d.line || indent < e.indent) && !e.atEnd then fail .sequenceIndentation
          else if e.indent < indent then return entries
          else sequenceEntries compose indent slot fuel entries

/-- Reads a block sequence, if one begins here. -/
def blockSequence (compose : Compose) (indent : Int) (name : Option String) :
    Reading (Option (List Value)) := do
  let c ← cursor
  if c.tab.isSome then return none
  else
    let slot ← anchor name (.list [])
    return (← sequenceEntries compose indent slot (c.rest.length + 1) none).map List.reverse

/-! ## Block mappings -/

/-- What an attempt to read a block mapping comes to. -/
inductive MappingAttempt where
  /-- A mapping. -/
  | mapping (entries : Entries)
  /-- A single node that is no key. -/
  | single (node : Node)
  /-- Nothing. -/
  | nothing
  /-- Nothing that could be a key; tag and anchor of the node are dropped. -/
  | dropped

/-- A block mapping that is being read. -/
structure MappingState where
  /-- The entries. -/
  gathering : Gathering := {}
  /-- The key that waits for its value. -/
  key : KeySpot := {}
  /-- Whether that key was written behind a question mark. -/
  atExplicit : Bool := false
  /-- Whether there was any entry. -/
  detected : Bool := false

/-- The mapping with the waiting key of an explicit pair entered, without a value. -/
def MappingState.settle (m : MappingState) : Reading MappingState := do
  if m.atExplicit then
    return { m with gathering := ← addEntry m.gathering m.key .null, key := {} }
  else return m

/-- What was read when a block mapping ends. -/
def MappingState.finish (m : MappingState) (otherwise : MappingAttempt) :
    Reading MappingAttempt := do
  let m ← m.settle
  return if m.detected then .mapping m.gathering.entries else otherwise

/-- The beginning of an entry of a block mapping. -/
inductive EntryStart where
  /-- An explicit key or value, or an implicit key with its colon; a block collection may begin on
  the same line only behind an explicit mark. -/
  | entry (state : MappingState) (compact : Bool)
  /-- The end of the mapping. -/
  | stop (attempt : MappingAttempt)

/-- Reads the beginning of an entry.  Where no mark stands, an explicit key that still waits is
entered at the place of what is read next. -/
def entryStart (compose : Compose) (flowIndent : Int) (m : MappingState) : Reading EntryStart := do
  let c ← cursor
  let marked := c.second?.any isSpacing
  if c.sees '?' && marked then
    let m ← m.settle
    moveTo c.advance
    return .entry { m with key := {}, atExplicit := true, detected := true } true
  else if c.sees ':' && marked then
    if m.atExplicit then
      moveTo c.advance
      return .entry { m with atExplicit := false } true
    else fail .keyMissed
  else
    let node ← compose flowIndent .flowOut false true
    let m := { m with key := { m.key with place := c } }
    if !node.present then return .stop (← m.finish .dropped)
    else
      let d ← cursor
      if d.line = c.line then
        let d := d.skipWhile isWhite
        moveTo d
        if d.sees ':' then
          moveTo d.advance
          if !d.second?.any isSpacing then fail .colonSpacing
          else
            let m ← m.settle
            return .entry { m with
              key := ⟨node.tag, node.value, c⟩
              atExplicit := false
              detected := true } false
        else if m.detected then fail .colonMissed
        else return .stop (.single node)
      else if m.detected then fail .multilineKey
      else return .stop (.single node)

/-- Reads what stands behind the beginning of an entry: an explicit key, or a value. -/
def entryRest (compose : Compose) (indent : Int) (compact : Bool) (m : MappingState) :
    Reading MappingState := do
  let place ← cursor
  let node ← compose indent .blockOut true compact
  if m.atExplicit then
    skipSeparation
    return { m with key := ⟨none, if node.present then node.value else m.key.value, place⟩ }
  else
    let gathering ← addEntry m.gathering m.key (if node.present then node.value else .null)
    skipSeparation
    return { m with gathering, key := {} }

/-- Reads the entries of a block mapping. -/
def mappingEntries (compose : Compose) (indent flowIndent : Int) :
    Nat → MappingState → Reading MappingAttempt
  | 0, m => m.finish .nothing
  | fuel + 1, m => do
    let c ← cursor
    if c.atEnd then m.finish .nothing
    else match c.tab, m.atExplicit with
    | some tab, false => throw ⟨.tab, tab, c.line, c.lineStart⟩
    | _, _ =>
      match ← entryStart compose flowIndent m with
      | .stop attempt => return attempt
      | .entry m compact =>
        let d ← cursor
        let m ←
          if d.line = c.line || indent < d.indent then entryRest compose indent compact m
          else pure m
        let e ← cursor
        if (e.line = c.line || indent < e.indent) && !e.atEnd then fail .mappingIndentation
        else if e.indent < indent then m.finish .nothing
        else mappingEntries compose indent flowIndent fuel m

/-- Reads a block mapping, or the single node that begins here. -/
def blockMapping (compose : Compose) (indent flowIndent : Int) (name : Option String) :
    Reading MappingAttempt := do
  let c ← cursor
  if c.tab.isSome then return .nothing
  else
    let slot ← anchor name (.map [])
    mappingEntries compose indent flowIndent (c.rest.length + 1) { gathering := { slot } }

/-! ## Properties -/

/-- What stands before a node. -/
structure Properties where
  /-- Its tag. -/
  tag : Option String := none
  /-- Its anchor. -/
  name : Option String := none
  /-- Whether the node begins on a line of its own. -/
  newLine : Bool
  /-- Whether it may be a block collection. -/
  collections : Bool
  /-- How it is indented, compared with its parent. -/
  level : Ordering
  /-- Where the first property begins. -/
  start : Option Scan := none

/-- Reads the tag and the anchor of a node.  On a new line, a second tag or anchor is that of the
first key of a mapping. -/
def properties (parent : Int) (block : Bool) : Nat → Properties → Reading Properties
  | 0, p => return p
  | fuel + 1, p => do
    let before ← get
    let c := before.cursor
    if p.newLine && ((c.sees '!' && p.tag.isSome) || (c.sees '&' && p.name.isSome)) then return p
    else
      let tag ← tagProperty p.tag
      let name ← if tag.isSome then pure none else anchorProperty p.name
      if tag.isNone && name.isNone then return p
      else
        let p := { p with
          tag := tag.or p.tag
          name := name.or p.name
          start := p.start.or (some before) }
        let breaks ← separation true
        if 0 < breaks then
          let here ← cursor
          properties parent block fuel { p with
            newLine := true, collections := block, level := compare (here.indent : Int) parent }
        else properties parent block fuel { p with collections := false }

/-! ## Nodes -/

/-- What a node consists of, before its tag is taken into account. -/
structure Content where
  /-- Its tag. -/
  tag : Option String
  /-- Its anchor. -/
  name : Option String
  /-- Its kind and value, if there is anything. -/
  found : Option (Option NodeKind × Value) := none

/-- Reads a block mapping whose first key begins with the properties of the node. -/
def mappingFromProperties (compose : Compose) (start : Scan) (flowIndent : Int) :
    Reading (Option Entries) := do
  let before ← get
  set { before with cursor := start.cursor }
  match ← blockMapping compose start.cursor.column flowIndent none with
  | .mapping entries => return some entries
  | _ =>
    set before
    return none

/-- Reads a scalar or an alias. -/
def scalarContent (context : Context) (flowIndent : Int) (tag name : Option String) :
    Reading Content := do
  let text (tag : Option String) (s : List Char) : Content :=
    { tag, name, found := some (some .scalar, .string (String.ofList s)) }
  if let some s ← if context.isBlock then blockScalar flowIndent else pure none then
    return text tag s
  if let some s ← singleScalar then return text tag s
  if let some s ← doubleScalar then return text tag s
  if let some v ← aliasNode then
    if tag.isSome || name.isSome then fail .aliasProperties
    else return { tag, name, found := some (none, v) }
  if let some s ← plainScalar (context = .flowIn) flowIndent then
    return text (tag.or (some plainTag)) s
  return { tag, name }

/-- Reads a block collection, or the single node that begins here. -/
def blockContent (compose : Compose) (indent flowIndent : Int) (p : Properties) :
    Reading Content := do
  match ← blockSequence compose indent p.name with
  | some items =>
    return { tag := p.tag, name := p.name, found := some (some .sequence, .list items) }
  | none =>
    match ← blockMapping compose indent flowIndent p.name with
    | .mapping entries =>
      return { tag := p.tag, name := p.name, found := some (some .mapping, .map entries) }
    | .single node => return { tag := p.tag, name := p.name, found := some (node.kind, node.value) }
    | .nothing => return { tag := p.tag, name := p.name }
    | .dropped => return { tag := none, name := none }

/-- Reads a flow collection, a scalar or an alias, or a block mapping whose first key begins with
the properties of the node. -/
def flowContent (compose : Compose) (context : Context) (flowIndent : Int) (collections : Bool)
    (start : Option Scan) (tag name : Option String) : Reading Content := do
  match ← flowCollection compose flowIndent name with
  | some entries => return { tag, name, found := some (some entries.kind, entries.value) }
  | none =>
    let c ← cursor
    let fromProperties ←
      match start with
      | some start =>
        if context.isBlock && !collections && !c.sees '|' && !c.sees '>' then
          mappingFromProperties compose start flowIndent
        else pure none
      | none => pure none
    match fromProperties with
    | some entries =>
      return { tag := none, name := none, found := some (some .mapping, .map entries) }
    | none =>
      let content ← scalarContent context flowIndent tag name
      let _ ← anchor content.name ((content.found.map (·.2)).getD .null)
      return content

/-- Reads what stands behind the properties of a node that is indented more than its parent. -/
def innerContent (compose : Compose) (context : Context) (flowIndent : Int) (collections : Bool)
    (p : Properties) : Reading Content := do
  let column := (← cursor).column
  let block ←
    if collections then blockContent compose column flowIndent p
    else pure { tag := p.tag, name := p.name }
  if block.found.isSome then return block
  else flowContent compose context flowIndent collections p.start block.tag block.name

/-- Reads what stands before the content of a node: separation, where it may stand, and the
properties, unless the node is indented no more than its parent. -/
def nodeProperties (parent : Int) (block seek : Bool) : Reading Properties := do
  let breaks ← if seek then separation true else pure 0
  let here ← cursor
  let level := if 0 < breaks then Ord.compare (here.indent : Int) parent else .gt
  let initial : Properties := { newLine := 0 < breaks, collections := block, level }
  if level = .gt then properties parent block (here.rest.length + 1) initial else return initial

/-- Reads what stands behind the properties of a node. -/
def nodeContent (compose : Compose) (parent : Int) (context : Context) (compact : Bool)
    (p : Properties) : Reading Content := do
  let collections := p.collections && (p.newLine || compact)
  let flowIndent := if context.isBlock then parent + 1 else parent
  if p.level = .gt then innerContent compose context flowIndent collections p
  else if context = .blockOut && p.level = .eq && collections then
    let found := (← blockSequence compose (← cursor).column p.name).map fun items =>
      (some NodeKind.sequence, Value.list items)
    return { tag := p.tag, name := p.name, found }
  else return { tag := p.tag, name := p.name }

/-- The node with some content. -/
def Content.node (content : Content) : Reading Node := do
  let (kind, value) := content.found.getD (none, .null)
  match Meaning.ofNode content.tag kind value with
  | .error fault => fail fault
  | .ok meaning =>
    if meaning.isNamed then
      let _ ← anchor content.name meaning.value
    let present := meaning.tag.isSome || content.name.isSome || content.found.isSome
    return { present, tag := meaning.tag, kind, value := meaning.value }

/-- Reads a node, given how to read the nodes inside it. -/
def composeWith (compose : Compose) : Compose := fun parent context seek compact => do
  let p ← nodeProperties parent context.isBlock seek
  let content ← nodeContent compose parent context compact p
  content.node

/-- The greatest depth of nesting. -/
def depthLimit : Nat := 100

/-- Reads a node with at most a number of nodes inside one another. -/
def compose : Nat → Compose
  | 0 => fun _ _ _ _ => fail (.tooDeep depthLimit)
  | depth + 1 => composeWith (compose depth)

end GoldenRun.Yaml
