import GoldenRun.Config.Basic
import GoldenRun.Text.Split
import GoldenRun.Value

/-!
# What a configuration file may say

A configuration file is a mapping whose keys are among seven known ones, each with a value of its
own form.  A file that says anything else is refused with every complaint: first the unknown keys,
in the order in which they stand, then the known keys in a fixed order, and for the build command
each of its elements.
-/

namespace GoldenRun

open GoldenRun.Number GoldenRun.Text

/-- The known keys. -/
inductive Key where
  /-- The active-configuration file. -/
  | activeConfig
  /-- The manifest that is active while binaries are checked. -/
  | generalManifest
  /-- The target that is resolved to check a manifest. -/
  | resolveTarget
  /-- The build command. -/
  | buildCommand
  /-- The directory appended to the search path of a replay. -/
  | toolBinDir
  /-- The time limit. -/
  | timeout
  /-- The meaning of a blank line. -/
  | blankLines
  deriving DecidableEq, Repr

namespace Key

/-- The keys in the order in which their values are checked. -/
def all : List Key :=
  [activeConfig, generalManifest, resolveTarget, buildCommand, toolBinDir, timeout, blankLines]

/-- How a key is written. -/
def name : Key → String
  | activeConfig => "activeConfig"
  | generalManifest => "generalManifest"
  | resolveTarget => "resolveTarget"
  | buildCommand => "buildCommand"
  | toolBinDir => "toolBinDir"
  | timeout => "timeoutMs"
  | blankLines => "blankLines"

/-- Whether a key is known. -/
def isKnown (name : String) : Bool := all.any (·.name = name)

end Key

/-- What a complaint is about. -/
inductive Spot where
  /-- The file as a whole. -/
  | whole
  /-- The value of a key. -/
  | key (key : Key)
  /-- An element of the build command. -/
  | element (index : Nat)
  deriving DecidableEq, Repr

/-- What is wrong with a value. -/
inductive Wrong where
  /-- It is no mapping. -/
  | notObject
  /-- It has an unknown key. -/
  | unknownKey (name : String)
  /-- It is no text. -/
  | notString
  /-- It is the empty text. -/
  | emptyString
  /-- It is no sequence. -/
  | notArray
  /-- It is the empty sequence. -/
  | emptyArray
  /-- It is no whole number. -/
  | notInteger
  /-- It is below zero. -/
  | negative
  /-- It is none of the words allowed. -/
  | notAllowed
  deriving DecidableEq, Repr

/-- A complaint about a configuration file. -/
structure Complaint where
  /-- What it is about. -/
  spot : Spot
  /-- What is wrong. -/
  wrong : Wrong
  deriving DecidableEq, Repr

namespace Complaint

/-- The path of a spot. -/
def spotText : Spot → String
  | .whole => ""
  | .key key => "/" ++ key.name
  | .element index => "/" ++ Key.buildCommand.name ++ "/" ++ toString index

/-- The words for what is wrong. -/
def words : Wrong → String
  | .notObject => "must be object"
  | .unknownKey name => "must NOT have additional properties (" ++ name ++ ")"
  | .notString => "must be string"
  | .emptyString => "must NOT have fewer than 1 characters"
  | .notArray => "must be array"
  | .emptyArray => "must NOT have fewer than 1 items"
  | .notInteger => "must be integer"
  | .negative => "must be >= 0"
  | .notAllowed => "must be equal to one of the allowed values"

/-- The text of a complaint. -/
def text (c : Complaint) : String :=
  match c.spot with
  | .whole => words c.wrong
  | spot => spotText spot ++ ": " ++ words c.wrong

end Complaint

/-- The entries of a value that can be read as a mapping.  A point in time has none, and raw bytes
have one for each byte. -/
def Value.properties? : Value → Option Entries
  | .map entries => some entries
  | .date _ => some []
  | .binary bytes =>
    some (bytes.zipIdx.map fun (b, i) => (toString i, .number (.ofNat b.toNat)))
  | _ => none

namespace Schema

/-- What is wrong with a value that should be a text that is not empty. -/
def wrongText : Value → List Wrong
  | .string s => if s = "" then [.emptyString] else []
  | _ => [.notString]

/-- What is wrong with a value that should be a time limit. -/
def wrongLimit : Value → List Wrong
  | .number x =>
    (if x.isWhole then [] else [.notInteger]) ++
      if x.isFinite && x.isNegative then [.negative] else []
  | _ => [.notInteger]

/-- What is wrong with a value that should be a policy for blank lines. -/
def wrongPolicy : Value → List Wrong
  | .string s => if (BlankPolicy.ofName? s).isSome then [] else [.notAllowed]
  | _ => [.notAllowed]

/-- The complaints about the elements of a build command. -/
def elementComplaints (items : List Value) : List Complaint :=
  items.zipIdx.flatMap fun (item, i) => (wrongText item).map (⟨.element i, ·⟩)

/-- The complaints about the value of a key. -/
def complaints (key : Key) (value : Value) : List Complaint :=
  let here (wrongs : List Wrong) : List Complaint := wrongs.map (⟨.key key, ·⟩)
  match key with
  | .buildCommand =>
    match value with
    | .list items =>
      (if items = [] then here [.emptyArray] else []) ++ elementComplaints items
    | _ => here [.notArray]
  | .timeout => here (wrongLimit value)
  | .blankLines => here (wrongPolicy value)
  | _ => here (wrongText value)

/-- The complaints about the entries of a file. -/
def entryComplaints (entries : Entries) : List Complaint :=
  ((entries.keys.filter fun k => !Key.isKnown k).map fun k => ⟨.whole, .unknownKey k⟩) ++
    Key.all.flatMap fun key => ((entries.get? key.name).map (complaints key)).getD []

/-- The complaints about a document; a document without a value sets nothing. -/
def documentComplaints : Option Value → List Complaint
  | none | some .null => []
  | some value =>
    match value.properties? with
    | some entries => entryComplaints entries
    | none => [⟨.whole, .notObject⟩]

end Schema

namespace Value

/-- The text that a value is. -/
def string? : Value → Option String
  | .string s => some s
  | _ => none

/-- The number that a value is. -/
def number? : Value → Option Binary64
  | .number x => some x
  | _ => none

/-- The items of the sequence that a value is. -/
def items? : Value → Option (List Value)
  | .list items => some items
  | _ => none

end Value

/-- The settings that the entries of a file make. -/
def Settings.ofEntries (entries : Entries) : Settings :=
  let text (key : Key) : Option String := (entries.get? key.name).bind Value.string?
  { activeConfig := text .activeConfig
    generalManifest := text .generalManifest
    resolveTarget := text .resolveTarget
    buildCommand :=
      ((entries.get? Key.buildCommand.name).bind Value.items?).map (·.filterMap Value.string?)
    toolBinDir := text .toolBinDir
    timeout := (entries.get? Key.timeout.name).bind Value.number?
    blankLines := (text .blankLines).bind BlankPolicy.ofName? }

/-- The settings that a document makes, or the complaints about it. -/
def Settings.ofDocument (document : Option Value) : Except (List Complaint) Settings :=
  match Schema.documentComplaints document with
  | [] => .ok (.ofEntries ((document.bind Value.properties?).getD []))
  | complaints => .error complaints

/-- The entries of a configuration, as a file would set them. -/
def Config.entries (c : Config) : Entries :=
  [(Key.activeConfig.name, .string c.activeConfig),
    (Key.generalManifest.name, .string c.generalManifest),
    (Key.resolveTarget.name, .string c.resolveTarget),
    (Key.buildCommand.name, .list (c.buildCommand.map .string)),
    (Key.toolBinDir.name, .string c.toolBinDir),
    (Key.timeout.name, .number c.timeout),
    (Key.blankLines.name, .string c.blankLines.name)]

end GoldenRun
