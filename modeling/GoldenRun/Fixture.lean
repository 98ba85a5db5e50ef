import GoldenRun.Path

/-!
# Fixtures

A fixture tree holds three kinds of fixture, each in a directory and with an extension of its own,
and one directory of expected outputs.  Where a fixture and its expected output lie follows from
its kind and its name alone:

* a binary at `src/bin/<name>.rs`, its expected output at `out/<name>.run`;
* a manifest at `manifests/<name>.toml`, its expected output at `out/<name>.run`;
* a trace at `traces/<name>.trace`, its expected output at `out/trace-<name>.run`.
-/

namespace GoldenRun

/-- The three kinds of fixture; each has a suite of its own. -/
inductive Kind where
  /-- A target that is built and resolved. -/
  | binary
  /-- A project configuration. -/
  | manifest
  /-- A recorded trace. -/
  | trace
  deriving DecidableEq, Repr, Inhabited

namespace Kind

/-- The kinds in the order in which their suites run. -/
def all : List Kind := [.binary, .manifest, .trace]

/-- The name of a kind. -/
def name : Kind → String
  | .binary => "binary"
  | .manifest => "manifest"
  | .trace => "trace"

/-- The kind of a name. -/
def ofName? (name : String) : Option Kind := all.find? (·.name = name)

theorem mem_all (kind : Kind) : kind ∈ all := by cases kind <;> decide

/-- The extension of the fixture files of a kind. -/
def extension : Kind → String
  | .binary => ".rs"
  | .manifest => ".toml"
  | .trace => ".trace"

/-- The directory of the fixture files of a kind. -/
def directory (kind : Kind) (root : String) : String :=
  match kind with
  | .binary => Path.joinAll [root, "src", "bin"]
  | .manifest => Path.join root "manifests"
  | .trace => Path.join root "traces"

/-- The file name of an expected output. -/
def expectedName (kind : Kind) (name : String) : String :=
  (if kind = .trace then "trace-" else "") ++ name ++ ".run"

end Kind

/-- The directory of the expected outputs. -/
def expectedDirectory (root : String) : String := Path.join root "out"

/-- One fixture of a tree. -/
structure Fixture where
  /-- Its kind. -/
  kind : Kind
  /-- Its name: the file name without the extension. -/
  name : String
  /-- The path of its file. -/
  path : String
  /-- The path of its expected output. -/
  expectedPath : String
  deriving DecidableEq, Repr, Inhabited

/-- The fixture that a kind and a name mean; nothing need exist. -/
def Fixture.describe (root : String) (kind : Kind) (name : String) : Fixture where
  kind := kind
  name := name
  path := Path.join (kind.directory root) (name ++ kind.extension)
  expectedPath := Path.join (expectedDirectory root) (kind.expectedName name)

/-- All fixtures of a tree. -/
structure Catalog where
  /-- The root of the tree. -/
  root : String
  /-- The binaries, in order of discovery. -/
  binaries : List Fixture
  /-- The manifests, in order of discovery. -/
  manifests : List Fixture
  /-- The traces, in order of discovery. -/
  traces : List Fixture
  deriving DecidableEq, Repr, Inhabited

/-- The fixtures of one kind. -/
def Catalog.fixtures (catalog : Catalog) : Kind → List Fixture
  | .binary => catalog.binaries
  | .manifest => catalog.manifests
  | .trace => catalog.traces

end GoldenRun
