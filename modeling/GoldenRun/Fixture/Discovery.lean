import GoldenRun.Failure.Basic
import GoldenRun.Text.Units
import GoldenRun.Workspace

/-!
# Finding the fixtures of a tree

A fixture file is an entry of its kind's directory whose name ends in the kind's extension and
does not begin with a dot.  The files are taken in the order of their full names by sixteen-bit
units, and a directory that is missing holds none.

There are two ways to take stock.  `scan` names every fixture; `load` moreover demands, for each
fixture in turn, that its expected output is a file.
-/

namespace GoldenRun

open GoldenRun.Text

/-- Whether a file name is that of a fixture with the given extension. -/
def isFixtureName (extension name : String) : Bool :=
  extension.toList.isSuffixOf name.toList && name.toList.head? != some '.'

/-- The names of the fixtures among some file names. -/
def fixtureNames (extension : String) (names : List String) : List String :=
  ((names.filter (isFixtureName extension)).mergeSort stringLe).map (Path.stem extension)

namespace Fixture

/-- The names of the fixtures of one kind, in order. -/
def discover (w : Workspace) (root : String) (kind : Kind) : Except DiskError (List String) :=
  let directory := kind.directory root
  if w.disk.hasEntry w.cwd directory then
    (w.disk.list w.cwd directory).map (fixtureNames kind.extension)
  else .ok []

/-- The fixture that a kind and a name mean, if its expected output is a file. -/
def resolve (w : Workspace) (root : String) (kind : Kind) (name : String) :
    Except Defect Fixture :=
  let fixture := describe root kind name
  if w.disk.isFile w.cwd fixture.expectedPath then .ok fixture
  else .error (.missingFixture kind name fixture.expectedPath)

/-- All fixtures of one kind, whether or not their expected output is there. -/
def scanKind (w : Workspace) (root : String) (kind : Kind) : Except Failure (List Fixture) :=
  match discover w root kind with
  | .error e => .error (.disk e)
  | .ok names => .ok (names.map (describe root kind))

/-- All fixtures of one kind with their expected outputs. -/
def loadKind (w : Workspace) (root : String) (kind : Kind) : Except Failure (List Fixture) :=
  match discover w root kind with
  | .error e => .error (.disk e)
  | .ok names =>
    match names.mapM (resolve w root kind) with
    | .error d => .error (.defect d)
    | .ok fixtures => .ok fixtures

end Fixture

namespace Catalog

/-- The catalog whose fixtures of each kind are given, the kinds being asked in order. -/
def gather (root : String) (fixtures : Kind → Except Failure (List Fixture)) :
    Except Failure Catalog := do
  let binaries ← fixtures .binary
  let manifests ← fixtures .manifest
  let traces ← fixtures .trace
  return ⟨root, binaries, manifests, traces⟩

/-- All fixtures of a tree, whether or not their expected outputs are there. -/
def scan (w : Workspace) (root : String) : Except Failure Catalog :=
  gather root (Fixture.scanKind w root)

/-- All fixtures of a tree with their expected outputs. -/
def load (w : Workspace) (root : String) : Except Failure Catalog :=
  gather root (Fixture.loadKind w root)

/-- All fixtures in the order in which a full run visits them. -/
def all (catalog : Catalog) : List Fixture := Kind.all.flatMap catalog.fixtures

end Catalog

/-- A row of the list of fixtures. -/
structure ListRow where
  /-- The kind. -/
  kind : Kind
  /-- The name. -/
  name : String
  /-- The path of the fixture from the root. -/
  fixture : String
  /-- The path of the expected output from the root, marked when nothing is there. -/
  expected : String
  deriving DecidableEq, Repr

/-- The mark behind the path of an expected output that is missing. -/
def missingMark : String := " (missing)"

/-- The row of a fixture. -/
def Fixture.row (w : Workspace) (root : String) (fixture : Fixture) : ListRow where
  kind := fixture.kind
  name := fixture.name
  fixture := Path.rootRelative w.cwd.path fixture.path root
  expected := Path.rootRelative w.cwd.path fixture.expectedPath root ++
    if w.disk.hasEntry w.cwd fixture.expectedPath then "" else missingMark

/-- The rows of all fixtures. -/
def Catalog.rows (w : Workspace) (catalog : Catalog) : List ListRow :=
  catalog.all.map (Fixture.row w catalog.root)

/-- The lines to be found that an expected-output file holds. -/
def Expected.read (w : Workspace) (policy : BlankPolicy) (path : String) :
    Except Failure (List ExpectedLine) :=
  match w.disk.readText w.cwd path with
  | .error e => .error (.disk e)
  | .ok text =>
    match Expected.parse policy text with
    | .ok lines => .ok lines
    | .error n => .error (.defect (.invalidFixture path n blankLineReason))

end GoldenRun
