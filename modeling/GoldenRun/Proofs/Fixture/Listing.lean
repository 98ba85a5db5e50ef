import GoldenRun.Proofs.Disk.Reading
import GoldenRun.Proofs.Fixture.Catalog
import GoldenRun.Proofs.Run.Verdict

/-!
# What the list tells about expected outputs

The list marks a fixture when its expected output leads to nothing; a run refuses it when its
expected output is no file.  The two differ over an expected output that is a directory, and over
nothing else.

* `Fixture.marked_row_iff`, `Fixture.resolve_eq_missing_iff`: when either happens
* `Run.list_agrees_unless_directory`: the rows are those of what a full run checks, in order, and
  they tell whether the catalog can be loaded unless an expected output is a directory
-/

namespace GoldenRun

/-- Whether a row of the list is marked for a missing expected output. -/
def ListRow.Marked (w : Workspace) (root : String) (f : Fixture) (row : ListRow) : Prop :=
  row.expected = Path.rootRelative w.cwd.path f.expectedPath root ++ missingMark

namespace Fixture

variable {w : Workspace} {root name : String} {kind : Kind} {f : Fixture}

/-- The row of a fixture is marked if nothing is where its expected output should be. -/
theorem marked_row_iff :
    (f.row w root).Marked w root f ↔ w.disk.hasEntry w.cwd f.expectedPath = false := by
  unfold ListRow.Marked row
  cases w.disk.hasEntry w.cwd f.expectedPath with
  | false => simp
  | true =>
    have hlength : missingMark.length = 10 := by decide
    have hlonger : ∀ column : String, column ≠ column ++ missingMark := by
      intro column h
      have hsame := congrArg String.length h
      rw [String.length_append] at hsame
      omega
    simpa using hlonger _

/-- A fixture is refused for its expected output if that is no file. -/
theorem resolve_eq_missing_iff :
    resolve w root kind name =
        .error (.missingFixture kind name (describe root kind name).expectedPath) ↔
      w.disk.isFile w.cwd (describe root kind name).expectedPath = false := by
  unfold resolve
  dsimp only
  split
  · next hfile => simp [hfile]
  · next hfile => simpa using hfile

end Fixture

namespace Run

variable {σ : Type} {run : Run σ} {w : Workspace} {root : String}

/-- The rows of the list are those of what a full run checks, in order. -/
theorem rows_eq_map_checks (w : Workspace) :
    run.catalog.rows w =
      (run.checks none).map fun check => check.2.row w run.catalog.root := by
  have hchecks : run.checks none = Kind.all.flatMap run.suiteChecks := rfl
  rw [Catalog.rows, Catalog.all, hchecks, List.map_flatMap, List.map_flatMap]
  simp only [suiteChecks, List.map_map, Function.comp_def]

theorem mem_checks_none {check : Kind × Fixture} :
    check ∈ run.checks none ↔ check.2 ∈ run.catalog.fixtures check.1 := by
  have hchecks : run.checks none = Kind.all.flatMap run.suiteChecks := rfl
  obtain ⟨kind, f⟩ := check
  simp only [hchecks, suiteChecks, List.mem_flatMap, List.mem_map, Prod.mk.injEq]
  constructor
  · rintro ⟨_, _, f, hf, rfl, rfl⟩
    exact hf
  · exact fun hf => ⟨kind, Kind.mem_all kind, f, hf, rfl, rfl⟩

/-- A relation between what a full run checks and the rows holds if it holds for each fixture and
its own row. -/
theorem forall₂_checks_rows (hroot : run.catalog.root = root)
    {R : Kind × Fixture → ListRow → Prop} :
    List.Forall₂ R (run.checks none) (run.catalog.rows w) ↔
      ∀ check ∈ run.checks none, R check (check.2.row w root) := by
  rw [rows_eq_map_checks, hroot, List.forall₂_map_right_iff, List.forall₂_same]

/--
**The list and a run agree about expected outputs that are missing unless one is a directory.**

The rows are those of what a full run checks, in the same order.  A row is marked exactly if
nothing is where the expected output should be; the fixture is refused exactly if its row is marked
or its expected output is a directory.  So the catalog can be loaded exactly if no row is marked and
no expected output is a directory.
-/
theorem list_agrees_unless_directory
    (hcatalog : Catalog.scan w root = .ok run.catalog) :
    List.Forall₂ (fun check row =>
        row.kind = check.1 ∧ row.name = check.2.name ∧
        (row.Marked w root check.2 ↔ w.disk.hasEntry w.cwd check.2.expectedPath = false) ∧
        (Fixture.resolve w root check.1 check.2.name =
            .error (.missingFixture check.1 check.2.name check.2.expectedPath) ↔
          row.Marked w root check.2 ∨ w.disk.LeadsToDirectory w.cwd check.2.expectedPath))
      (run.checks none) (run.catalog.rows w) ∧
    ((∃ loaded, Catalog.load w root = .ok loaded) ↔
      List.Forall₂ (fun check row => ¬ row.Marked w root check.2 ∧
          ¬ w.disk.LeadsToDirectory w.cwd check.2.expectedPath)
        (run.checks none) (run.catalog.rows w)) := by
  have hroot : run.catalog.root = root := (Catalog.scan_eq_ok_iff.mp hcatalog).1
  rw [forall₂_checks_rows hroot, forall₂_checks_rows hroot]
  refine ⟨fun check hcheck => ?_, ?_, fun h => ?_⟩
  · obtain ⟨hdescribe, -⟩ := Catalog.eq_describe_of_scan hcatalog (mem_checks_none.mp hcheck)
    refine ⟨congrArg Fixture.kind hdescribe, rfl, Fixture.marked_row_iff, ?_⟩
    rw [Fixture.marked_row_iff, ← Disk.isFile_eq_false_iff, hdescribe]
    exact Fixture.resolve_eq_missing_iff
  · rintro ⟨loaded, hloaded⟩ check hcheck
    obtain ⟨hscanned, hfiles⟩ := Catalog.load_eq_ok_iff.mp hloaded
    obtain rfl := Except.ok.inj (hscanned.symm.trans hcatalog)
    have hfile := hfiles check.2 (Catalog.mem_all.mpr ⟨check.1, mem_checks_none.mp hcheck⟩)
    rw [Fixture.marked_row_iff, ← not_or, ← Disk.isFile_eq_false_iff, hfile]
    decide
  · refine ⟨run.catalog, Catalog.load_eq_ok_iff.mpr ⟨hcatalog, fun f hf => ?_⟩⟩
    obtain ⟨kind, hkind⟩ := Catalog.mem_all.mp hf
    have hplain := h (kind, f) (mem_checks_none.mpr hkind)
    rw [Fixture.marked_row_iff, ← not_or, ← Disk.isFile_eq_false_iff] at hplain
    simpa using hplain

/-- A run over one binary. -/
def directoryOutputRun : Run Unit where
  catalog := ⟨"/tree", [.describe "/tree" .binary "a"], [], []⟩
  config := .default
  tool := "/bin/tool"
  env := []
  runner := fun _ w memory => (.ok {}, w.disk, memory)

/-- A tree in which the expected output of that binary is a directory. -/
def directoryOutputTree : Workspace where
  disk := ⟨[(["tree"], .directory), (["tree", "src"], .directory),
    (["tree", "src", "bin"], .directory), (["tree", "src", "bin", "a.rs"], .file [] false),
    (["tree", "out"], .directory), (["tree", "out", "a.run"], .directory)]⟩
  cwd := ["tree"]
  env := []

theorem scan_directoryOutputTree :
    Catalog.scan directoryOutputTree "/tree" = .ok directoryOutputRun.catalog :=
  Catalog.scan_of_listed rfl (by decide +kernel)

theorem list_agrees_directoryOutputTree :
    Catalog.scan directoryOutputTree "/tree" = .ok directoryOutputRun.catalog ∧
      ¬ ∃ loaded, Catalog.load directoryOutputTree "/tree" = .ok loaded := by
  refine ⟨scan_directoryOutputTree, ?_⟩
  rw [(list_agrees_unless_directory scan_directoryOutputTree).2,
    forall₂_checks_rows rfl]
  intro h
  exact (h (.binary, .describe "/tree" .binary "a") (by decide +kernel)).2
    ⟨["tree", "out", "a.run"], by decide +kernel⟩

/-- No row is marked for an expected output that is a directory, and yet the catalog cannot be
loaded. -/
theorem directory_output_not_marked :
    Catalog.scan directoryOutputTree "/tree" = .ok directoryOutputRun.catalog ∧
      directoryOutputRun.catalog.rows directoryOutputTree =
        [⟨.binary, "a", "src/bin/a.rs", "out/a.run"⟩] ∧
      Fixture.resolve directoryOutputTree "/tree" .binary "a" =
        .error (.missingFixture .binary "a" "/tree/out/a.run") ∧
      Catalog.load directoryOutputTree "/tree" ≠ .ok directoryOutputRun.catalog := by
  refine ⟨scan_directoryOutputTree, by decide +kernel, by decide +kernel, fun hload => ?_⟩
  have hfiles := (Catalog.load_eq_ok_iff.mp hload).2
  exact absurd (hfiles (.describe "/tree" .binary "a") (by decide +kernel)) (by decide +kernel)

end Run

end GoldenRun
