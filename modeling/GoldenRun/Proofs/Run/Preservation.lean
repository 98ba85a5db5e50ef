import GoldenRun.Proofs.Config.Reload
import GoldenRun.Proofs.Fixture.Catalog
import GoldenRun.Proofs.Run.Repetition

/-!
# What a run leaves of the fixture tree

A run writes to one place only, where the active-configuration file is.  This is a path from the
root that the configuration chooses freely, so it may well be that of a fixture, of an expected
output, or of the configuration file itself.

* `DiffersAt.find`: a path that leads elsewhere does not see that a file has changed
* `launch_keeps`: with a runner that changes no file, whatever else a path leads to stays as it is
* `fixture_tree_kept`: the same for all files of a fixture tree
* `active_file_over_expected_output`: an accepted configuration with which an expected output is
  written over
-/

namespace GoldenRun

open GoldenRun.Text

namespace Disk

variable {disk disk' : Disk} {cwd cwd' location : Location} {path target : String} {entry : Entry}
  {bytes : Bytes}

/-- What a path leads to stays as it is where only another file has changed. -/
theorem DiffersAt.find (h : DiffersAt cwd target disk disk')
    (hfind : disk.find cwd' path = .ok (location, entry))
    (hapart : disk.destination cwd target ≠ .ok location) :
    disk'.find cwd' path = .ok (location, entry) := by
  have hlocate := find_eq_ok_iff.mp hfind
  cases hgoal : disk.destination cwd target with
  | error fault =>
    -- Without such a file nothing has changed at all.
    rw [find_congr (locate_congr fun l _ => h.elsewhere l (by simp [hgoal])), hfind]
  | ok goal =>
    have hleads : ∀ place, disk.locate cwd' path = .ok place → place.location ≠ goal := by
      rintro place hplace rfl
      obtain rfl := Except.ok.inj (hlocate.symm.trans hplace)
      exact hapart hgoal
    rcases locate_or_obstacle (fun l hl => h.elsewhere_of_ne hgoal hl) (get?_of_destination hgoal)
      (get?_of_destination (h.destination.trans hgoal)) hleads with hsame | ⟨-, hrefused, -⟩
    · rw [find_congr hsame, hfind]
    · cases hlocate.symm.trans hrefused

theorem exists_find_of_read (h : disk.read cwd path = .ok bytes) :
    ∃ location mark, disk.find cwd path = .ok (location, .file bytes mark) := by
  unfold read at h
  split at h
  · cases h
  · split at h
    · next hfind =>
      obtain rfl := Except.ok.inj h
      exact ⟨_, _, hfind⟩
    · cases h
    · cases h

/-- Where a path leads to a file. -/
theorem isFile_iff :
    disk.isFile cwd path = true ↔ hasNul path = false ∧
      ∃ location bytes mark, disk.find cwd path = .ok (location, .file bytes mark) := by
  unfold isFile
  cases disk.find cwd path with
  | error fault => simp
  | ok place =>
    obtain ⟨location, entry⟩ := place
    cases entry <;> simp

end Disk

/-- The file of a configuration that was loaded is a file, if anything is there. -/
theorem Config.exists_find_of_load {w : Workspace} {root : String} {named : Option String}
    {c : Config} (h : load w root named = .ok c)
    (hentry : w.disk.hasEntry w.cwd (configPath w root named) = true) :
    ∃ location bytes mark,
      w.disk.find w.cwd (configPath w root named) = .ok (location, .file bytes mark) := by
  unfold load at h
  dsimp only at h
  rw [if_pos hentry] at h
  cases hread : w.disk.read w.cwd (configPath w root named) with
  | error error =>
    rw [Disk.readText, hread] at h
    cases h
  | ok bytes =>
    obtain ⟨location, mark, hfind⟩ := Disk.exists_find_of_read hread
    exact ⟨location, bytes, mark, hfind⟩

namespace Run

variable {σ : Type} {run : Run σ} {w v : Workspace} {root path : String} {named : Option String}
  {cwd : Location} {selection : Option (List Kind)} {memory : σ}

/-- What a path leads to before a run it leads to after the run, with the same bytes, unless it is
what the path of the active file leads to. -/
def Keeps (run : Run σ) (selection : Option (List Kind)) (v : Workspace) (memory : σ)
    (cwd : Location) (path : String) : Prop :=
  ∀ location entry, v.disk.find cwd path = .ok (location, entry) →
    v.disk.destination v.cwd run.activeFile ≠ .ok location →
      (run.launch selection v memory).2.workspace.disk.find cwd path = .ok (location, entry)

/-- A run with a runner that changes no file changes the active file only, however it ends. -/
theorem launch_keeps (hkeeps : run.runner.KeepsTree) (htree : v.disk.IsTree) :
    run.Keeps selection v memory cwd path := by
  intro location entry hfind hapart
  obtain ⟨x, d, hsteps, hperform, -⟩ :=
    verdict_recorded run selection ⟨v, { runner := memory }⟩
  have hdiffers : v.disk.DiffersAt v.cwd run.activeFile d.workspace.disk :=
    hsteps.differs hkeeps htree .refl
  unfold launch
  rw [hperform]
  exact hdiffers.find hfind hapart

/--
**A run leaves the files of the fixture tree as they are, but for the active file.**

The configuration and the catalog were loaded from the disk on which the run begins.  Then each
fixture, each expected output and the configuration file is there after the run with the same bytes,
unless the path of the active file leads to the very same file.
-/
theorem fixture_tree_kept (hconfig : Config.load w root named = .ok run.config)
    (hcatalog : Catalog.load w root = .ok run.catalog) (hdisk : v.disk = w.disk)
    (htree : w.disk.IsTree) (hkeeps : run.runner.KeepsTree) (selection : Option (List Kind))
    (memory : σ) :
    (∀ f ∈ run.catalog.all, run.Keeps selection v memory w.cwd f.path ∧
      run.Keeps selection v memory w.cwd f.expectedPath ∧
        ∃ location bytes mark,
          w.disk.find w.cwd f.expectedPath = .ok (location, .file bytes mark)) ∧
    run.Keeps selection v memory w.cwd (configPath w root named) ∧
      (w.disk.hasEntry w.cwd (configPath w root named) = true →
        ∃ location bytes mark,
          w.disk.find w.cwd (configPath w root named) = .ok (location, .file bytes mark)) := by
  rw [← hdisk] at htree
  have hall : ∀ path, run.Keeps selection v memory w.cwd path :=
    fun path => launch_keeps hkeeps htree
  refine ⟨fun f hf => ⟨hall _, hall _, ?_⟩, hall _, Config.exists_find_of_load hconfig⟩
  exact (Disk.isFile_iff.mp ((Catalog.load_eq_ok_iff.mp hcatalog).2 f hf)).2

/-- A tree whose configuration takes an expected output for the active file. -/
def overwritingTree : Workspace where
  disk := ⟨[(["tree"], .directory),
    (["tree", "golden-trace.yml"], .file (encode "activeConfig: out/general.run\n") false),
    (["tree", "manifests"], .directory),
    (["tree", "manifests", "general.toml"], .file (encode "g\n") false),
    (["tree", "out"], .directory), (["tree", "out", "general.run"], .file [] false)]⟩
  cwd := ["tree"]
  env := [("HOME", "/home/dev")]

/-- A run over that tree, with a runner that leaves the disk alone. -/
def overwritingRun : Run Unit where
  catalog := ⟨"/tree", [], [.describe "/tree" .manifest "general"], []⟩
  config := { Config.default with
    activeConfig := "out/general.run"
    toolBinDir := "/home/dev/.cargo/bin" }
  tool := "/bin/tool"
  env := []
  runner := fun _ w memory => (.ok {}, w.disk, memory)

theorem load_overwritingTree :
    Config.load overwritingTree "/tree" none = .ok overwritingRun.config ∧
      Catalog.load overwritingTree "/tree" = .ok overwritingRun.catalog := by
  refine ⟨by decide +kernel, Catalog.load_eq_ok_iff.mpr ⟨?_, by decide +kernel⟩⟩
  exact Catalog.scan_of_listed rfl (by decide +kernel)

theorem fixture_tree_kept_overwritingTree :
    Config.load overwritingTree "/tree" none = .ok overwritingRun.config ∧
      Catalog.load overwritingTree "/tree" = .ok overwritingRun.catalog ∧
      overwritingTree.disk.IsTree ∧ overwritingRun.runner.KeepsTree ∧
      (overwritingRun.launch none overwritingTree ()).2.workspace.disk.find ["tree"]
          "/tree/manifests/general.toml" =
        .ok (["tree", "manifests", "general.toml"], .file (encode "g\n") false) := by
  obtain ⟨hconfig, hcatalog⟩ := load_overwritingTree
  have htree : overwritingTree.disk.IsTree := by decide +kernel
  have hkeeps : overwritingRun.runner.KeepsTree := fun _ _ _ => .refl
  obtain ⟨hkept, -, -⟩ :=
    fixture_tree_kept (v := overwritingTree) hconfig hcatalog rfl htree hkeeps none ()
  obtain ⟨hpath, -, -⟩ := hkept (.describe "/tree" .manifest "general") (by decide +kernel)
  exact ⟨hconfig, hcatalog, htree, hkeeps, hpath _ _ (by decide +kernel) (by decide +kernel)⟩

/-- **A run may damage the fixture tree**: with this configuration, which is accepted, the expected
output of the general manifest is written over with the manifest. -/
theorem active_file_over_expected_output :
    Config.load overwritingTree "/tree" none = .ok overwritingRun.config ∧
      Catalog.load overwritingTree "/tree" = .ok overwritingRun.catalog ∧
      overwritingRun.runner.KeepsTree ∧
      ∃ f ∈ overwritingRun.catalog.all,
        overwritingTree.disk.read ["tree"] f.expectedPath = .ok [] ∧
        (overwritingRun.launch (some [.binary]) overwritingTree ()).1 = .ok (.passed 0) ∧
        (overwritingRun.launch (some [.binary]) overwritingTree ()).2.workspace.disk.read ["tree"]
          f.expectedPath = .ok (encode "g\n") := by
  obtain ⟨hconfig, hcatalog⟩ := load_overwritingTree
  exact ⟨hconfig, hcatalog, fun _ _ _ => .refl, .describe "/tree" .manifest "general",
    by decide +kernel, by decide +kernel, by decide +kernel, by decide +kernel⟩

end Run

end GoldenRun
