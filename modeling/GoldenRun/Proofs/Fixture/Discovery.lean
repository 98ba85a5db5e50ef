import GoldenRun.Proofs.Disk.Directory
import GoldenRun.Proofs.Fixture.Paths
import GoldenRun.Proofs.Text.Units

/-!
# What is found in the directory of a kind

* `fixtureNames_congr`, `pairwise_fixtureNames`: among some files the same fixtures are found in one
  strict order, whatever the order of the files
* `Fixture.discover_exact`: in a directory exactly the entries that look like fixtures are found,
  each once, and each name leads back to its entry
-/

namespace GoldenRun

open GoldenRun.Text

variable {extension name file : String} {files files' : List String}

/-! ## Fixtures among some files -/

theorem isFixtureName_iff :
    isFixtureName extension file = true ↔
      extension.toList <:+ file.toList ∧ file.toList.head? ≠ some '.' := by
  simp [isFixtureName]

/-- A file name without its extension gets it back. -/
theorem Path.stem_append (h : extension.toList <:+ file.toList) :
    Path.stem extension file ++ extension = file := by
  obtain ⟨before, hfile⟩ := h
  rw [← String.toList_inj, String.toList_append, Path.stem, String.toList_ofList, ← hfile]
  simp

/-- With the extension behind them, the names are the files of the fixtures in order. -/
theorem map_append_fixtureNames (extension : String) (files : List String) :
    (fixtureNames extension files).map (· ++ extension) =
      (files.filter (isFixtureName extension)).mergeSort stringLe := by
  have hstem : ∀ file ∈ (files.filter (isFixtureName extension)).mergeSort stringLe,
      Path.stem extension file ++ extension = file := by
    intro file hfile
    have hfixture := (List.mem_filter.mp (List.mem_mergeSort.mp hfile)).2
    exact Path.stem_append (isFixtureName_iff.mp hfixture).1
  rw [fixtureNames, List.map_map]
  calc
    _ = ((files.filter (isFixtureName extension)).mergeSort stringLe).map id :=
      List.map_congr_left hstem
    _ = _ := List.map_id _

/-- A name is found if its file is there and looks like that of a fixture. -/
theorem mem_fixtureNames_iff :
    name ∈ fixtureNames extension files ↔
      name ++ extension ∈ files ∧ (name ++ extension).toList.head? ≠ some '.' := by
  have hinj : Function.Injective fun stem : String => stem ++ extension := fun _ _ =>
    (String.append_left_inj extension).mp
  rw [← List.mem_map_of_injective hinj, map_append_fixtureNames, List.mem_mergeSort,
    List.mem_filter, isFixtureName_iff]
  simp

/-- The files of the fixtures are in strict order. -/
theorem pairwise_fixtureNames (h : files.Nodup) :
    ((fixtureNames extension files).map (· ++ extension)).Pairwise PrecedesByUnits := by
  rw [map_append_fixtureNames]
  exact pairwise_mergeSort_stringLe (h.filter _)

theorem nodup_fixtureNames (h : files.Nodup) : (fixtureNames extension files).Nodup := by
  refine List.Nodup.of_map (· ++ extension) ?_
  rw [map_append_fixtureNames, (List.mergeSort_perm _ stringLe).nodup_iff]
  exact h.filter _

/-- The order in which the files come does not matter. -/
theorem fixtureNames_congr (h : files.Perm files') :
    fixtureNames extension files = fixtureNames extension files' := by
  rw [fixtureNames, fixtureNames, mergeSort_stringLe_congr (h.filter _)]

/-! ## The fixtures of a directory -/

namespace Fixture

variable {w : Workspace} {root : String} {kind : Kind} {location : Location} {names : List String}

/-- A directory that is missing holds no fixture. -/
theorem discover_of_missing (h : w.disk.hasEntry w.cwd (kind.directory root) = false) :
    discover w root kind = .ok [] := by
  unfold discover
  dsimp only
  rw [if_neg (by simp [h])]

theorem discover_of_directory (hthere : w.disk.hasEntry w.cwd (kind.directory root) = true)
    (hfind : w.disk.find w.cwd (kind.directory root) = .ok (location, .directory)) :
    discover w root kind = .ok (fixtureNames kind.extension (w.disk.names location)) := by
  have hnul : Disk.hasNul (kind.directory root) = false := by
    have hboth := Bool.and_eq_true_iff.mp hthere
    simpa using hboth.1
  unfold discover
  dsimp only
  rw [if_pos hthere, Disk.list, hnul, hfind]
  rfl

/-- The path of a fixture is that of its directory with the file name behind it. -/
theorem path_describe_eq (root : String) (kind : Kind) (hname : '/' ∉ name.toList) :
    (describe root kind name).path =
      kind.directory root ++ "/" ++ (name ++ kind.extension) := by
  have hway : ∃ front last, kind.directory root = Path.joinAll (front ++ [last]) ∧
      Path.IsName last := by
    obtain ⟨front, last, hlast⟩ := (List.eq_nil_or_concat kind.way).resolve_left Kind.way_ne_nil
    rw [List.concat_eq_append] at hlast
    have hmem : last ∈ kind.way := by simp [hlast]
    refine ⟨root :: front, last, ?_, Kind.isName_of_mem_way last hmem⟩
    rw [Kind.directory_eq, hlast, List.cons_append]
  obtain ⟨front, last, hdirectory, hlast⟩ := hway
  rw [describe, hdirectory]
  exact Path.join_joinAll front hlast (isName_file hname)

/-- `Discovered w root kind location names`: these names are what is to be found in the directory of
a kind, which stands at `location`. -/
structure Discovered (w : Workspace) (root : String) (kind : Kind) (location : Location)
    (names : List String) : Prop where
  /-- They are the entries that end in the extension and do not begin with a dot, without the
  extension. -/
  stems : ∀ name, name ∈ names ↔ ∃ file, w.disk.get? (location ++ [file]) ≠ none ∧
    kind.extension.toList <:+ file.toList ∧ file.toList.head? ≠ some '.' ∧
    file = name ++ kind.extension
  /-- Each is there once. -/
  once : names.Nodup
  /-- They are in the strict order of their files. -/
  ordered : (names.map (· ++ kind.extension)).Pairwise PrecedesByUnits
  /-- The path of a fixture is that of the directory with the entry behind it. -/
  path : ∀ name ∈ names, (describe root kind name).path =
    kind.directory root ++ "/" ++ (name ++ kind.extension)
  /-- It leads to the entry, if it is not too long. -/
  leads : ∀ name ∈ names, (name ++ kind.extension).utf8ByteSize ≤ 255 →
    (describe root kind name).path.utf8ByteSize < 4096 →
    ∃ entry, w.disk.find w.cwd (describe root kind name).path =
      .ok (location ++ [name ++ kind.extension], entry)
  /-- No two fixtures have one path. -/
  apart : ∀ name ∈ names, ∀ other ∈ names,
    (describe root kind name).path = (describe root kind other).path → name = other

theorem discovered_fixtureNames (hlegal : w.disk.Legal) (hdistinct : w.disk.Distinct)
    (hfind : w.disk.find w.cwd (kind.directory root) = .ok (location, .directory)) :
    Discovered w root kind location (fixtureNames kind.extension (w.disk.names location)) := by
  have hthere : ∀ name ∈ fixtureNames kind.extension (w.disk.names location),
      name ++ kind.extension ∈ w.disk.names location := fun name hname =>
    (mem_fixtureNames_iff.mp hname).1
  have hslash : ∀ name ∈ fixtureNames kind.extension (w.disk.names location),
      '/' ∉ name.toList := by
    intro name hname hslash
    exact Disk.noSlash_of_mem_names hlegal (hthere name hname) (by simp [hslash])
  have hpath : ∀ name ∈ fixtureNames kind.extension (w.disk.names location),
      (describe root kind name).path =
        kind.directory root ++ "/" ++ (name ++ kind.extension) := fun name hname =>
    path_describe_eq root kind (hslash name hname)
  refine ⟨fun name => ?_, nodup_fixtureNames (Disk.nodup_names hdistinct location),
    pairwise_fixtureNames (Disk.nodup_names hdistinct location), hpath,
    fun name hname hshort hlength => ?_, fun name hname other hother hsame => ?_⟩
  · rw [mem_fixtureNames_iff, Disk.mem_names_iff]
    constructor
    · rintro ⟨hentry, hdot⟩
      exact ⟨_, hentry, by simp, hdot, rfl⟩
    · rintro ⟨file, hentry, -, hdot, rfl⟩
      exact ⟨hentry, hdot⟩
  · obtain ⟨entry, hentry⟩ :=
      Option.ne_none_iff_exists'.mp (Disk.mem_names_iff.mp (hthere name hname))
    rw [hpath name hname] at hlength ⊢
    exact ⟨entry,
      Disk.find_append_name hfind (isName_file (hslash name hname)) hshort hlength hentry⟩
  · rw [hpath name hname, hpath other hother] at hsame
    have hfile := (String.append_right_inj _).mp hsame
    exact (String.append_left_inj kind.extension).mp hfile

/--
**Discovery is exact, and its order does not depend on that of the directory.**

On a disk without two entries at one location, a kind whose directory is missing has no fixtures.
Otherwise the names that are found are the entries of the directory that end in the extension and do
not begin with a dot, without that extension: each once, in the strict order of the entries by
sixteen-bit units, and each with the path of its entry.  On every disk that is the same tree, in
whatever order its entries are listed, the same names are found in the same order.
-/
theorem discover_exact (hlegal : w.disk.Legal) (hdistinct : w.disk.Distinct) (root : String)
    (kind : Kind) :
    (w.disk.hasEntry w.cwd (kind.directory root) = false → discover w root kind = .ok []) ∧
    ∀ location, w.disk.hasEntry w.cwd (kind.directory root) = true →
      w.disk.find w.cwd (kind.directory root) = .ok (location, .directory) →
      ∃ names, discover w root kind = .ok names ∧ Discovered w root kind location names ∧
        ∀ disk', Disk.SameTree w.disk disk' → disk'.Distinct →
          discover { w with disk := disk' } root kind = .ok names := by
  refine ⟨discover_of_missing, fun location hthere hfind => ?_⟩
  refine ⟨_, discover_of_directory hthere hfind,
    discovered_fixtureNames hlegal hdistinct hfind, fun disk' htree hdistinct' => ?_⟩
  have hfind' : disk'.find w.cwd (kind.directory root) =
      w.disk.find w.cwd (kind.directory root) := Disk.find_congr (htree.locate w.cwd _)
  have hthere' : disk'.hasEntry w.cwd (kind.directory root) = true := by
    unfold Disk.hasEntry
    rw [hfind']
    exact hthere
  have hdiscover : discover { w with disk := disk' } root kind =
      .ok (fixtureNames kind.extension (disk'.names location)) :=
    discover_of_directory (w := { w with disk := disk' }) hthere' (hfind'.trans hfind)
  rw [hdiscover, fixtureNames_congr (Disk.perm_names htree hdistinct hdistinct' location)]

/-- A tree whose directory of binaries holds much that is none, in no order. -/
def litteredTree : Workspace where
  disk := ⟨[(["tree"], .directory), (["tree", "src"], .directory),
    (["tree", "src", "bin"], .directory), (["tree", "src", "bin", "ﬁ.rs"], .file [] false),
    (["tree", "src", "bin", "a.rs"], .file [] false), (["tree", "src", "bin", ".rs"], .file [] false),
    (["tree", "src", "bin", "a.rs.rs"], .directory),
    (["tree", "src", "bin", "😀.rs"], .file [] false),
    (["tree", "src", "bin", "a-b.rs"], .file [] false),
    (["tree", "src", "bin", "a.txt"], .file [] false)]⟩
  cwd := ["tree"]
  env := []

theorem discover_exact_litteredTree :
    litteredTree.disk.Legal ∧ litteredTree.disk.Distinct ∧
      ∃ names, discover litteredTree "/tree" .binary = .ok names ∧
        Discovered litteredTree "/tree" .binary ["tree", "src", "bin"] names ∧
        "a.rs" ∈ names ∧ "" ∉ names := by
  have hlegal : litteredTree.disk.Legal := by
    unfold Disk.Legal
    decide +kernel
  have hdistinct : litteredTree.disk.Distinct := by decide +kernel
  obtain ⟨names, hnames, hdiscovered, -⟩ := (discover_exact hlegal hdistinct "/tree" .binary).2
    ["tree", "src", "bin"] (by decide +kernel) (by decide +kernel)
  refine ⟨hlegal, hdistinct, names, hnames, hdiscovered, ?_, fun hempty => ?_⟩
  · exact (hdiscovered.stems "a.rs").mpr
      ⟨"a.rs.rs", by decide +kernel, by decide +kernel, by decide +kernel, by decide +kernel⟩
  · obtain ⟨file, -, -, hdot, rfl⟩ := (hdiscovered.stems "").mp hempty
    exact hdot (by decide +kernel)

end Fixture

end GoldenRun
