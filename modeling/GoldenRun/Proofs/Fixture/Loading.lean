import GoldenRun.Proofs.Fixture.Catalog

/-!
# Loading a catalog is scanning it and checking it

To load a catalog is to take each kind in turn, and to demand the expected output of each of its
fixtures before the next kind is listed.  To scan it is to list the kinds alone.

* `resolve_eq_error_iff`, `loadKind_eq_error_iff`: how one fixture and how one kind is refused
* `load_eq_checked_scan`: loading gives the catalog of the scan, or reports the first of its
  fixtures whose expected output is no file; where the scan fails, nothing is loaded
-/

namespace GoldenRun

variable {w : Workspace} {root name : String} {kind : Kind} {fixtures : List Fixture} {f : Fixture}

namespace Fixture

/-- Of some fixtures `f` is the first whose expected output is no file. -/
def FirstMissing (w : Workspace) (fixtures : List Fixture) (f : Fixture) : Prop :=
  ∃ before after, fixtures = before ++ f :: after ∧
    (∀ g ∈ before, w.disk.isFile w.cwd g.expectedPath = true) ∧
    w.disk.isFile w.cwd f.expectedPath = false

/-- The first one stays the first when fixtures with their expected outputs are put in front, and
whatever is put behind. -/
theorem FirstMissing.append (h : FirstMissing w fixtures f) {ahead : List Fixture}
    (hahead : ∀ g ∈ ahead, w.disk.isFile w.cwd g.expectedPath = true) (behind : List Fixture) :
    FirstMissing w (ahead ++ fixtures ++ behind) f := by
  obtain ⟨before, after, rfl, hbefore, hf⟩ := h
  refine ⟨ahead ++ before, after ++ behind, by simp, fun g hg => ?_, hf⟩
  exact (List.mem_append.mp hg).elim (hahead g) (hbefore g)

/-- A fixture is refused for its expected output alone. -/
theorem resolve_eq_error_iff {d : Defect} :
    resolve w root kind name = .error d ↔
      w.disk.isFile w.cwd (describe root kind name).expectedPath = false ∧
        d = .missingFixture kind name (describe root kind name).expectedPath := by
  unfold resolve
  dsimp only
  split
  · next hfile => simp [hfile]
  · next hfile =>
    rw [Bool.not_eq_true] at hfile
    simp [hfile, eq_comm]

/-- A kind is refused when it cannot be listed, or for its first fixture whose expected output is no
file. -/
theorem loadKind_eq_error_iff {failure : Failure} :
    loadKind w root kind = .error failure ↔
      scanKind w root kind = .error failure ∨
        ∃ fixtures f, scanKind w root kind = .ok fixtures ∧ FirstMissing w fixtures f ∧
          failure = .defect (.missingFixture f.kind f.name f.expectedPath) := by
  unfold loadKind scanKind
  cases discover w root kind with
  | error e => simp
  | ok names =>
    have hrefused : (∃ d, names.mapM (resolve w root kind) = .error d ∧ failure = .defect d) ↔
        ∃ f, FirstMissing w (names.map (describe root kind)) f ∧
          failure = .defect (.missingFixture f.kind f.name f.expectedPath) := by
      constructor
      · rintro ⟨d, hd, rfl⟩
        obtain ⟨before, name, after, rfl, hbefore, hname⟩ := mapM_eq_error_iff.mp hd
        obtain ⟨hfile, rfl⟩ := resolve_eq_error_iff.mp hname
        refine ⟨describe root kind name, ⟨before.map (describe root kind),
          after.map (describe root kind), by simp, fun g hg => ?_, hfile⟩, rfl⟩
        obtain ⟨earlier, hearlier, rfl⟩ := List.mem_map.mp hg
        obtain ⟨g, hg⟩ := hbefore earlier hearlier
        obtain ⟨rfl, hfile⟩ := resolve_eq_ok_iff.mp hg
        exact hfile
      · rintro ⟨f, ⟨before, after, hsplit, hbefore, hfile⟩, rfl⟩
        obtain ⟨earlier, rest, rfl, rfl, hrest⟩ := List.map_eq_append_iff.mp hsplit
        obtain ⟨name, later, rfl, rfl, rfl⟩ := List.map_eq_cons_iff.mp hrest
        refine ⟨_, mapM_eq_error_iff.mpr ⟨earlier, name, later, rfl, fun n hn => ?_,
          resolve_eq_error_iff.mpr ⟨hfile, rfl⟩⟩, rfl⟩
        exact ⟨_, resolve_eq_ok_iff.mpr ⟨rfl, hbefore _ (List.mem_map_of_mem hn)⟩⟩
    cases hresolved : names.mapM (resolve w root kind) with
    | error d => simpa [hresolved, eq_comm] using hrefused
    | ok found => simpa [hresolved] using hrefused

end Fixture

namespace Catalog

variable {catalog : Catalog}

theorem all_eq (catalog : Catalog) :
    catalog.all = catalog.binaries ++ catalog.manifests ++ catalog.traces := by
  simp [all, Kind.all, Catalog.fixtures]

/-- A catalog that is scanned but not loaded is refused for its first fixture whose expected output
is no file. -/
theorem firstMissing_of_load {failure : Failure} (hscan : scan w root = .ok catalog)
    (hload : load w root = .error failure) :
    ∃ f, Fixture.FirstMissing w catalog.all f ∧
      failure = .defect (.missingFixture f.kind f.name f.expectedPath) := by
  obtain ⟨-, hscanned⟩ := gather_eq_ok_iff.mp hscan
  obtain ⟨earlier, kind, later, hsplit, hearlier, hkind⟩ := gather_eq_error_iff.mp hload
  rcases Fixture.loadKind_eq_error_iff.mp hkind with hlist | ⟨fixtures, f, hfixtures, hf, rfl⟩
  · cases (hscanned kind).symm.trans hlist
  · obtain rfl := Except.ok.inj (hfixtures.symm.trans (hscanned kind))
    refine ⟨f, ?_, rfl⟩
    -- The kinds before this one were loaded, so their expected outputs are files.
    have hahead : ∀ g ∈ earlier.flatMap catalog.fixtures,
        w.disk.isFile w.cwd g.expectedPath = true := by
      intro g hg
      obtain ⟨k, hk, hmem⟩ := List.mem_flatMap.mp hg
      obtain ⟨found, hfound⟩ := hearlier k hk
      obtain ⟨hfound, hfiles⟩ := Fixture.loadKind_eq_ok_iff.mp hfound
      obtain rfl := Except.ok.inj (hfound.symm.trans (hscanned k))
      exact hfiles g hmem
    rw [all, hsplit, List.flatMap_append, List.flatMap_cons, ← List.append_assoc]
    exact hf.append hahead _

/-- What cannot be scanned is not loaded: it is refused as the scan is, or before that for a fixture
of a kind that was listed. -/
theorem load_of_scan_error {failure : Failure} (hscan : scan w root = .error failure) :
    load w root = .error failure ∨
      ∃ kind fixtures f, Fixture.scanKind w root kind = .ok fixtures ∧
        Fixture.FirstMissing w fixtures f ∧
        load w root = .error (.defect (.missingFixture f.kind f.name f.expectedPath)) := by
  cases hload : load w root with
  | ok catalog => cases (load_eq_ok_iff.mp hload).1.symm.trans hscan
  | error failure' =>
    obtain ⟨earlier, kind, later, hsplit, hearlier, hkind⟩ := gather_eq_error_iff.mp hload
    rcases Fixture.loadKind_eq_error_iff.mp hkind with hlist | ⟨fixtures, f, hfixtures, hf, rfl⟩
    · -- The kinds before were loaded, hence scanned, so this is where the scan fails too.
      have hscanned : ∀ k ∈ earlier, ∃ found, Fixture.scanKind w root k = .ok found := by
        intro k hk
        obtain ⟨found, hfound⟩ := hearlier k hk
        exact ⟨found, (Fixture.loadKind_eq_ok_iff.mp hfound).1⟩
      have hscan' : scan w root = .error failure' :=
        gather_eq_error_iff.mpr ⟨earlier, kind, later, hsplit, hscanned, hlist⟩
      exact .inl (hscan'.symm.trans hscan)
    · exact .inr ⟨kind, fixtures, f, hfixtures, hf, rfl⟩

/--
**To load a catalog is to scan it and to check it completely.**

When the scan succeeds, loading gives the same catalog if every expected output is a file, and
reports the first fixture for which this is not so otherwise: binaries come before manifests, and
manifests before traces, each in the order in which they were found.  When the scan fails, loading
fails as well, in the same way or for an expected output that it misses before.
-/
theorem load_eq_checked_scan (w : Workspace) (root : String) :
    (∀ catalog, scan w root = .ok catalog →
      (∀ f ∈ catalog.all, w.disk.isFile w.cwd f.expectedPath = true) ∧
          load w root = .ok catalog ∨
        ∃ f, Fixture.FirstMissing w
            (catalog.binaries ++ catalog.manifests ++ catalog.traces) f ∧
          load w root = .error (.defect (.missingFixture f.kind f.name f.expectedPath))) ∧
    ∀ failure, scan w root = .error failure →
      load w root = .error failure ∨
        ∃ kind fixtures f, Fixture.scanKind w root kind = .ok fixtures ∧
          Fixture.FirstMissing w fixtures f ∧
          load w root = .error (.defect (.missingFixture f.kind f.name f.expectedPath)) := by
  refine ⟨fun catalog hscan => ?_, fun failure hscan => load_of_scan_error hscan⟩
  cases hload : load w root with
  | ok loaded =>
    obtain ⟨hscanned, hfiles⟩ := load_eq_ok_iff.mp hload
    obtain rfl := Except.ok.inj (hscanned.symm.trans hscan)
    exact .inl ⟨hfiles, rfl⟩
  | error failure =>
    obtain ⟨f, hf, rfl⟩ := firstMissing_of_load hscan hload
    rw [all_eq] at hf
    exact .inr ⟨f, hf, rfl⟩

/-- A tree in which the expected output of a binary is a directory, and that of a trace is
missing. -/
def untidyTree : Workspace where
  disk := ⟨[(["tree"], .directory), (["tree", "src"], .directory),
    (["tree", "src", "bin"], .directory), (["tree", "src", "bin", "a.rs"], .file [] false),
    (["tree", "traces"], .directory), (["tree", "traces", "t.trace"], .file [] false),
    (["tree", "out"], .directory), (["tree", "out", "a.run"], .directory)]⟩
  cwd := ["tree"]
  env := []

/-- The fixtures of that tree. -/
def untidyCatalog : Catalog :=
  ⟨"/tree", [.describe "/tree" .binary "a"], [], [.describe "/tree" .trace "t"]⟩

theorem scan_untidyTree : scan untidyTree "/tree" = .ok untidyCatalog :=
  scan_of_listed rfl (by decide +kernel)

/-- Of the two defects of that tree the one of the binary is reported. -/
theorem load_eq_checked_scan_untidyTree :
    scan untidyTree "/tree" = .ok untidyCatalog ∧
      load untidyTree "/tree" =
        .error (.defect (.missingFixture .binary "a" "/tree/out/a.run")) := by
  refine ⟨scan_untidyTree, ?_⟩
  have hdirectory : untidyTree.disk.isFile untidyTree.cwd
      (Fixture.describe "/tree" .binary "a").expectedPath = false := by decide +kernel
  rcases (load_eq_checked_scan untidyTree "/tree").1 _ scan_untidyTree with
    ⟨hfiles, -⟩ | ⟨f, ⟨before, after, hsplit, hbefore, -⟩, hload⟩
  · cases hdirectory.symm.trans (hfiles _ (by decide +kernel))
  · cases before with
    | nil =>
      obtain ⟨rfl, -⟩ := List.cons_eq_cons.mp hsplit
      rw [hload]
      decide +kernel
    | cons g before =>
      -- No fixture stands before the binary.
      obtain ⟨rfl, -⟩ := List.cons_eq_cons.mp hsplit
      cases hdirectory.symm.trans (hbefore _ List.mem_cons_self)

end Catalog

end GoldenRun
