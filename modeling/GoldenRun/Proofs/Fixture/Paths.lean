import GoldenRun.Proofs.Fixture.Catalog
import GoldenRun.Proofs.Path
import GoldenRun.Proofs.Run.Likeness

/-!
# The paths that are told of a fixture

The tool is given the trace file of a trace, and the list shows the file and the expected output of
every fixture, all as paths from the root of the tree.

* `Fixture.path_describe`, `Fixture.expectedPath_describe`: where a fixture and its expected output
  lie
* `Catalog.describe_of_scan`: the fixtures of a catalog are described by their names
* `Run.told_paths_lead_back_iff`: the paths that are told lead back to the fixture exactly if its
  name holds no backslash
-/

namespace GoldenRun

/-- Every name on a disk is one part of a path. -/
def Disk.Legal (disk : Disk) : Prop := ∀ e ∈ disk.entries, ∀ name ∈ e.1, '/' ∉ name.toList

theorem Disk.noSlash_of_mem_names {disk : Disk} (h : disk.Legal) {location : Location}
    {name : String} (hname : name ∈ disk.names location) : '/' ∉ name.toList := by
  obtain ⟨e, he, hlast⟩ := List.mem_filterMap.mp hname
  split at hlast
  · cases hlast
  · next last above hreverse =>
    split at hlast
    · obtain rfl := Option.some.inj hlast
      have hmem : last ∈ e.1.reverse := hreverse ▸ List.mem_cons_self
      exact h e he last (List.mem_reverse.mp hmem)
    · cases hlast

/-- What a directory lists are names of entries. -/
theorem Disk.noSlash_of_mem_list {disk : Disk} (h : disk.Legal) {cwd : Location} {path : String}
    {names : List String} (hlist : disk.list cwd path = .ok names) {name : String}
    (hname : name ∈ names) : '/' ∉ name.toList := by
  unfold list at hlist
  split at hlist
  · cases hlist
  · split at hlist
    · next location _ =>
      obtain rfl := Except.ok.inj hlist
      exact noSlash_of_mem_names h hname
    · cases hlist
    · cases hlist

namespace Kind

/-- The directories from the root of a tree to the fixture files of a kind. -/
def way : Kind → List String
  | .binary => ["src", "bin"]
  | .manifest => ["manifests"]
  | .trace => ["traces"]

variable {kind : Kind}

theorem directory_eq (root : String) : kind.directory root = Path.joinAll (root :: kind.way) := by
  cases kind <;> rfl

theorem way_ne_nil : kind.way ≠ [] := by cases kind <;> decide

theorem isName_of_mem_way : ∀ part ∈ kind.way, Path.IsName part := by
  intro part mem
  cases kind <;> rcases (by simpa [way] using mem) with rfl | rfl <;>
    exact ⟨by decide, by decide, by decide, by decide⟩

theorem plain_of_mem_way : ∀ part ∈ kind.way, '\\' ∉ part.toList := by
  cases kind <;> decide

theorem plain_extension : '\\' ∉ kind.extension.toList := by cases kind <;> decide

theorem noSlash_extension (kind : Kind) : '/' ∉ kind.extension.toList := by cases kind <;> decide

theorem length_extension : 3 ≤ kind.extension.toList.length := by cases kind <;> decide

end Kind

namespace Fixture

variable {w : Workspace} {root name : String} {kind : Kind}

theorem isName_file (hname : '/' ∉ name.toList) : Path.IsName (name ++ kind.extension) := by
  have h := Path.isName_of_extension name.toList
    (by simpa using ⟨hname, Kind.noSlash_extension kind⟩) Kind.length_extension
  rwa [← String.toList_append, String.ofList_toList] at h

/-- What stands before the name in the file name of an expected output. -/
def expectedStem (kind : Kind) (name : String) : String :=
  (if kind = .trace then "trace-" else "") ++ name

theorem mem_expectedStem {c : Char} (hc : c ∉ "trace-".toList) :
    c ∈ (expectedStem kind name).toList ↔ c ∈ name.toList := by
  unfold expectedStem
  split
  · rw [String.toList_append, List.mem_append, or_iff_right hc]
  · simp

theorem isName_expectedName (hname : '/' ∉ name.toList) :
    Path.IsName (expectedStem kind name ++ ".run") := by
  have hslash : '/' ∉ (expectedStem kind name).toList ++ ".run".toList := by
    rw [List.mem_append, not_or, mem_expectedStem (by decide)]
    exact ⟨hname, by decide⟩
  have h := Path.isName_of_extension _ hslash (by decide)
  rwa [← String.toList_append, String.ofList_toList] at h

/-- Where the file of a fixture lies. -/
theorem path_describe (hroot : Path.isAbsolute root = true) (hname : '/' ∉ name.toList)
    (cwd : String) :
    (describe root kind name).path =
      Location.path (Path.absoluteParts cwd root ++ (kind.way ++ [name ++ kind.extension])) := by
  have hfile : Path.IsName (name ++ kind.extension) := isName_file hname
  have hdirectory : kind.directory root =
      Location.path (Path.absoluteParts cwd root ++ kind.way) := by
    rw [Kind.directory_eq]
    exact Path.joinAll_names hroot Kind.way_ne_nil Kind.isName_of_mem_way cwd
  have hnames : ∀ part ∈ Path.absoluteParts cwd root ++ kind.way, Path.IsName part := by
    intro part mem
    exact (List.mem_append.mp mem).elim Path.isName_of_mem_absoluteParts
      (Kind.isName_of_mem_way part)
  rw [describe, hdirectory, Path.join_name (Path.isAbsolute_path _) hfile cwd,
    Path.absoluteParts_path hnames, List.append_assoc]

/-- Where the expected output of a fixture lies. -/
theorem expectedPath_describe (hroot : Path.isAbsolute root = true) (hname : '/' ∉ name.toList)
    (cwd : String) :
    (describe root kind name).expectedPath =
      Location.path
        (Path.absoluteParts cwd root ++ (["out"] ++ [expectedStem kind name ++ ".run"])) := by
  have hfile : Path.IsName (expectedStem kind name ++ ".run") := isName_expectedName hname
  have hout : ∀ part ∈ ["out"], Path.IsName part := by
    simpa using (⟨by decide, by decide, by decide, by decide⟩ : Path.IsName "out")
  have hnames : ∀ part ∈ Path.absoluteParts cwd root ++ ["out"], Path.IsName part := by
    intro part mem
    exact (List.mem_append.mp mem).elim Path.isName_of_mem_absoluteParts (hout part)
  have hdirectory : expectedDirectory root =
      Location.path (Path.absoluteParts cwd root ++ ["out"]) :=
    Path.joinAll_names hroot (List.cons_ne_nil "out" []) hout cwd
  have hdescribe : (describe root kind name).expectedPath =
      Path.join (expectedDirectory root) (expectedStem kind name ++ ".run") := rfl
  rw [hdescribe, hdirectory, Path.join_name (Path.isAbsolute_path _) hfile cwd,
    Path.absoluteParts_path hnames, List.append_assoc]

/-- The path of a fixture from the root leads back to it exactly if its name holds no backslash. -/
theorem absolute_rootRelative_path_iff (hroot : Path.isAbsolute root = true)
    (hname : '/' ∉ name.toList) (cwd : String) :
    Path.absolute root (Path.rootRelative cwd (describe root kind name).path root) =
      (describe root kind name).path ↔ '\\' ∉ name.toList := by
  rw [path_describe hroot hname cwd]
  exact Path.absolute_rootRelative_iff hroot Kind.way_ne_nil Kind.isName_of_mem_way
    Kind.plain_of_mem_way (isName_file hname) Kind.plain_extension Kind.length_extension

theorem absolute_rootRelative_expectedPath_iff (hroot : Path.isAbsolute root = true)
    (hname : '/' ∉ name.toList) (cwd : String) :
    Path.absolute root (Path.rootRelative cwd (describe root kind name).expectedPath root) =
      (describe root kind name).expectedPath ↔ '\\' ∉ name.toList := by
  have hout : Path.IsName "out" := ⟨by decide, by decide, by decide, by decide⟩
  rw [expectedPath_describe hroot hname cwd,
    Path.absolute_rootRelative_iff hroot (List.cons_ne_nil "out" []) (by simpa using hout)
      (by decide) (isName_expectedName hname) (by decide) (by decide),
    mem_expectedStem (by decide)]

/-- Two fixtures of one kind do not get the same path from the root. -/
theorem rootRelative_path_injective (hroot : Path.isAbsolute root = true) {other : String}
    (hname : '/' ∉ name.toList) (hother : '/' ∉ other.toList) (cwd : String)
    (h : Path.rootRelative cwd (describe root kind name).path root =
      Path.rootRelative cwd (describe root kind other).path root) : name = other := by
  rw [path_describe hroot hname cwd, path_describe hroot hother cwd] at h
  have hsame := Path.rootRelative_injective Kind.way_ne_nil Kind.isName_of_mem_way
    (isName_file hname) (isName_file hother) h
  have hchars := congrArg String.toList hsame
  rw [String.toList_append, String.toList_append] at hchars
  exact String.toList_inj.mp (List.append_cancel_right hchars)

/-- The names of the fixtures that are found are parts of paths. -/
theorem noSlash_of_mem_discover (hdisk : w.disk.Legal) {names : List String}
    (h : discover w root kind = .ok names) (hname : name ∈ names) : '/' ∉ name.toList := by
  unfold discover at h
  dsimp only at h
  split at h
  · cases hlist : w.disk.list w.cwd (kind.directory root) with
    | error e =>
      rw [hlist] at h
      cases h
    | ok files =>
      rw [hlist] at h
      obtain rfl := Except.ok.inj h
      obtain ⟨file, hfile, rfl⟩ := List.mem_map.mp hname
      have hmem : file ∈ files := (List.mem_filter.mp (List.mem_mergeSort.mp hfile)).1
      intro hslash
      rw [Path.stem, String.toList_ofList] at hslash
      exact Disk.noSlash_of_mem_list hdisk hlist hmem (List.mem_of_mem_take hslash)
  · obtain rfl := Except.ok.inj h
    cases hname

end Fixture

/-- What a scan finds has names that are parts of paths. -/
theorem Catalog.describe_of_scan {w : Workspace} {root : String} {catalog : Catalog}
    (hdisk : w.disk.Legal) (h : scan w root = .ok catalog) (kind : Kind) {f : Fixture}
    (hf : f ∈ catalog.fixtures kind) :
    f = .describe root kind f.name ∧ '/' ∉ f.name.toList := by
  obtain ⟨hdescribe, names, hnames, hmem⟩ := eq_describe_of_scan h hf
  exact ⟨hdescribe, Fixture.noSlash_of_mem_discover hdisk hnames hmem⟩

/-- A replay that a run asks for is that of one of its traces. -/
theorem Run.exists_trace_of_mem_exchanges {σ : Type} {run : Run σ}
    {selection : Option (List Kind)} {s : Surroundings (Progress σ)} {e : Exchange}
    (he : e ∈ run.exchanges selection s) (hpurpose : e.request.purpose = .replay) :
    ∃ trace ∈ run.catalog.traces,
      run.request? s.workspace.cwd (.replay trace) = some e.request := by
  obtain ⟨step, hstep, hrequest, -⟩ := exists_step_of_mem_exchanges he
  obtain ⟨trace, rfl⟩ := eq_replay_of_purpose hrequest hpurpose
  exact ⟨trace, mem_fixtures_of_plan hstep rfl, hrequest⟩

/--
**The paths that are told of a fixture lead back to it exactly if its name holds no backslash.**

The path of its file from the root and that of its expected output stand in its row of the list,
where a mark may follow; the tool is given the former for a trace, in a process whose directory is
the root.  Even where a path leads elsewhere, it tells the traces apart.  Every replay that a run
asks for, in whatever state and with whatever answers before, is one of these.
-/
theorem Run.told_paths_lead_back_iff {σ : Type} {w : Workspace} {root : String} {run : Run σ}
    (hdisk : w.disk.Legal) (hroot : Path.isAbsolute root = true)
    (hcatalog : Catalog.scan w root = .ok run.catalog) (cwd : Location) :
    (∀ trace ∈ run.catalog.traces, ∃ request file,
      run.request? cwd (.replay trace) = some request ∧
        request.args = ["replay", "--trace-file", file] ∧ request.cwd = root ∧
        (Path.absolute request.cwd file = trace.path ↔ '\\' ∉ trace.name.toList)) ∧
    List.Forall₂ (fun f row => ∃ expected mark,
        row.expected = expected ++ mark ∧ (mark = "" ∨ mark = missingMark) ∧
        (Path.absolute root row.fixture = f.path ↔ '\\' ∉ f.name.toList) ∧
        (Path.absolute root expected = f.expectedPath ↔ '\\' ∉ f.name.toList))
      run.catalog.all (run.catalog.rows w) ∧
    (∀ trace ∈ run.catalog.traces, ∀ other ∈ run.catalog.traces, ∀ request request',
      run.request? cwd (.replay trace) = some request →
      run.request? cwd (.replay other) = some request' → request.args = request'.args →
        trace = other) ∧
    ∀ selection s, s.workspace.cwd = cwd → ∀ e ∈ run.exchanges selection s,
      e.request.purpose = .replay →
        ∃ trace ∈ run.catalog.traces, run.request? cwd (.replay trace) = some e.request := by
  have hsame : run.catalog.root = root := (Catalog.scan_eq_ok_iff.mp hcatalog).1
  refine ⟨fun trace htrace => ?_, ?_,
    fun trace htrace other hother request request' hrequest hrequest' hargs => ?_,
    fun selection s hcwd e he hpurpose => hcwd ▸ exists_trace_of_mem_exchanges he hpurpose⟩
  · obtain ⟨hdescribe, hname⟩ :=
      Catalog.describe_of_scan hdisk hcatalog .trace htrace
    refine ⟨_, run.traceFile cwd trace, rfl, rfl, hsame, ?_⟩
    rw [replayRequest, traceFile, hsame, hdescribe]
    exact Fixture.absolute_rootRelative_path_iff hroot hname cwd.path
  · rw [Catalog.rows, List.forall₂_map_right_iff, List.forall₂_same]
    intro f hf
    obtain ⟨kind, hkind⟩ := Catalog.mem_all.mp hf
    obtain ⟨hdescribe, hname⟩ := Catalog.describe_of_scan hdisk hcatalog kind hkind
    refine ⟨Path.rootRelative w.cwd.path f.expectedPath root, _, by rw [Fixture.row, hsame], ?_, ?_⟩
    · split
      · exact .inl rfl
      · exact .inr rfl
    · rw [Fixture.row, hsame, hdescribe]
      exact ⟨Fixture.absolute_rootRelative_path_iff hroot hname w.cwd.path,
        Fixture.absolute_rootRelative_expectedPath_iff hroot hname w.cwd.path⟩
  · obtain ⟨hdescribe, hname⟩ :=
      Catalog.describe_of_scan hdisk hcatalog .trace htrace
    obtain ⟨hdescribe', hname'⟩ :=
      Catalog.describe_of_scan hdisk hcatalog .trace hother
    obtain rfl := Option.some.inj hrequest
    obtain rfl := Option.some.inj hrequest'
    have hfile : run.traceFile cwd trace = run.traceFile cwd other := by
      simpa [replayRequest] using hargs
    rw [traceFile, traceFile, hsame, hdescribe, hdescribe'] at hfile
    rw [hdescribe, hdescribe',
      Fixture.rootRelative_path_injective hroot hname hname' cwd.path hfile]

/-- A tree with one trace, in whose name a backslash stands. -/
def backslashTree : Workspace where
  disk := ⟨[(["tree"], .directory), (["tree", "traces"], .directory),
    (["tree", "traces", "a\\b.trace"], .file [] false), (["tree", "out"], .directory),
    (["tree", "out", "trace-a\\b.run"], .file [] false)]⟩
  cwd := ["tree"]
  env := []

/-- A run over that tree. -/
def backslashRun : Run Unit where
  catalog := ⟨"/tree", [], [], [.describe "/tree" .trace "a\\b"]⟩
  config := .default
  tool := "/bin/tool"
  env := []
  runner := fun _ w memory => (.ok {}, w.disk, memory)

theorem scan_backslashTree : Catalog.scan backslashTree "/tree" = .ok backslashRun.catalog :=
  Catalog.scan_of_listed rfl (by decide +kernel)

theorem Run.told_paths_backslashTree :
    backslashTree.disk.Legal ∧ Path.isAbsolute "/tree" = true ∧
      Catalog.scan backslashTree "/tree" = .ok backslashRun.catalog ∧
      ∀ trace ∈ backslashRun.catalog.traces, ∃ request file,
        backslashRun.request? ["tree"] (.replay trace) = some request ∧
          request.args = ["replay", "--trace-file", file] ∧
          Path.absolute request.cwd file ≠ trace.path := by
  have hlegal : backslashTree.disk.Legal := by
    unfold Disk.Legal
    decide +kernel
  refine ⟨hlegal, by decide, scan_backslashTree, fun trace htrace => ?_⟩
  obtain ⟨htold, -, -⟩ :=
    told_paths_lead_back_iff hlegal (by decide) scan_backslashTree ["tree"]
  obtain ⟨request, file, hrequest, hargs, -, hback⟩ := htold trace htrace
  refine ⟨request, file, hrequest, hargs, fun h => hback.mp h ?_⟩
  obtain rfl := List.mem_singleton.mp htrace
  decide

/-- The tool is sent to another file when the name of a trace holds a backslash. -/
theorem Run.replay_of_backslash_names_another_file :
    Catalog.load backslashTree "/tree" = .ok backslashRun.catalog ∧
      ∃ request, backslashRun.request? ["tree"] (.replay (.describe "/tree" .trace "a\\b")) =
          some request ∧
        request.args = ["replay", "--trace-file", "traces/a/b.trace"] ∧
        Path.absolute request.cwd "traces/a/b.trace" ≠
          (Fixture.describe "/tree" .trace "a\\b").path := by
  refine ⟨Catalog.load_eq_ok_iff.mpr ⟨scan_backslashTree, by decide +kernel⟩, _, rfl, ?_, ?_⟩
  · decide +kernel
  · decide +kernel

end GoldenRun
