import GoldenRun.Execution.Spawn
import GoldenRun.Proofs.Disk.Errors
import GoldenRun.Proofs.ExitStatus
import GoldenRun.Proofs.Failure
import GoldenRun.Proofs.Fixture.Paths
import GoldenRun.Proofs.Run.ActiveFile

/-!
# Which path a report names

* `Failure.IsRight`: what the report of a failure says of a path is so, unless it is excused
* `Run.Fails.isRight`: a step that fails is reported rightly, unless it copies a manifest over a
  file that cannot be written
* `program_names_path`: the program reports a path rightly, unless the call that failed has two
  paths and the one that is not named is at fault
-/

namespace GoldenRun

open GoldenRun.CommandLine GoldenRun.Report GoldenRun.Text

variable {σ : Type}

/-! ## Failures that are reported rightly -/

/-- A failure in the harness's own words; if its report names a path, what it says of it is so, or
it is excused. -/
structure Failure.IsRight (failure : Failure) (disk : Disk) (cwd : Location)
    (excused : DiskFault → String → Prop) : Prop where
  own : ¬ failure.IsForeign
  right : ∀ fault call path destination,
    failure = .disk (.failed fault call (some path) destination) →
      fault.IsSo disk cwd path ∨ excused fault path

namespace Failure.IsRight

variable {failure : Failure} {disk : Disk} {cwd : Location}
  {excused excused' : DiskFault → String → Prop}

theorem mono (h : failure.IsRight disk cwd excused)
    (himp : ∀ fault path, excused fault path → excused' fault path) :
    failure.IsRight disk cwd excused' :=
  ⟨h.own, fun fault call path destination hfailure =>
    (h.right fault call path destination hfailure).imp_right (himp fault path)⟩

theorem of_own (hown : ¬ failure.IsForeign) (hdisk : ∀ error, failure ≠ .disk error) :
    failure.IsRight disk cwd excused :=
  ⟨hown, fun _ _ _ _ hfailure => absurd hfailure (hdisk _)⟩

theorem defect {d : Defect} (h : ¬ d.IsForeign) : (Failure.defect d).IsRight disk cwd excused :=
  of_own h nofun

theorem of_disk {error : DiskError}
    (h : ∀ fault call path destination, error = .failed fault call (some path) destination →
      fault.IsSo disk cwd path ∨ excused fault path) :
    (Failure.disk error).IsRight disk cwd excused :=
  ⟨nofun, fun fault call path destination hfailure =>
    h fault call path destination (Failure.disk.inj hfailure)⟩

end Failure.IsRight

variable {w : Workspace} {root : String} {named : Option String} {failure : Failure}
  {excused : DiskFault → String → Prop}

/-! ## Before a run -/

theorem Disk.isSo_of_readText {disk : Disk} {cwd : Location} {path p call : String}
    {fault : DiskFault} {destination : Option String}
    (h : disk.readText cwd path = .error (.failed fault call (some p) destination)) :
    p = path ∧ fault.IsSo disk cwd path := by
  unfold readText at h
  cases hread : disk.read cwd path with
  | ok bytes => simp [hread, Except.map] at h
  | error error =>
    rw [hread] at h
    cases h
    exact isSo_of_read hread

/-- A text that makes no configuration is reported without a path. -/
theorem Config.isRight_of_parse {home path text : String} {disk : Disk} {cwd : Location}
    (h : Config.parse home root path text = .error failure) :
    failure.IsRight disk cwd excused := by
  unfold Config.parse Settings.parse at h
  dsimp only at h
  split at h
  · next failure' hsettings =>
    cases h
    split at hsettings
    · cases hsettings
      exact .of_own nofun nofun
    · split at hsettings
      · cases hsettings
      · cases hsettings
        exact .defect nofun
  · split at h
    · cases h
    · next settings hsettings defect hcheck =>
      cases h
      unfold Config.checkCommand at hcheck
      split at hcheck
      · cases hcheck
      · cases hcheck
        exact .defect nofun

theorem Config.isRight_of_load (h : Config.load w root named = .error failure) :
    failure.IsRight w.disk w.cwd excused := by
  unfold Config.load at h
  dsimp only at h
  split at h
  · split at h
    · next error hread =>
      cases h
      refine .of_disk fun fault call path destination herror => ?_
      obtain ⟨rfl, hso⟩ := Disk.isSo_of_readText (herror ▸ hread)
      exact .inl hso
    · exact isRight_of_parse h
  · split at h
    · cases h
      exact .defect nofun
    · cases h

theorem Fixture.isRight_of_discover {kind : Kind} {error : DiskError}
    (h : Fixture.discover w root kind = .error error) :
    (Failure.disk error).IsRight w.disk w.cwd excused := by
  unfold discover at h
  dsimp only at h
  split at h
  · cases hlist : w.disk.list w.cwd (kind.directory root) with
    | ok names => simp [hlist, Except.map] at h
    | error error' =>
      rw [hlist] at h
      cases h
      refine .of_disk fun fault call path destination herror => ?_
      obtain ⟨rfl, hso⟩ := Disk.isSo_of_list (herror ▸ hlist)
      exact .inl hso
  · cases h

theorem Catalog.isRight_of_scan (h : Catalog.scan w root = .error failure) :
    failure.IsRight w.disk w.cwd excused := by
  obtain ⟨kind, hkind⟩ := exists_of_gather h
  unfold Fixture.scanKind at hkind
  split at hkind
  · next error hdiscover =>
    cases hkind
    exact Fixture.isRight_of_discover hdiscover
  · cases hkind

theorem Catalog.isRight_of_load (h : Catalog.load w root = .error failure) :
    failure.IsRight w.disk w.cwd excused := by
  obtain ⟨kind, hkind⟩ := exists_of_gather h
  unfold Fixture.loadKind at hkind
  split at hkind
  · next error hdiscover =>
    cases hkind
    exact Fixture.isRight_of_discover hdiscover
  · next names hdiscover =>
    split at hkind
    · next d hresolve =>
      cases hkind
      obtain ⟨name, -, hname⟩ := mem_of_mapM_eq_error hresolve
      unfold Fixture.resolve at hname
      dsimp only at hname
      split at hname
      · cases hname
      · cases hname
        exact .defect nofun
    · cases hkind

variable {order : RunOrder} {runner : Runner σ}

theorem CommandLine.RunOrder.isRight_of_begin (h : order.begin runner w = .error failure) :
    failure.IsRight w.disk w.cwd excused := by
  rcases bind_eq_error_iff.mp h with h | ⟨config, -, h⟩
  · exact Config.isRight_of_load h
  rcases bind_eq_error_iff.mp h with h | ⟨tool, -, h⟩
  · unfold resolveTool at h
    dsimp only at h
    split at h
    · cases h
    · cases h
      exact .defect nofun
  rcases bind_eq_error_iff.mp h with h | ⟨catalog, -, h⟩
  · exact Catalog.isRight_of_load h
  · cases h

/-! ## In a run -/

/-- A run that has no verdict was stopped by the failure that it ends with. -/
theorem Conclusion.stopped_of_verdict {x : Conclusion} {count : Nat}
    (h : x.verdict count = .error failure) : ∃ step, x = .stopped step failure := by
  cases x with
  | completed => cases h
  | stopped step failure' =>
    cases failure' with
    | defect d => cases h
    | _ =>
      cases h
      exact ⟨step, rfl⟩

/-- A runner that gives up only by refusing a request. -/
def Runner.OnlyRefuses (runner : Runner σ) : Prop :=
  ∀ request w memory failure, (runner request w memory).1 = .error failure →
    ∃ fault, failure = .request fault

/-- The runner that carries out commands gives up in no other way. -/
theorem spawn_onlyRefuses : Runner.OnlyRefuses spawn := by
  intro request w memory failure h
  unfold spawn at h
  dsimp only at h
  split at h
  · cases h
    exact ⟨_, rfl⟩
  · cases h

namespace Run

variable {run : Run σ} {step : Step} {selection : Option (List Kind)} {c d : Moment σ}
  {s t : Surroundings (Progress σ)}

/-- The files of a run have absolute paths. -/
structure IsAbsolute (run : Run σ) : Prop where
  fixtures : ∀ kind, ∀ f ∈ run.catalog.fixtures kind,
    Path.isAbsolute f.path = true ∧ Path.isAbsolute f.expectedPath = true
  activeFile : Path.isAbsolute run.activeFile = true

/-- A manifest that cannot be copied is at fault, or the active file is. -/
theorem isRight_of_copy {m : Fixture} {error : DiskError} {disk : Disk}
    (hpaths : run.IsAbsolute) (hm : m ∈ run.catalog.manifests)
    (h : w.disk.copy w.cwd m.path run.activeFile = (.error error, disk)) (cwd : Location) :
    (Failure.disk error).IsRight disk cwd fun fault path =>
      ∃ m ∈ run.catalog.manifests, path = m.path ∧
        disk.destination cwd run.activeFile = .error fault := by
  have hsource := (hpaths.fixtures .manifest m hm).1
  refine .of_disk fun fault call path destination herror => ?_
  obtain ⟨rfl, hso | htarget⟩ := Disk.isSo_of_copy hsource (herror ▸ h)
  · exact .inl ((Disk.isSo_of_isAbsolute hsource w.cwd cwd).mp hso)
  · refine .inr ⟨m, hm, rfl, ?_⟩
    rw [← htarget]
    exact Disk.destination_of_isAbsolute hpaths.activeFile cwd w.cwd

/-- A step fails over a path that it names, unless it is a copy; then it may be the active file
that is at fault. -/
theorem Fails.isRight (hrunner : run.runner.OnlyRefuses) (hpaths : run.IsAbsolute)
    (hstep : step ∈ run.plan selection) (h : run.Fails step c failure d) (cwd : Location) :
    failure.IsRight d.workspace.disk cwd fun fault path =>
      ∃ m ∈ run.catalog.manifests, path = m.path ∧
        d.workspace.disk.destination cwd run.activeFile = .error fault := by
  cases h with
  | noGeneral hnone => exact .defect nofun
  | setUp hfound hcopy =>
    exact isRight_of_copy hpaths (mem_manifests_of_plan hstep hfound) hcopy cwd
  | activate hcopy => exact isRight_of_copy hpaths (mem_manifests_of_plan hstep rfl) hcopy cwd
  | render hrender => exact .of_own nofun nofun
  | noCommand hrender => exact .of_own nofun nofun
  | raised hrequest hanswer =>
    obtain ⟨fault, rfl⟩ := hrunner _ _ _ _ (congrArg Prod.fst hanswer)
    exact .of_own nofun nofun
  | replay hanswer hfailed => exact .defect nofun
  | unreadable hread =>
    have hpath := (hpaths.fixtures _ _ (mem_fixtures_of_plan hstep rfl)).2
    refine .of_disk fun fault call path destination herror => ?_
    obtain ⟨rfl, hso⟩ := Disk.isSo_of_readText (herror ▸ hread)
    exact .inl ((Disk.isSo_of_isAbsolute hpath _ cwd).mp hso)
  | blank hread hparse => exact .defect nofun
  | mismatch hread hparse hmissing => exact .defect nofun

/--
The paths that are named in the place of others.

A directory that cannot be entered is not named, but the one that was to be left; a file that cannot
be written is not named, but the manifest that was to be copied.
-/
inductive Misnames (run : Run σ) (w w' : Workspace) : DiskFault → String → Prop where
  /-- The root of the tree is missing. -/
  | entering (hroot : w'.disk.hasEntry w'.cwd run.catalog.root = false) :
    Misnames run w w' .notFound w.cwd.path
  /-- The directory to go back to is missing. -/
  | returning {here : Location} (hhere : w.disk.enter w.cwd run.catalog.root = .ok here)
    (hback : w'.disk.hasEntry w'.cwd w.cwd.path = false) :
    Misnames run w w' .notFound here.path
  /-- The active-configuration file cannot be written. -/
  | copying {m : Fixture} {fault : DiskFault} (hm : m ∈ run.catalog.manifests)
    (hfile : w'.disk.destination w'.cwd run.activeFile = .error fault) :
    Misnames run w w' fault m.path

/-- A directory that cannot be entered is not named, so what is said is excused. -/
theorem isRight_of_enter {disk : Disk} {cwd : Location} {directory : String} {error : DiskError}
    {excused : DiskFault → String → Prop} (h : disk.enter cwd directory = .error error)
    (hexcused : disk.hasEntry cwd directory = false → excused .notFound cwd.path) :
    (Failure.disk error).IsRight disk cwd excused := by
  refine .of_disk fun fault call path destination herror => ?_
  obtain ⟨rfl, hfault, hso⟩ := Disk.isSo_of_enter (herror ▸ h)
  cases fault with
  | notFound => exact .inr (hexcused hso)
  | isDirectory => exact absurd rfl hfault
  | _ => exact .inl trivial

/-- A run that ends with a failure is reported rightly, unless a path is named in the place of
another. -/
theorem isRight_of_inRoot (hrunner : run.runner.OnlyRefuses) (hpaths : run.IsAbsolute)
    (h : (run.inRoot selection).perform s = (.error failure, t)) :
    failure.IsRight t.workspace.disk t.workspace.cwd (run.Misnames s.workspace t.workspace) := by
  unfold inRoot at h
  cases htold : s.workspace.cwd.workingPath with
  | error error =>
    -- Nothing is begun, and no path is named.
    rw [Action.perform_within_untold htold] at h
    cases h
    obtain ⟨fault, rfl⟩ := Disk.workingPath_error htold
    exact .of_disk fun _ _ _ _ => nofun
  | ok path =>
    cases hhere : s.workspace.disk.enter s.workspace.cwd run.catalog.root with
    | error error =>
      rw [Action.perform_within_refused htold hhere] at h
      cases h
      exact isRight_of_enter hhere .entering
    | ok here =>
      obtain ⟨x, d, hconducts, hperform⟩ := verdict_conducts run selection
        { s with workspace := { s.workspace with cwd := here } }
      have hcwd : d.workspace.cwd = here := hconducts.cwd
      cases hback : d.workspace.disk.enter d.workspace.cwd path with
      | error error =>
        -- Whatever the run came to, its outcome is lost.
        rw [Action.perform_within_stranded htold hhere hperform hback] at h
        cases h
        obtain ⟨rfl, -⟩ := Disk.workingPath_eq_ok_iff.mp htold
        rw [Disk.enter_upToNul] at hback
        refine isRight_of_enter hback fun hgone => ?_
        rw [hcwd]
        exact .returning hhere hgone
      | ok back =>
        rw [Action.perform_within_entered htold hhere hperform hback] at h
        obtain ⟨houtcome, rfl⟩ := Prod.mk.inj h
        obtain ⟨step, rfl⟩ := Conclusion.stopped_of_verdict houtcome
        -- The paths are absolute, so they lead to the same from the directory that is gone back to.
        obtain ⟨before, after, c, hplan, -, hfails⟩ := hconducts.stopped_split
        have hstep : step ∈ run.plan selection := by simp [hplan]
        refine (hfails.isRight hrunner hpaths hstep back).mono ?_
        rintro fault path ⟨m, hm, rfl, hfile⟩
        exact .copying hm hfile

end Run

/-! ## The last word of the program -/

/-- Whether an answer ends with the report of an error in these words. -/
def Answer.EndsWith (answer : Answer) (text : String) : Prop :=
  answer.pieces.getLast? = some (.complaint ("Error: " ++ text))

theorem Failure.endsWith_answer_iff {before : List Piece} {text : String} :
    (failure.answer before).EndsWith text ↔ failure.report = text := by
  simp [Answer.EndsWith, Failure.answer, Failure.complaint, Piece.complaint]

/-- An answer that ends with an answer proper reports no error. -/
theorem Answer.not_endsWith_of_standard {answer : Answer} {piece : Piece} {text : String}
    (h : answer.pieces.getLast? = some piece) (hpiece : piece.outlet = .standard) :
    ¬ answer.EndsWith text := by
  intro hends
  obtain rfl := Option.some.inj (h.symm.trans hends)
  cases hpiece

/-- An answer that ends with another text reports no error. -/
theorem Answer.not_endsWith_of_opens {answer : Answer} {piece : Piece} {front text : String}
    (h : answer.pieces.getLast? = some piece) (hopens : Opens front piece.text)
    (hfront : Apart front "Error: ") : ¬ answer.EndsWith text := by
  intro hends
  obtain rfl := Option.some.inj (h.symm.trans hends)
  exact hfront.not_opens hopens (((Opens.refl _).append _).append _)

section Answers

variable {answer : Answer} {text : String} {state : σ} {w' : Workspace} {state' : σ}

theorem not_endsWith_runAnswer {verbose : Bool} {log : List Happening} {verdict : Verdict} :
    ¬ (runAnswer verbose log (.ok verdict)).EndsWith text := by
  cases verdict with
  | passed checked => exact Answer.not_endsWith_of_standard (List.getLast?_concat ..) rfl
  | aborted suite fixture d =>
    have hlast : (runAnswer verbose log (.ok (.aborted suite fixture d))).pieces.getLast? =
        some (.complaint ("\n✗ " ++ suite.title ++ " aborted at " ++ fixture ++ ": " ++
          d.message)) := by
      simp [runAnswer, Verdict.report]
    exact Answer.not_endsWith_of_opens hlast
      ((((((Opens.refl _).append _).append _).append _).append _).append _ |>.append _) (by decide)

theorem not_endsWith_list {rows : List ListRow} {status : ExitStatus} :
    ¬ Answer.EndsWith ⟨ListRow.report rows, status⟩ text := by
  have hne : ListRow.report rows ≠ [] := List.cons_ne_nil _ _
  have hlines : ∀ piece ∈ ListRow.report rows, piece.outlet = .standard := by
    intro piece hmem
    rcases List.mem_cons.mp hmem with rfl | hmem
    · rfl
    · obtain ⟨line, -, rfl⟩ := List.mem_map.mp hmem
      rfl
  exact Answer.not_endsWith_of_standard (List.getLast?_eq_some_getLast hne)
    (hlines _ (List.getLast_mem hne))

/-- A help page is no report of an error. -/
theorem opens_helpText (topic : Option Topic) : Opens "Usage: " (helpText topic) := by
  unfold helpText Page.text
  dsimp only
  rw [List.map_cons, List.map_cons, String.intercalate_cons_cons, String.intercalate_singleton]
  exact ((((Opens.refl _).append _).append _).append _).append _

theorem UsageFault.opens_message (fault : UsageFault) : Opens "error: " fault.message := by
  cases fault with
  | missingOperand name =>
    exact (((by decide : Opens "error: " "error: missing required argument '").append _).append _)
  | unknownFlag arg suggestions =>
    exact (((by decide : Opens "error: " "error: unknown option '").append _).append _).append _
  | missingValue flag =>
    exact ((by decide : Opens "error: " "error: option '").append _).append _
  | badValue flag value objection =>
    exact (((((by decide : Opens "error: " "error: option '").append _).append _).append _).append
      _).append _

theorem Workspace.isAbsolute_fixturesRoot (w : Workspace) (named : Option String) :
    Path.isAbsolute (w.fixturesRoot named) = true := by
  have habsolute (path : String) : Path.isAbsolute (w.absolute path) = true :=
    Path.isAbsolute_path (Path.absoluteParts w.cwd.path path)
  unfold fixturesRoot
  split
  · split <;> exact habsolute _
  · exact habsolute _

theorem Fixture.isAbsolute_describe (hroot : Path.isAbsolute root = true) (kind : Kind)
    (name : String) :
    Path.isAbsolute (describe root kind name).path = true ∧
      Path.isAbsolute (describe root kind name).expectedPath = true := by
  refine ⟨Path.isAbsolute_join ?_ _, Path.isAbsolute_join (Path.isAbsolute_join hroot _) _⟩
  rw [Kind.directory_eq, Path.joinAll_names hroot Kind.way_ne_nil Kind.isName_of_mem_way ""]
  exact Path.isAbsolute_path _

/-- The files of a run that an order begins have absolute paths. -/
theorem CommandLine.RunOrder.isAbsolute_of_begin {run : Run σ}
    (h : order.begin runner w = .ok run) : run.IsAbsolute := by
  obtain ⟨config, catalog, -, -, hcatalog, rfl⟩ := begin_eq_ok_iff.mp h
  have hscan := (Catalog.load_eq_ok_iff.mp hcatalog).1
  have hroot := w.isAbsolute_fixturesRoot order.root
  refine ⟨fun kind f hf => ?_, ?_⟩
  · obtain ⟨hdescribe, -⟩ := Catalog.eq_describe_of_scan hscan hf
    rw [hdescribe]
    exact Fixture.isAbsolute_describe hroot kind f.name
  · have hsame : catalog.root = w.fixturesRoot order.root := Catalog.root_of_gather hcatalog
    exact Path.isAbsolute_join (hsame ▸ hroot) _

theorem program_of_read {args : List String} (h : Order.read args = .run order) :
    program runner args w state = order.answer runner w state := by
  unfold program
  rw [h]
  rfl

/-- What an order to run suites comes to when it can be begun. -/
theorem CommandLine.RunOrder.answer_of_begin {run : Run σ} (h : order.begin runner w = .ok run) :
    order.answer runner w state =
      let notices := Config.loadNotices w (w.fixturesRoot order.root) order.config
      let start : Progress σ := { runner := state }
      let (outcome, s) := (run.inRoot order.suites).perform ⟨w, start.hear notices⟩
      (runAnswer order.verbose s.state.log outcome, s.workspace, s.state.runner) := by
  unfold RunOrder.answer
  rw [h]

theorem CommandLine.RunOrder.exists_isRight_of_endsWith (hrunner : runner.OnlyRefuses)
    (h : order.answer runner w state = (answer, w', state')) (hends : answer.EndsWith text) :
    ∃ failure : Failure, failure.report = text ∧
      failure.IsRight w'.disk w'.cwd fun fault path =>
        ∃ run, order.begin runner w = .ok run ∧ run.Misnames w w' fault path := by
  unfold RunOrder.answer at h
  dsimp only at h
  cases hbegin : order.begin runner w with
  | error failure =>
    rw [hbegin] at h
    cases h
    exact ⟨failure, Failure.endsWith_answer_iff.mp hends, isRight_of_begin hbegin⟩
  | ok run =>
    have hrun : run.runner = runner := by
      obtain ⟨config, catalog, -, -, -, rfl⟩ := begin_eq_ok_iff.mp hbegin
      rfl
    simp only [hbegin] at h
    generalize Progress.hear _ _ = start at h
    rcases hperform : (run.inRoot order.suites).perform ⟨w, start⟩ with ⟨outcome, t⟩
    rw [hperform] at h
    cases h
    cases outcome with
    | ok verdict =>
      -- A verdict is a last line of its own, also when the run was aborted.
      exact absurd hends not_endsWith_runAnswer
    | error failure =>
      have hright := Run.isRight_of_inRoot (hrun.symm ▸ hrunner) (isAbsolute_of_begin hbegin)
        hperform
      exact ⟨failure, Failure.endsWith_answer_iff.mp hends,
        hright.mono fun fault path hnames => ⟨run, rfl, hnames⟩⟩

theorem exists_isRight_of_listAnswer {kind : Option Kind}
    (hends : (listAnswer w kind named).EndsWith text) :
    ∃ failure : Failure, failure.report = text ∧ failure.IsRight w.disk w.cwd excused := by
  unfold listAnswer at hends
  split at hends
  · next failure hscan =>
    exact ⟨failure, Failure.endsWith_answer_iff.mp hends, Catalog.isRight_of_scan hscan⟩
  · exact absurd hends not_endsWith_list

theorem exists_isRight_of_configAnswer {file : Option String}
    (hends : (configAnswer w named file).EndsWith text) :
    ∃ failure : Failure, failure.report = text ∧ failure.IsRight w.disk w.cwd excused := by
  unfold configAnswer at hends
  dsimp only at hends
  split at hends
  · next failure hload =>
    exact ⟨failure, Failure.endsWith_answer_iff.mp hends, Config.isRight_of_load hload⟩
  · exact absurd hends (Answer.not_endsWith_of_standard List.getLast?_concat rfl)

theorem not_endsWith_helpAnswer {topic : Option Topic} {mistaken : Bool} :
    ¬ (helpAnswer topic mistaken).EndsWith text := by
  unfold helpAnswer
  split
  · exact Answer.not_endsWith_of_opens rfl (opens_helpText topic) (by decide)
  · exact Answer.not_endsWith_of_standard rfl rfl

/-- An answer that ends with the report of an error comes of a failure that is reported rightly. -/
theorem exists_isRight_of_endsWith {args : List String} {runner : Runner σ} {text : String}
    (hrunner : runner.OnlyRefuses) (h : program runner args w state = (answer, w', state'))
    (hends : answer.EndsWith text) :
    ∃ failure : Failure, failure.report = text ∧
      failure.IsRight w'.disk w'.cwd fun fault path =>
        ∃ order run, Order.read args = .run order ∧ order.begin runner w = .ok run ∧
          run.Misnames w w' fault path := by
  unfold program at h
  cases hread : Order.read args with
  | run order =>
    rw [hread] at h
    obtain ⟨failure, hreport, hright⟩ := order.exists_isRight_of_endsWith hrunner h hends
    exact ⟨failure, hreport, hright.mono fun fault path ⟨run, hbegin, hnames⟩ =>
      ⟨order, run, rfl, hbegin, hnames⟩⟩
  | list kind root =>
    rw [hread] at h
    cases h
    exact exists_isRight_of_listAnswer hends
  | config root file =>
    rw [hread] at h
    cases h
    exact exists_isRight_of_configAnswer hends
  | help topic mistaken =>
    rw [hread] at h
    cases h
    exact absurd hends not_endsWith_helpAnswer
  | version =>
    rw [hread] at h
    cases h
    exact absurd hends (Answer.not_endsWith_of_standard rfl rfl)
  | refused fault =>
    rw [hread] at h
    cases h
    exact absurd hends
      (Answer.not_endsWith_of_opens rfl ((UsageFault.opens_message fault).append _) (by decide))

/--
**The program names the right path, unless the call that failed has two.**

If it ends with the report that a path is missing, nothing is there, and if it ends with the report
that a path is a directory, a directory is there.  Otherwise the path is named in the place of
another: when the root is missing, when the directory to go back to is, and when the
active-configuration file cannot be written.
-/
theorem program_names_path {args : List String} (hrunner : runner.OnlyRefuses)
    (h : program runner args w state = (answer, w', state')) (path : String) :
    (answer.EndsWith (missingText path) →
      w'.disk.hasEntry w'.cwd path = false ∨
        ∃ order run, Order.read args = .run order ∧ order.begin runner w = .ok run ∧
          run.Misnames w w' .notFound path) ∧
    (answer.EndsWith (directoryText path) →
      w'.disk.LeadsToDirectory w'.cwd path ∨
        ∃ order run, Order.read args = .run order ∧ order.begin runner w = .ok run ∧
          run.Misnames w w' .isDirectory path) := by
  constructor
  · intro hends
    obtain ⟨failure, hreport, hright⟩ := exists_isRight_of_endsWith hrunner h hends
    obtain ⟨-, call, destination, hfailure⟩ := (failure.report_eq_missing_iff hright.own).mp hreport
    exact hright.right _ _ _ _ hfailure
  · intro hends
    obtain ⟨failure, hreport, hright⟩ := exists_isRight_of_endsWith hrunner h hends
    obtain ⟨-, call, destination, hfailure⟩ :=
      (failure.report_eq_directory_iff hright.own).mp hreport
    exact hright.right _ _ _ _ hfailure

end Answers

/-- A runner with which the expected output of the trace is gone when the tool has ended. -/
def forgetfulRunner : Runner Unit :=
  fun _ w memory => (.ok {}, w.disk.remove ["tree", "out", "trace-t.run"], memory)

/-- What is left of the tree of one trace without its expected output. -/
def forgottenTree : Workspace :=
  { traceTree with disk := traceTree.disk.remove ["tree", "out", "trace-t.run"] }

/-- What is told when that expected output is looked for. -/
def forgottenAnswer : Answer where
  pieces := [.line "\nTrace replay (1 fixture(s))",
    .complaint ("Error: " ++ missingText "/tree/out/trace-t.run")]
  status := .failure

theorem begin_traceTree (runner : Runner σ) :
    (traceOrder "/bin/tool").begin runner traceTree =
      .ok ((traceOrder "/bin/tool").run runner traceTree (Settings.resolve traceTree.home {})
        ⟨"/tree", [], [], [.describe "/tree" .trace "t"]⟩) := by
  have hroot : traceTree.fixturesRoot none = "/tree" := by decide +kernel
  refine RunOrder.begin_eq_ok_iff.mpr ⟨_, _, by decide +kernel, by decide +kernel, ?_, rfl⟩
  rw [traceOrder, hroot]
  exact load_traceTree

/-- An expected output that is gone is named when it is looked for. -/
theorem program_names_path_forgottenTree :
    forgetfulRunner.OnlyRefuses ∧
      program forgetfulRunner ["/bin/tool", "--suite", "trace"] traceTree () =
        (forgottenAnswer, forgottenTree, ()) ∧
      forgottenAnswer.EndsWith (missingText "/tree/out/trace-t.run") ∧
      (forgottenTree.disk.hasEntry forgottenTree.cwd "/tree/out/trace-t.run" = false ∨
        ∃ order run, Order.read ["/bin/tool", "--suite", "trace"] = .run order ∧
          order.begin forgetfulRunner traceTree = .ok run ∧
          run.Misnames traceTree forgottenTree .notFound "/tree/out/trace-t.run") := by
  have hrunner : forgetfulRunner.OnlyRefuses := by
    intro request w memory failure h
    cases h
  have hread : Order.read ["/bin/tool", "--suite", "trace"] = .run (traceOrder "/bin/tool") := by
    decide +kernel
  have hprogram : program forgetfulRunner ["/bin/tool", "--suite", "trace"] traceTree () =
      (forgottenAnswer, forgottenTree, ()) :=
    (program_of_read hread).trans
      ((RunOrder.answer_of_begin (begin_traceTree forgetfulRunner)).trans (by decide +kernel))
  exact ⟨hrunner, hprogram, rfl, (program_names_path hrunner hprogram _).1 rfl⟩

/-- The directory that was to be left is reported as missing when it is the root that is. -/
theorem program_names_wrong_path :
    ∃ answer, program contentRunner ["/bin/tool", "--root", "/nope"] traceTree () =
        (answer, traceTree, ()) ∧
      answer.EndsWith (missingText "/tree") ∧
      traceTree.disk.hasEntry traceTree.cwd "/tree" = true :=
  ⟨⟨[.complaint ("Error: " ++ missingText "/tree")], .failure⟩,
    by decide +kernel, rfl, by decide +kernel⟩

end GoldenRun
