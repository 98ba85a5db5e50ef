import GoldenRun.Proofs.Disk
import GoldenRun.Proofs.Run.Script
import Mathlib.Data.List.Basic

/-!
# The active-configuration file during a run

The file is changed by activations only, as long as the runner leaves it alone.  So it holds the
bytes of the manifest that was made active last.

* `Run.Faithful`: what holds between two steps; `Does.faithful` and `Conducts.faithful` preserve it
* `active_file`: what the file holds at every request, and after the run however it ends
* `directory_takes_active_file_away`: a run that ends at a manifest that is a directory does not
  leave the file alone
-/

namespace GoldenRun

variable {σ : Type}

/-- A runner that leaves what can be read at some paths. -/
def Runner.Spares (runner : Runner σ) (paths : List String) : Prop :=
  ∀ request w memory, ∀ path ∈ paths,
    (runner request w memory).2.1.read w.cwd path = w.disk.read w.cwd path

/-- The activation that an entry of the log tells of. -/
def Happening.activated? : Happening → Option ActiveConfiguration
  | .published (.activated active) => some active
  | _ => none

namespace Run

/-! ## What the file should hold -/

/-- The manifest that a step makes active. -/
def activated? (run : Run σ) : Step → Option Fixture
  | .setUp => run.catalog.manifests.find? (·.name = run.config.generalManifest)
  | .activate m => some m
  | _ => none

/-- The manifest that was made active last. -/
def installed (run : Run σ) (done : List Step) : Option Fixture :=
  (done.filterMap run.activated?).getLast?

/-- The active file holds the bytes of a manifest; without one, what it held at the beginning. -/
def Holds (run : Run σ) (s : Surroundings (Progress σ)) (manifest : Option Fixture)
    (disk : Disk) : Prop :=
  match manifest with
  | some m => ∃ bytes, disk.read s.workspace.cwd m.path = .ok bytes ∧
    disk.read s.workspace.cwd run.activeFile = .ok bytes
  | none => disk.read s.workspace.cwd run.activeFile =
    s.workspace.disk.read s.workspace.cwd run.activeFile

/-- The disk that the last of some exchanges left; without any, that of the beginning. -/
def diskAfter (s : Surroundings (Progress σ)) (exchanges : List Exchange) : Disk :=
  (exchanges.getLast?.map Exchange.disk).getD s.workspace.disk

/-- The paths of the active file and of the manifests. -/
def configurationPaths (run : Run σ) : List String :=
  run.activeFile :: run.catalog.manifests.map Fixture.path

variable {run : Run σ} {s : Surroundings (Progress σ)} {step : Step} {steps done : List Step}
  {c d : Moment (σ × List Exchange)} {failure : Failure} {m : Fixture}

theorem installed_append_of_some (h : run.activated? step = some m) :
    run.installed (done ++ [step]) = some m := by
  simp [installed, h]

theorem installed_append_of_nil (h : steps.filterMap run.activated? = []) :
    run.installed (done ++ steps) = run.installed done := by
  simp [installed, h]

theorem installed_append_of_none (h : run.activated? step = none) :
    run.installed (done ++ [step]) = run.installed done :=
  installed_append_of_nil (List.filterMap_cons_none h)

/-- What the file holds stays so when the file and the manifests can be read as before. -/
theorem Holds.of_read {manifest : Option Fixture} {disk disk' : Disk}
    (h : run.Holds s manifest disk)
    (hmanifest : ∀ m, manifest = some m → m ∈ run.catalog.manifests)
    (hread : ∀ path ∈ run.configurationPaths,
      disk'.read s.workspace.cwd path = disk.read s.workspace.cwd path) :
    run.Holds s manifest disk' := by
  have hactive := hread run.activeFile (by simp [configurationPaths])
  cases manifest with
  | none => exact hactive.trans h
  | some m =>
    have hm := hread m.path (by
      simp only [configurationPaths, List.mem_cons, List.mem_map]
      exact .inr ⟨m, hmanifest m rfl, rfl⟩)
    obtain ⟨bytes, hbytes, hbytes'⟩ := h
    exact ⟨bytes, hm.trans hbytes, hactive.trans hbytes'⟩

/-! ## What a step does to the disk -/

theorem activated?_of_request? {cwd : Location} {request : Request}
    (h : run.request? cwd step = some request) : run.activated? step = none := by
  cases step <;> first | rfl | cases h

/-- A step that succeeds activates a manifest, asks the runner, or leaves the disk alone. -/
theorem Does.disk_cases (h : run.recorded.Does step c d) :
    (run.activated? step = none ∧ d.workspace.disk = c.workspace.disk ∧
        d.exchanges = c.exchanges) ∨
      (∃ m, run.activated? step = some m ∧
        c.workspace.disk.copy c.workspace.cwd m.path run.activeFile = (.ok (), d.workspace.disk) ∧
        d.exchanges = c.exchanges) ∨
      ∃ request answer, run.activated? step = none ∧
        run.runner request c.workspace c.state.runner.1 =
          (answer, d.workspace.disk, d.state.runner.1) ∧
        d.exchanges = c.exchanges ++ [⟨request, c.workspace, answer, d.workspace.disk⟩] := by
  cases hrequest : run.request? c.workspace.cwd step with
  | some request =>
    obtain ⟨output, hasked⟩ := h.asks hrequest
    exact .inr (.inr ⟨request, .ok output, activated?_of_request? hrequest, hasked⟩)
  | none =>
    cases h with
    | start => exact .inl ⟨rfl, rfl, rfl⟩
    | setUp hfound hcopy => exact .inr (.inl ⟨_, hfound, hcopy, rfl⟩)
    | activate hcopy => exact .inr (.inl ⟨_, rfl, hcopy, rfl⟩)
    | build hrequest' _ => cases hrequest'.symm.trans hrequest
    | resolve _ => cases hrequest
    | replay _ _ => cases hrequest
    | judge => exact .inl ⟨rfl, rfl, rfl⟩

/-- A step that fails does so at an activation, asks the runner, or leaves the disk alone. -/
theorem Fails.disk_cases (h : run.recorded.Fails step c failure d) :
    (d.workspace.disk = c.workspace.disk ∧ d.exchanges = c.exchanges) ∨
      (∃ m error, run.activated? step = some m ∧ failure = .disk error ∧
        c.workspace.disk.copy c.workspace.cwd m.path run.activeFile =
          (.error error, d.workspace.disk) ∧
        d.exchanges = c.exchanges) ∨
      ∃ request answer, run.runner request c.workspace c.state.runner.1 =
          (answer, d.workspace.disk, d.state.runner.1) ∧
        d.exchanges = c.exchanges ++ [⟨request, c.workspace, answer, d.workspace.disk⟩] := by
  cases hrequest : run.request? c.workspace.cwd step with
  | some request =>
    obtain ⟨answer, hasked⟩ := h.asks hrequest
    exact .inr (.inr ⟨request, answer, hasked⟩)
  | none =>
    cases h with
    | setUp hfound hcopy => exact .inr (.inl ⟨_, _, hfound, rfl, hcopy, rfl⟩)
    | activate hcopy => exact .inr (.inl ⟨_, _, rfl, rfl, hcopy, rfl⟩)
    | raised hrequest' _ => cases hrequest'.symm.trans hrequest
    | replay _ _ => cases hrequest
    | _ => exact .inl ⟨rfl, rfl⟩

/-! ## The invariant -/

/-- The state of the disk after some steps. -/
structure Faithful (run : Run σ) (s : Surroundings (Progress σ)) (done : List Step)
    (c : Moment (σ × List Exchange)) : Prop where
  cwd : c.workspace.cwd = s.workspace.cwd
  /-- What was made active last is a manifest of the catalog. -/
  manifest : ∀ m, run.installed done = some m → m ∈ run.catalog.manifests
  /-- The active file holds its bytes. -/
  holds : run.Holds s (run.installed done) c.workspace.disk
  /-- Since the last exchange nothing but the active file has changed. -/
  differs : (diskAfter s c.exchanges).DiffersAt s.workspace.cwd run.activeFile c.workspace.disk
  /-- Without an activation nothing has changed at all. -/
  untouched : run.installed done = none → c.workspace.disk = diskAfter s c.exchanges

@[simp] theorem diskAfter_append (exchanges : List Exchange) (e : Exchange) :
    diskAfter s (exchanges ++ [e]) = e.disk := by
  simp [diskAfter]

theorem Faithful.initial : run.Faithful s [] ⟨s.recording, none⟩ where
  cwd := rfl
  manifest := fun _ h => by cases h
  holds := rfl
  differs := .refl
  untouched := fun _ => rfl

/-- A request leaves what the file holds, when the runner spares it. -/
theorem Faithful.asked {request : Request} {answer : Except Failure Captured}
    (hspares : run.runner.Spares run.configurationPaths) (hc : run.Faithful s done c)
    (hasked : run.runner request c.workspace c.state.runner.1 =
      (answer, d.workspace.disk, d.state.runner.1)) :
    run.Holds s (run.installed done) d.workspace.disk := by
  refine hc.holds.of_read hc.manifest fun path hpath => ?_
  have hread := hspares request c.workspace c.state.runner.1 path hpath
  rw [hasked, hc.cwd] at hread
  exact hread

theorem Does.faithful (hspares : run.runner.Spares run.configurationPaths)
    (hmanifest : ∀ m, run.activated? step = some m → m ∈ run.catalog.manifests)
    (h : run.recorded.Does step c d) (hc : run.Faithful s done c) :
    run.Faithful s (done ++ [step]) d := by
  have hcwd := h.cwd.trans hc.cwd
  rcases h.disk_cases with ⟨hnone, hdisk, hexchanges⟩ | ⟨m, hsome, hcopy, hexchanges⟩ |
    ⟨request, answer, hnone, hasked, hexchanges⟩
  · refine ⟨hcwd, ?_, ?_, ?_, ?_⟩
    · rw [installed_append_of_none hnone]
      exact hc.manifest
    · rw [installed_append_of_none hnone, hdisk]
      exact hc.holds
    · rw [hdisk, hexchanges]
      exact hc.differs
    · rw [installed_append_of_none hnone, hdisk, hexchanges]
      exact hc.untouched
  -- An activation: the file holds what was copied, and nothing else has changed.
  · rw [hc.cwd] at hcopy
    refine ⟨hcwd, ?_, ?_, ?_, ?_⟩
    · rw [installed_append_of_some hsome]
      intro m' hm'
      obtain rfl := Option.some.inj hm'
      exact hmanifest m hsome
    · rw [installed_append_of_some hsome]
      exact (Disk.copy_ok hcopy).1
    · rw [hexchanges]
      exact hc.differs.trans (.of_copy hcopy)
    · rw [installed_append_of_some hsome]
      intro hnone
      cases hnone
  -- A request: the runner spares the file, and a new exchange begins.
  · refine ⟨hcwd, ?_, ?_, ?_, ?_⟩
    · rw [installed_append_of_none hnone]
      exact hc.manifest
    · rw [installed_append_of_none hnone]
      exact hc.asked hspares hasked
    · rw [hexchanges, diskAfter_append]
      exact .refl
    · rw [hexchanges, diskAfter_append]
      exact fun _ => rfl

theorem Conducts.faithful (hspares : run.runner.Spares run.configurationPaths)
    (hmanifest : ∀ step ∈ steps, ∀ m, run.activated? step = some m → m ∈ run.catalog.manifests)
    (h : run.recorded.Conducts steps c .completed d) (hc : run.Faithful s done c) :
    run.Faithful s (done ++ steps) d := by
  induction steps generalizing c done with
  | nil =>
    cases h
    rwa [List.append_nil]
  | cons step steps ih =>
    cases h with
    | step hdoes hrest =>
      have hd := hdoes.faithful hspares (hmanifest step List.mem_cons_self) hc
      have he := ih (fun step hstep => hmanifest step (List.mem_cons_of_mem _ hstep)) hrest hd
      rwa [List.append_assoc] at he

/-- What a plan makes active are manifests of the catalog. -/
theorem mem_manifests_of_plan {selection : Option (List Kind)} (hstep : step ∈ run.plan selection)
    (hm : run.activated? step = some m) : m ∈ run.catalog.manifests := by
  cases step with
  | setUp => exact List.mem_of_find?_eq_some hm
  | activate m' => exact mem_fixtures_of_plan hstep hm
  | _ => cases hm

/-! ## Which manifest is active -/

variable {selection : Option (List Kind)} {before after : List Step}

/-- A binary is built and resolved under the general manifest, which was found. -/
theorem installed_of_binary {cwd : Location} {request : Request}
    (hplan : run.plan selection = before ++ step :: after)
    (hbefore : run.recorded.Conducts before c .completed d)
    (hrequest : run.request? cwd step = some request) (hsuite : step.suite = .binary) :
    ∃ m, run.catalog.manifests.find? (·.name = run.config.generalManifest) = some m ∧
      run.installed before = some m := by
  obtain ⟨earlier, later, -, ⟨lead, rest, hopening, -⟩ |
    ⟨ahead, f, behind, lead, rest, -, hfixture, hhead⟩⟩ := plan_split hplan
  · cases (request?_of_openingSteps cwd hopening).symm.trans hrequest
  · rw [hsuite] at hfixture hhead
    have hsetUp : Step.setUp ∈ before := by
      rw [hhead]
      simp [openingSteps]
    obtain ⟨c', d', hdoes⟩ := hbefore.does_of_mem hsetUp
    cases hdoes with
    | @setUp m _ _ _ hfound _ =>
      -- The steps of a binary make nothing active.
      have hquiet : (ahead.flatMap (run.fixtureSteps .binary) ++ lead).filterMap run.activated? =
          [] := by
        have hfixtures : ∀ f, (run.fixtureSteps .binary f).filterMap run.activated? = [] :=
          fun f => rfl
        have hlead := hfixtures f
        rw [hfixture, List.filterMap_append, List.append_eq_nil_iff] at hlead
        rw [List.filterMap_append, hlead.1, List.append_nil, List.filterMap_flatMap]
        simp only [hfixtures, List.flatMap_eq_nil_iff, implies_true]
      have hsplit : before = (earlier.flatMap run.suiteSteps ++
          [.start .binary run.catalog.binaries.length]) ++ [.setUp] ++
            (ahead.flatMap (run.fixtureSteps .binary) ++ lead) := by
        rw [hhead]
        simp [openingSteps, Catalog.fixtures]
      refine ⟨m, hfound, ?_⟩
      rw [hsplit, installed_append_of_nil hquiet]
      exact installed_append_of_some hfound

/-- The request for a manifest comes right after the manifest was made active. -/
theorem lead_of_manifest {cwd : Location} {request : Request} {f : Fixture} {lead rest : List Step}
    (h : run.fixtureSteps .manifest f = lead ++ step :: rest)
    (hrequest : run.request? cwd step = some request) :
    lead = [.activate f] ∧ step.fixture? = some f := by
  rcases lead with _ | ⟨x, _ | ⟨y, lead⟩⟩
  · obtain ⟨rfl, -⟩ := List.cons_eq_cons.mp h
    cases hrequest
  · obtain ⟨rfl, hrest⟩ := List.cons_eq_cons.mp h
    obtain ⟨rfl, -⟩ := List.cons_eq_cons.mp hrest
    exact ⟨rfl, rfl⟩
  · -- Only the judgement comes later, and that asks nothing.
    obtain ⟨-, hrest⟩ := List.cons_eq_cons.mp h
    obtain ⟨-, hrest⟩ := List.cons_eq_cons.mp hrest
    cases lead with
    | nil =>
      obtain ⟨rfl, -⟩ := List.cons_eq_cons.mp hrest
      cases hrequest
    | cons z lead => simp at hrest

/-- A manifest is checked while it is active itself. -/
theorem installed_of_manifest {cwd : Location} {request : Request}
    (hplan : run.plan selection = before ++ step :: after)
    (hrequest : run.request? cwd step = some request) (hsuite : step.suite = .manifest) :
    run.installed before = step.fixture? := by
  obtain ⟨earlier, later, -, ⟨lead, rest, hopening, -⟩ |
    ⟨ahead, f, behind, lead, rest, -, hfixture, hhead⟩⟩ := plan_split hplan
  · cases (request?_of_openingSteps cwd hopening).symm.trans hrequest
  · rw [hsuite] at hfixture hhead
    obtain ⟨rfl, hstep⟩ := lead_of_manifest hfixture hrequest
    rw [hhead, installed_append_of_some rfl, hstep]

/-! ## The events -/

/-- The activation that a step tells of when it succeeds. -/
def announced? (run : Run σ) : Step → Option ActiveConfiguration
  | .setUp => some (run.active run.config.generalManifest)
  | .activate m => some (run.active m.name)
  | _ => none

theorem activated_entries {cwd : Location} {answer : Captured} :
    (run.entries cwd answer step).filterMap Happening.activated? =
      (run.announced? step).toList := by
  rw [filterMap_entries_of_events (fun _ => rfl) (fun _ _ => rfl) (fun _ _ => rfl)]
  cases step <;> rfl

/-- What steps that succeeded tell of is what they made active. -/
theorem Conducts.announced (h : run.recorded.Conducts steps c .completed d) :
    steps.filterMap run.announced? =
      (steps.filterMap run.activated?).map fun m => run.active m.name := by
  rw [List.map_filterMap]
  refine List.filterMap_congr fun step hstep => ?_
  cases step with
  | setUp =>
    obtain ⟨c', d', hdoes⟩ := h.does_of_mem hstep
    cases hdoes with
    | @setUp m _ _ _ hfound _ =>
      have hfound' : run.activated? .setUp = some m := hfound
      have hname : m.name = run.config.generalManifest := by
        simpa using List.find?_some hfound'
      rw [hfound', Option.map_some, hname]
      rfl
  | _ => rfl

/-! ## The file during a run, and after it -/

/--
At every request of a run the active file holds what was made active last.

The request is that of a step, the place of which in the plan is known by the number of requests
before it.  A binary is built and resolved under the general manifest, and a manifest under itself.
Since the last exchange the harness has changed nothing but the active file, and nothing at all as
long as nothing was made active.
-/
def ServesActive (run : Run σ) (selection : Option (List Kind)) (s : Surroundings (Progress σ)) :
    Prop :=
  ∀ i e, (run.exchanges selection s)[i]? = some e →
    ∃ before step after, run.plan selection = before ++ step :: after ∧
      (before.filterMap (run.request? s.workspace.cwd)).length = i ∧
      run.request? s.workspace.cwd step = some e.request ∧
      run.Holds s (run.installed before) e.workspace.disk ∧
      (step.suite = .binary →
        ∃ m, run.catalog.manifests.find? (·.name = run.config.generalManifest) = some m ∧
          run.installed before = some m ∧ ∀ f, (run.buildContext f).manifest = m.name) ∧
      (step.suite = .manifest → run.installed before = step.fixture?) ∧
      (diskAfter s ((run.exchanges selection s).take i)).DiffersAt s.workspace.cwd run.activeFile
        e.workspace.disk ∧
      (run.installed before = none →
        e.workspace.disk = diskAfter s ((run.exchanges selection s).take i))

/--
The run ended at an activation because the manifest is a directory.

This takes the active file away, with all below it should there be anything; nothing else is
changed.
-/
def EndsAtDirectory (run : Run σ) (selection : Option (List Kind)) (s : Surroundings (Progress σ))
    (rest : List Step) : Prop :=
  ∃ step after m disk location goal, rest = step :: after ∧ run.activated? step = some m ∧
    ((run.verdict selection).perform s).1 =
      .error (.disk (.failed .isDirectory "copyfile" (some m.path) (some run.activeFile))) ∧
    (diskAfter s (run.exchanges selection s)).DiffersAt s.workspace.cwd run.activeFile disk ∧
    disk.find s.workspace.cwd m.path = .ok (location, .directory) ∧
    disk.destination s.workspace.cwd run.activeFile = .ok goal ∧
    ((run.verdict selection).perform s).2.workspace.disk.find s.workspace.cwd run.activeFile =
      .error .notFound ∧
    ∀ l, ¬ goal <+: l →
      ((run.verdict selection).perform s).2.workspace.disk.get? l = disk.get? l

/--
After a run the active file holds what was made active last.

What was made active is what the events of the run tell of.  Since the last exchange the harness has
changed nothing but the active file, and nothing at all if nothing was made active.
-/
def LeavesActive (run : Run σ) (selection : Option (List Kind)) (s : Surroundings (Progress σ)) :
    Prop :=
  ∃ done rest news, run.plan selection = done ++ rest ∧
    ((run.verdict selection).perform s).2.state.log = s.state.log ++ news ∧
    news.filterMap Happening.activated? =
      (done.filterMap run.activated?).map (fun m => run.active m.name) ∧
    (run.Holds s (run.installed done) ((run.verdict selection).perform s).2.workspace.disk ∧
        (diskAfter s (run.exchanges selection s)).DiffersAt s.workspace.cwd run.activeFile
          ((run.verdict selection).perform s).2.workspace.disk ∧
        (run.installed done = none → ((run.verdict selection).perform s).2.workspace.disk =
          diskAfter s (run.exchanges selection s)) ∨
      run.EndsAtDirectory selection s rest)

/-- After some steps of a plan the file holds what they made active last. -/
theorem Conducts.faithful_of_plan {rest : List Step}
    (hspares : run.runner.Spares run.configurationPaths)
    (hplan : run.plan selection = before ++ rest)
    (h : run.recorded.Conducts before ⟨s.recording, none⟩ .completed c) :
    run.Faithful s before c := by
  refine h.faithful hspares (fun step hstep m hm => ?_) .initial
  have hmem : step ∈ run.plan selection := by
    rw [hplan]
    exact List.mem_append_left _ hstep
  exact mem_manifests_of_plan hmem hm

theorem servesActive (hspares : run.runner.Spares run.configurationPaths) :
    run.ServesActive selection s := by
  intro i e he
  obtain ⟨x, d, hsteps, -, hexchanges⟩ := verdict_recorded run selection s
  rw [hexchanges] at he ⊢
  obtain ⟨before, step, after, c, hplan, hbefore, hrequest, hworkspace, htake⟩ :=
    hsteps.exchange_split he (Nat.zero_le i)
  have hfaithful := hbefore.faithful_of_plan hspares hplan
  rw [hfaithful.cwd] at hrequest
  refine ⟨before, step, after, hplan, ?_, hrequest, ?_, fun hsuite => ?_, fun hsuite => ?_, ?_, ?_⟩
  · obtain ⟨new, hnew, hrequests⟩ := hbefore.requests
    have hlength : c.exchanges.length = i := by
      rw [htake, List.length_take]
      exact Nat.min_eq_left (Nat.le_of_lt (List.getElem?_eq_some_iff.mp he).1)
    have hcount := congrArg List.length hrequests
    rw [List.length_map] at hcount
    rw [← hlength, hnew, List.length_append, hcount]
    exact (Nat.zero_add _).symm
  · rw [hworkspace]
    exact hfaithful.holds
  · obtain ⟨m, hfound, hinstalled⟩ := installed_of_binary hplan hbefore hrequest hsuite
    have hname : m.name = run.config.generalManifest := by simpa using List.find?_some hfound
    exact ⟨m, hfound, hinstalled, fun _ => hname.symm⟩
  · exact installed_of_manifest hplan hrequest hsuite
  · rw [hworkspace, ← htake]
    exact hfaithful.differs
  · rw [hworkspace, ← htake]
    exact hfaithful.untouched

/-- What a step that fails leaves of the file. -/
theorem Fails.leaves (hspares : run.runner.Spares run.configurationPaths)
    (hfails : run.recorded.Fails step c failure d) (hc : run.Faithful s done c) :
    (run.Holds s (run.installed done) d.workspace.disk ∧
      (diskAfter s d.exchanges).DiffersAt s.workspace.cwd run.activeFile d.workspace.disk ∧
      (run.installed done = none → d.workspace.disk = diskAfter s d.exchanges)) ∨
    ∃ m location goal, run.activated? step = some m ∧
      failure = .disk (.failed .isDirectory "copyfile" (some m.path) (some run.activeFile)) ∧
      (diskAfter s d.exchanges).DiffersAt s.workspace.cwd run.activeFile c.workspace.disk ∧
      c.workspace.disk.find s.workspace.cwd m.path = .ok (location, .directory) ∧
      c.workspace.disk.destination s.workspace.cwd run.activeFile = .ok goal ∧
      d.workspace.disk.find s.workspace.cwd run.activeFile = .error .notFound ∧
      ∀ l, ¬ goal <+: l → d.workspace.disk.get? l = c.workspace.disk.get? l := by
  rcases hfails.disk_cases with ⟨hdisk, hexchanges⟩ | ⟨m, error, hm, rfl, hcopy, hexchanges⟩ |
    ⟨request, answer, hasked, hexchanges⟩
  · rw [hdisk, hexchanges]
    exact .inl ⟨hc.holds, hc.differs, hc.untouched⟩
  · rw [hc.cwd] at hcopy
    rw [hexchanges]
    rcases Disk.copy_error hcopy with hsame | ⟨location, goal, hsource, hgoal, rfl, hgone, hkept⟩
    · rw [hsame]
      exact .inl ⟨hc.holds, hc.differs, hc.untouched⟩
    · exact .inr ⟨m, location, goal, hm, rfl, hc.differs, hsource, hgoal, hgone, hkept⟩
  · refine .inl ⟨hc.asked hspares hasked, ?_⟩
    rw [hexchanges, diskAfter_append]
    exact ⟨.refl, fun _ => rfl⟩

theorem leavesActive (hspares : run.runner.Spares run.configurationPaths) :
    run.LeavesActive selection s := by
  unfold LeavesActive EndsAtDirectory
  obtain ⟨x, d, hsteps, hperform, hexchanges⟩ := verdict_recorded run selection s
  rw [hperform, hexchanges]
  cases x with
  | completed =>
    obtain ⟨news, hnews, hactivated⟩ :=
      hsteps.news (p := Happening.activated?) (fun _ => rfl) fun _ _ => activated_entries
    have hplan := (List.append_nil (run.plan selection)).symm
    have hfaithful := hsteps.faithful_of_plan hspares hplan
    exact ⟨_, [], news, hplan, hnews, hactivated.trans hsteps.announced,
      .inl ⟨hfaithful.holds, hfaithful.differs, hfaithful.untouched⟩⟩
  | stopped step failure =>
    obtain ⟨before, after, c, hplan, hbefore, hfails⟩ := hsteps.stopped_split
    obtain ⟨news, hnews, hactivated⟩ := hbefore.news_stopped (p := Happening.activated?)
      (fun _ => rfl) (fun _ => rfl) (fun _ _ => activated_entries) hfails
    have hfaithful := hbefore.faithful_of_plan hspares hplan
    refine ⟨before, step :: after, news, hplan, hnews, hactivated.trans hbefore.announced, ?_⟩
    rcases hfails.leaves hspares hfaithful with hleft |
      ⟨m, location, goal, hm, rfl, hdiffers, hsource, hgoal, hgone, hkept⟩
    · exact .inl hleft
    · exact .inr ⟨step, after, m, c.workspace.disk, location, goal, rfl, hm, rfl, hdiffers, hsource,
        hgoal, hgone, hkept⟩

/-- **The active file holds the manifest that was made active last**, at every request and after
the run, as long as the runner spares it and the manifests. -/
theorem active_file (hspares : run.runner.Spares run.configurationPaths) :
    run.ServesActive selection s ∧ run.LeavesActive selection s :=
  ⟨servesActive hspares, leavesActive hspares⟩

/-- A run over one binary, two manifests and a trace, with a runner that leaves the disk alone. -/
def smallRun : Run Unit where
  catalog := ⟨"/tree", [.describe "/tree" .binary "b"],
    [.describe "/tree" .manifest "general", .describe "/tree" .manifest "other"],
    [.describe "/tree" .trace "t"]⟩
  config := .default
  tool := "/bin/tool"
  env := []
  runner := fun _ w memory => (.ok {}, w.disk, memory)

/-- The tree of that run.  The expected outputs are empty, so that every output matches. -/
def smallTree : Surroundings (Progress Unit) where
  workspace := ⟨⟨[(["tree"], .directory), (["tree", "manifests"], .directory),
    (["tree", "manifests", "general.toml"], .file [1] false),
    (["tree", "manifests", "other.toml"], .file [2] false), (["tree", "out"], .directory),
    (["tree", "out", "b.run"], .file [] false), (["tree", "out", "general.run"], .file [] false),
    (["tree", "out", "other.run"], .file [] false),
    (["tree", "out", "trace-t.run"], .file [] false)]⟩, ["tree"], []⟩
  state := ⟨(), []⟩

theorem active_file_smallRun :
    smallRun.runner.Spares smallRun.configurationPaths ∧
      (smallRun.exchanges none smallTree).length = 5 ∧
      smallRun.ServesActive none smallTree ∧ smallRun.LeavesActive none smallTree := by
  have hspares : smallRun.runner.Spares smallRun.configurationPaths := fun _ _ _ _ _ => rfl
  exact ⟨hspares, by decide +kernel, active_file hspares⟩

/-! ## A manifest that is a directory -/

/-- A run over one manifest. -/
def directoryRun : Run Unit where
  catalog := ⟨"/tmp/gt-fxroot", [], [.describe "/tmp/gt-fxroot" .manifest "general"], []⟩
  config := .default
  tool := "/opt/bin/trace-tool"
  env := [("PATH", "/usr/bin")]
  runner := fun _ w memory => (.ok {}, w.disk, memory)

/-- A tree in which this manifest is a directory, and in which the active file is there. -/
def directoryTree : Surroundings (Progress Unit) where
  workspace := ⟨⟨[(["tmp"], .directory), (["tmp", "gt-fxroot"], .directory),
    (["tmp", "gt-fxroot", "Cargo.toml"], .file [107, 101, 112, 116, 10] false),
    (["tmp", "gt-fxroot", "manifests"], .directory),
    (["tmp", "gt-fxroot", "manifests", "general.toml"], .directory),
    (["tmp", "gt-fxroot", "out"], .directory),
    (["tmp", "gt-fxroot", "out", "general.run"], .file [] false)]⟩, ["tmp", "gt-fxroot"], []⟩
  state := ⟨(), []⟩

/-- **The active file need not be left alone when nothing was made active**: the runner spares it,
it is none of the manifests and no event tells of an activation, and yet it is gone after the
run. -/
theorem directory_takes_active_file_away :
    directoryRun.runner.Spares directoryRun.configurationPaths ∧
      (∀ m ∈ directoryRun.catalog.manifests, directoryRun.activeFile ≠ m.path) ∧
      ((directoryRun.verdict none).perform directoryTree).2.state.log =
        [.published (.suiteStarted .binary 0)] ∧
      directoryTree.workspace.disk.read directoryTree.workspace.cwd directoryRun.activeFile =
        .ok [107, 101, 112, 116, 10] ∧
      ((directoryRun.verdict none).perform directoryTree).2.workspace.disk.find
        directoryTree.workspace.cwd directoryRun.activeFile = .error .notFound := by
  refine ⟨fun _ _ _ _ _ => rfl, ?_, ?_, ?_, ?_⟩
  · decide +kernel
  · decide +kernel
  · decide +kernel
  · decide +kernel

end Run

end GoldenRun
