import GoldenRun.Proofs.Run.Script
import GoldenRun.Proofs.Run.Verdict

/-!
# Why a run was aborted

A run that is aborted names a suite, a fixture and a defect.  They are those of the first step that
failed, and there are four causes only.

* `aborted_reached`: the run stopped at a step, and its verdict names the place of this step
* `verdict_withTraces`: a replay that failed comes before its expected output, so the run does not
  depend on where that lies
* `aborted_explained`: the fixtures before the one that is named passed, and exactly one cause
  explains the verdict
-/

namespace GoldenRun

variable {σ : Type}

/-- The fixture that an entry of the log calls passed. -/
def Happening.passed? : Happening → Option (Kind × Fixture)
  | .published (.passed suite f) => some (suite, f)
  | _ => none

/-- The fixture that a step judges. -/
def Step.judged? : Step → Option (Kind × Fixture)
  | .judge suite f => some (suite, f)
  | _ => none

/-- A cause for which a run is aborted. -/
inductive Cause where
  /-- There is no general manifest. -/
  | setup
  /-- A replay did not succeed. -/
  | replay
  /-- An expected output has a blank line. -/
  | blankLine
  /-- An expected line is not in the output. -/
  | mismatch
  deriving DecidableEq, Repr

/-- The cause that a defect can have in the harness. -/
def Cause.ofDefect? : Defect → Option Cause
  | .noGeneralManifest _ => some .setup
  | .replayFailed _ _ => some .replay
  | .invalidFixture _ _ _ => some .blankLine
  | .mismatch _ _ _ => some .mismatch
  | _ => none

/-- A runner that does not itself answer with a defect of the harness. -/
def Runner.NoDefects (runner : Runner σ) : Prop :=
  ∀ request w memory defect, (runner request w memory).1 ≠ .error (.defect defect)

theorem Runner.NoDefects.recorded {runner : Runner σ} (h : runner.NoDefects) :
    runner.recorded.NoDefects :=
  fun request w memory defect => h request w memory.1 defect

namespace Run

/-- The run with other traces in its catalog. -/
def withTraces (run : Run σ) (traces : List Fixture) : Run σ :=
  { run with catalog := { run.catalog with traces := traces } }

/--
Every fixture before has passed.

These are all fixtures of the suites before, and the fixtures `ahead` of the suite itself; `since`
are the exchanges after that.
-/
def PassedBefore (run : Run σ) (selection : Option (List Kind)) (s t : Surroundings (Progress σ))
    (suite : Kind) (ahead : List Fixture) (since : List Exchange) : Prop :=
  ∃ earlier later news passed, selected selection = earlier ++ suite :: later ∧
    t.state.log = s.state.log ++ news ∧
    news.filterMap Happening.passed? =
      earlier.flatMap run.suiteChecks ++ ahead.map (suite, ·) ∧
    run.exchanges selection s = passed ++ since ∧
    List.Forall₂ (run.Matched s.workspace.cwd)
      (earlier.flatMap run.suiteChecks ++ ahead.map (suite, ·)) (passed.filter Exchange.withTool)

/--
A cause explains a verdict.

`ahead` are the fixtures of the suite that passed, and `since` are the exchanges since then.  When a
fixture was begun, they end with its one run of the tool, and its expected output is read from the
disk that this run left.
-/
def Explains (run : Run σ) (selection : Option (List Kind)) (s : Surroundings (Progress σ))
    (suite : Kind) (fixture : String) (defect : Defect) (ahead : List Fixture)
    (since : List Exchange) : Cause → Prop
  | .setup =>
    suite = .binary ∧ fixture = "(setup)" ∧ ahead = [] ∧ since = [] ∧
      (∀ m ∈ run.catalog.manifests, m.name ≠ run.config.generalManifest) ∧
      defect = .noGeneralManifest run.config.generalManifest
  | .replay =>
    suite = .trace ∧ ∃ f behind e output, run.catalog.traces = ahead ++ f :: behind ∧
      f.name = fixture ∧ since = [e] ∧ e.request = run.toolRequest s.workspace.cwd .trace f ∧
      e.answer = .ok output ∧ output.succeeded = false ∧ defect = .replayFailed f.name output ∧
      -- The expected output may lie anywhere.
      ∀ path, ((run.withTraces (ahead ++ { f with expectedPath := path } :: behind)).verdict
        selection).perform s = (run.verdict selection).perform s
  | .blankLine =>
    ∃ f behind lead e output text before line after,
      run.catalog.fixtures suite = ahead ++ f :: behind ∧ f.name = fixture ∧
      since = lead ++ [e] ∧ lead.filter Exchange.withTool = [] ∧
      e.request = run.toolRequest s.workspace.cwd suite f ∧ e.answer = .ok output ∧
      e.disk.readText s.workspace.cwd f.expectedPath = .ok text ∧
      run.config.blankLines = .reject ∧
      Expected.lines text.toList = before ++ line :: after ∧
      (∀ l ∈ before, Text.allBlank l = false) ∧ Text.allBlank line = true ∧
      defect = .invalidFixture f.expectedPath (before.length + 1) blankLineReason
  | .mismatch =>
    ∃ f behind lead e output text before missing after,
      run.catalog.fixtures suite = ahead ++ f :: behind ∧ f.name = fixture ∧
      since = lead ++ [e] ∧ lead.filter Exchange.withTool = [] ∧
      e.request = run.toolRequest s.workspace.cwd suite f ∧ e.answer = .ok output ∧
      e.disk.readText s.workspace.cwd f.expectedPath = .ok text ∧
      Expected.parse run.config.blankLines text = .ok (before ++ missing :: after) ∧
      (∀ line ∈ before, line.text.toList <:+: output.text.toList) ∧
      ¬ missing.text.toList <:+: output.text.toList ∧
      defect = .mismatch f missing output

variable {run : Run σ} {selection : Option (List Kind)} {s t : Surroundings (Progress σ)}
  {suite : Kind} {fixture : String} {defect : Defect} {step : Step} {f : Fixture}
  {before : List Step}

/-! ## The step that failed -/

/-- A run that is aborted stopped at a step, and it names the suite and the place of this step. -/
theorem aborted_reached
    (habort : (run.verdict selection).perform s = (.ok (.aborted suite fixture defect), t)) :
    ∃ step before after c d, run.plan selection = before ++ step :: after ∧
      run.recorded.Conducts before ⟨s.recording, none⟩ .completed c ∧
      run.recorded.Fails step c (.defect defect) d ∧ t = d.toSurroundings.forget ∧
      run.exchanges selection s = d.exchanges ∧ step.suite = suite ∧ step.place = fixture := by
  obtain ⟨x, d, hsteps, hperform, hexchanges⟩ := verdict_recorded run selection s
  rw [hperform] at habort
  obtain ⟨hverdict, ht⟩ := Prod.mk.inj habort
  obtain ⟨step, rfl, hsuite, hplace⟩ := Conclusion.verdict_eq_aborted_iff.mp hverdict
  obtain ⟨before, after, c, hplan, hbefore, hfails⟩ := hsteps.stopped_split
  exact ⟨step, before, after, c, d, hplan, hbefore, hfails, ht.symm, hexchanges, hsuite, hplace⟩

theorem passed_entries {cwd : Location} {answer : Captured} :
    (run.entries cwd answer step).filterMap Happening.passed? = step.judged?.toList := by
  rw [filterMap_entries_of_events (fun _ => rfl) (fun _ _ => rfl) (fun _ _ => rfl)]
  cases step <;> rfl

/-- The fixtures that passed by then are those that were judged. -/
theorem Conducts.passed {c₀ c d : Moment (σ × List Exchange)} {failure : Failure}
    (hbefore : run.recorded.Conducts before c₀ .completed c)
    (hfails : run.recorded.Fails step c failure d) :
    ∃ news, d.state.log = c₀.state.log ++ news ∧
      news.filterMap Happening.passed? = before.filterMap Step.judged? :=
  hbefore.news_stopped (fun _ => rfl) (fun _ => rfl) (fun _ _ => passed_entries) hfails

theorem judged_openingSteps (run : Run σ) (suite : Kind) :
    (run.openingSteps suite).filterMap Step.judged? = [] := by
  cases suite <;> rfl

theorem judged_fixtureSteps (run : Run σ) (suite : Kind) (fixtures : List Fixture) :
    (fixtures.flatMap (run.fixtureSteps suite)).filterMap Step.judged? =
      fixtures.map (suite, ·) := by
  have hfixture : ∀ f, (run.fixtureSteps suite f).filterMap Step.judged? = [(suite, f)] := by
    intro f
    cases suite <;> rfl
  rw [List.filterMap_flatMap]
  simp only [hfixture]
  exact List.map_eq_flatMap.symm

theorem judged_suiteSteps (run : Run σ) (suites : List Kind) :
    (suites.flatMap run.suiteSteps).filterMap Step.judged? = suites.flatMap run.suiteChecks := by
  rw [List.filterMap_flatMap]
  congr 1
  funext suite
  rw [suiteSteps, List.filterMap_append, judged_openingSteps, judged_fixtureSteps, List.nil_append]
  rfl

/-! ## What came before -/

/-- A run that stops before the fixtures of a suite. -/
theorem passedBefore_of_opening {earlier later : List Kind} {lead rest : List Step}
    {c d : Moment (σ × List Exchange)} {failure : Failure}
    (hselected : selected selection = earlier ++ suite :: later)
    (hopening : run.openingSteps suite = lead ++ step :: rest)
    (hbefore : run.recorded.Conducts (earlier.flatMap run.suiteSteps ++ lead)
      ⟨s.recording, none⟩ .completed c)
    (hfails : run.recorded.Fails step c failure d)
    (hexchanges : run.exchanges selection s = d.exchanges) :
    run.PassedBefore selection s d.toSurroundings.forget suite [] [] := by
  obtain ⟨news, hnews, hjudged⟩ := hbefore.passed hfails
  obtain ⟨c', hsuites, hlead⟩ := hbefore.split
  obtain ⟨passed, hpassed, hmatched⟩ := hsuites.suites_matched
  -- The opening of a suite judges nothing and asks nothing.
  have hnone := run.judged_openingSteps suite
  rw [hopening, List.filterMap_append, List.append_eq_nil_iff] at hnone
  have hsilent := run.requests_openingSteps s.workspace.cwd suite
  rw [hopening, List.filterMap_append, List.append_eq_nil_iff] at hsilent
  have hlast : c.exchanges = c'.exchanges := by
    obtain ⟨new, hnew, hrequests⟩ := hlead.requests
    rw [hsuites.cwd] at hrequests
    have hnil : new = [] := List.map_eq_nil_iff.mp (hrequests.trans hsilent.1)
    rw [hnew, hnil, List.append_nil]
  have hquiet : d.exchanges = c.exchanges := by
    refine hfails.quiet ?_
    rw [hbefore.cwd]
    exact request?_of_openingSteps s.workspace.cwd hopening
  refine ⟨earlier, later, news, passed, hselected, hnews, ?_, ?_, ?_⟩
  · rw [hjudged, List.filterMap_append, judged_suiteSteps, hnone.1]
    rfl
  · rw [hexchanges, hquiet, hlast, hpassed, List.append_nil]
    rfl
  · rw [List.map_nil, List.append_nil]
    exact hmatched

/-- A run that stops at a fixture, after some steps of it. -/
theorem passedBefore_of_fixture {earlier later : List Kind} {ahead : List Fixture}
    {lead : List Step} {c d : Moment (σ × List Exchange)} {failure : Failure}
    (hselected : selected selection = earlier ++ suite :: later)
    (hlead : lead.filterMap Step.judged? = [])
    (hbefore : run.recorded.Conducts (earlier.flatMap run.suiteSteps ++
      (run.openingSteps suite ++ ahead.flatMap (run.fixtureSteps suite)) ++ lead)
      ⟨s.recording, none⟩ .completed c)
    (hfails : run.recorded.Fails step c failure d)
    (hexchanges : run.exchanges selection s = d.exchanges) :
    ∃ c', run.recorded.Conducts lead c' .completed c ∧
      c'.workspace.cwd = s.workspace.cwd ∧
      ∀ since, d.exchanges = c'.exchanges ++ since →
        run.PassedBefore selection s d.toSurroundings.forget suite ahead since := by
  obtain ⟨news, hnews, hjudged⟩ := hbefore.passed hfails
  obtain ⟨c₂, hhead, hrest⟩ := hbefore.split
  obtain ⟨c₁, hsuites, hahead⟩ := hhead.split
  obtain ⟨first, hfirst, hmatched⟩ := hsuites.suites_matched
  obtain ⟨second, hsecond, hmatched'⟩ := hahead.fixtures_matched
  refine ⟨c₂, hrest, hhead.cwd, fun since hsince => ?_⟩
  refine ⟨earlier, later, news, first ++ second, hselected, hnews, ?_, ?_, ?_⟩
  · rw [hjudged]
    simp only [List.filterMap_append, judged_suiteSteps, judged_openingSteps, judged_fixtureSteps,
      hlead, List.nil_append, List.append_nil]
  · rw [hexchanges, hsince, hsecond, hfirst]
    rfl
  · rw [hsuites.cwd] at hmatched'
    rw [List.filter_append]
    exact List.rel_append hmatched hmatched'

/-! ## A replay comes before its expected output -/

theorem Does.withTraces {c d : Moment σ} (h : run.Does step c d) (traces : List Fixture) :
    (run.withTraces traces).Does step c d := by
  cases h with
  | start => exact .start
  | setUp hfound hcopy => exact .setUp hfound hcopy
  | activate hcopy => exact .activate hcopy
  | build hrequest hanswer => exact .build hrequest hanswer
  | resolve hanswer => exact .resolve hanswer
  | replay hanswer hsucceeded => exact .replay hanswer hsucceeded
  | judge hread hparse hlines => exact .judge hread hparse hlines

/-- The steps themselves do not look at the traces of the catalog. -/
theorem Conducts.withTraces {c d : Moment σ} {steps : List Step}
    (h : run.Conducts steps c .completed d) (traces : List Fixture) :
    (run.withTraces traces).Conducts steps c .completed d := by
  generalize hx : Conclusion.completed = x at h
  induction h with
  | done => exact hx ▸ .done
  | stop _ => cases hx
  | step hdoes _ ih => exact .step (hdoes.withTraces traces) (ih hx)

/-- How a replay fails does not depend on where its expected output lies. -/
theorem Fails.withTraces {c d : Moment σ} {failure : Failure}
    (h : run.Fails (.replay f) c failure d) (path : String) (traces : List Fixture) :
    (run.withTraces traces).Fails (.replay { f with expectedPath := path }) c failure d := by
  cases h with
  | raised hrequest hanswer => exact .raised hrequest hanswer
  | replay hanswer hfailed => exact .replay hanswer hfailed

theorem trace_not_mem_of_selected {earlier later : List Kind}
    (h : selected selection = earlier ++ .trace :: later) : .trace ∉ earlier := by
  have hall : Kind.all.Nodup := by decide
  have hnodup : (selected selection).Nodup := List.Pairwise.filter _ hall
  rw [h, List.nodup_append] at hnodup
  intro hmem
  exact hnodup.2.2 _ hmem _ List.mem_cons_self rfl

/-- The plan up to the replay of a trace. -/
theorem plan_of_traces (run : Run σ) {earlier later : List Kind} {ahead behind : List Fixture}
    (hselected : selected selection = earlier ++ .trace :: later)
    (htraces : run.catalog.traces = ahead ++ f :: behind) :
    ∃ after, run.plan selection =
      earlier.flatMap run.suiteSteps ++
        (run.openingSteps .trace ++ ahead.flatMap (run.fixtureSteps .trace)) ++
          .replay f :: after := by
  have hfixtures : run.catalog.fixtures .trace = ahead ++ f :: behind := htraces
  have hsuite : run.suiteSteps .trace =
      (run.openingSteps .trace ++ ahead.flatMap (run.fixtureSteps .trace)) ++
        .replay f :: .judge .trace f :: behind.flatMap (run.fixtureSteps .trace) := by
    rw [suiteSteps, hfixtures, List.flatMap_append, List.append_assoc, List.flatMap_cons]
    rfl
  refine ⟨.judge .trace f :: behind.flatMap (run.fixtureSteps .trace) ++
    later.flatMap run.suiteSteps, ?_⟩
  rw [plan, hselected, List.flatMap_append, List.flatMap_cons, hsuite]
  simp only [List.append_assoc, List.cons_append]

theorem flatMap_suiteSteps_withTraces {suites : List Kind} (h : .trace ∉ suites)
    (traces : List Fixture) :
    suites.flatMap (run.withTraces traces).suiteSteps = suites.flatMap run.suiteSteps := by
  refine List.flatMap_congr fun suite hsuite => ?_
  cases suite with
  | trace => exact (h hsuite).elim
  | _ => rfl

/-- **A replay that failed ended the run before the expected output was looked at**: the run goes
in the same way wherever that lies. -/
theorem verdict_withTraces {earlier later : List Kind} {ahead behind : List Fixture}
    {c d : Moment σ} {failure : Failure}
    (hselected : selected selection = earlier ++ .trace :: later)
    (htraces : run.catalog.traces = ahead ++ f :: behind)
    (hbefore : run.Conducts (earlier.flatMap run.suiteSteps ++
      (run.openingSteps .trace ++ ahead.flatMap (run.fixtureSteps .trace))) ⟨s, none⟩ .completed c)
    (hfails : run.Fails (.replay f) c failure d) (path : String) :
    ((run.withTraces (ahead ++ { f with expectedPath := path } :: behind)).verdict
      selection).perform s = (run.verdict selection).perform s := by
  have hsame : (run.verdict selection).perform s =
      ((Conclusion.stopped (.replay f) failure).verdict (run.count selection),
        d.toSurroundings) := by
    obtain ⟨after, hplan⟩ := run.plan_of_traces hselected htraces
    refine perform_verdict_iff.mpr ⟨_, d, ?_, rfl, rfl⟩
    rw [hplan]
    exact hbefore.append (.stop hfails)
  rw [hsame]
  obtain ⟨after, hplan⟩ := (run.withTraces
    (ahead ++ { f with expectedPath := path } :: behind)).plan_of_traces hselected rfl
  refine perform_verdict_iff.mpr ⟨.stopped (.replay { f with expectedPath := path }) failure, d,
    ?_, ?_, rfl⟩
  · have hopening : (run.withTraces
        (ahead ++ { f with expectedPath := path } :: behind)).openingSteps .trace =
        run.openingSteps .trace := by
      have htraces' : (run.catalog.fixtures .trace).length =
          (ahead ++ { f with expectedPath := path } :: behind).length := by
        rw [Catalog.fixtures, htraces]
        simp
      unfold openingSteps
      rw [htraces']
      rfl
    rw [hplan, flatMap_suiteSteps_withTraces (trace_not_mem_of_selected hselected), hopening]
    exact (hbefore.withTraces _).append (.stop (hfails.withTraces path _))
  · cases failure <;> rfl

/-! ## The causes -/

variable {ahead : List Fixture} {since : List Exchange}

/-- The defect tells the cause. -/
theorem Explains.ofDefect? {cause : Cause}
    (h : run.Explains selection s suite fixture defect ahead since cause) :
    Cause.ofDefect? defect = some cause := by
  cases cause with
  | setup =>
    obtain ⟨-, -, -, -, -, rfl⟩ := h
    rfl
  | replay =>
    obtain ⟨-, f, behind, e, output, -, -, -, -, -, -, rfl, -⟩ := h
    rfl
  | blankLine =>
    obtain ⟨f, behind, lead, e, output, text, before, line, after, -, -, -, -, -, -, -, -, -, -, -,
      rfl⟩ := h
    rfl
  | mismatch =>
    obtain ⟨f, behind, lead, e, output, text, before, missing, after, -, -, -, -, -, -, -, -, -, -,
      rfl⟩ := h
    rfl

/-- The step before a judgement is the run of the tool for the same fixture. -/
theorem lead_of_judge {suite' : Kind} {f' : Fixture} {lead rest : List Step}
    (h : run.fixtureSteps suite f' = lead ++ .judge suite' f :: rest) :
    f' = f ∧ lead = leadSteps suite f ++ [run.toolStep suite f] := by
  have hsteps : (leadSteps suite f' ++ [run.toolStep suite f']) ++ [.judge suite f'] =
      lead ++ .judge suite' f :: rest := by
    rw [← h, fixtureSteps_eq, List.append_assoc]
    rfl
  rcases append_split hsteps with ⟨rest', hlead⟩ | ⟨between, rfl, hjudge⟩
  · have hmem : Step.judge suite' f ∈ leadSteps suite f' ++ [run.toolStep suite f'] :=
      List.mem_iff_append.mpr ⟨lead, rest', hlead⟩
    cases suite <;> simp [leadSteps, toolStep] at hmem
  · cases between with
    | nil =>
      simp only [List.nil_append, List.cons.injEq, Step.judge.injEq] at hjudge
      obtain ⟨⟨-, rfl⟩, -⟩ := hjudge
      exact ⟨rfl, by simp⟩
    | cons x between => simp at hjudge

variable {c d : Moment (σ × List Exchange)} {after : List Step}

theorem explained_setup
    (hplan : run.plan selection = before ++ .setUp :: after)
    (hbefore : run.recorded.Conducts before ⟨s.recording, none⟩ .completed c)
    (hfails : run.recorded.Fails .setUp c (.defect defect) d)
    (hexchanges : run.exchanges selection s = d.exchanges) :
    run.PassedBefore selection s d.toSurroundings.forget .binary [] [] ∧
      run.Explains selection s .binary beforeFixtures defect [] [] .setup := by
  obtain ⟨earlier, later, hselected, ⟨lead, rest, hopening, rfl⟩ |
    ⟨ahead, f, behind, lead, rest, -, hfixture, -⟩⟩ := plan_split hplan
  · refine ⟨passedBefore_of_opening hselected hopening hbefore hfails hexchanges, ?_⟩
    cases hfails with
    | noGeneral hnone =>
      refine ⟨rfl, rfl, rfl, rfl, fun m hm => ?_, rfl⟩
      exact fun hname => List.find?_eq_none.mp hnone m hm (decide_eq_true hname)
    | raised hrequest _ => cases hrequest
  · have hmem : Step.setUp ∈ run.fixtureSteps .binary f :=
      List.mem_iff_append.mpr ⟨lead, rest, hfixture⟩
    simp [fixtureSteps] at hmem

/-- A replay that fails with a defect was answered, but not with a success. -/
theorem Fails.replay_hears (hrunner : run.runner.NoDefects)
    (h : run.recorded.Fails (.replay f) c (.defect defect) d) :
    ∃ e output, d.exchanges = c.exchanges ++ [e] ∧
      e.request = run.toolRequest c.workspace.cwd .trace f ∧ e.answer = .ok output ∧
      output.succeeded = false ∧ defect = .replayFailed f.name output := by
  cases h with
  | raised _ hanswer => exact (hrunner.recorded _ _ _ _ (congrArg Prod.fst hanswer)).elim
  | @replay f s o output disk memory hanswer hfailed =>
    exact ⟨⟨_, _, .ok output, _⟩, output, (Runner.recorded_eq_iff.mp hanswer).2, rfl, rfl,
      hfailed, rfl⟩

theorem explained_replay (hrunner : run.runner.NoDefects)
    (hplan : run.plan selection = before ++ .replay f :: after)
    (hbefore : run.recorded.Conducts before ⟨s.recording, none⟩ .completed c)
    (hfails : run.recorded.Fails (.replay f) c (.defect defect) d)
    (hexchanges : run.exchanges selection s = d.exchanges) :
    ∃ ahead since, run.PassedBefore selection s d.toSurroundings.forget .trace ahead since ∧
      run.Explains selection s .trace f.name defect ahead since .replay := by
  obtain ⟨earlier, later, hselected, ⟨lead, rest, hopening, -⟩ |
    ⟨ahead, f', behind, lead, rest, hfixtures, hfixture, hhead⟩⟩ := plan_split hplan
  · have hmem : Step.replay f ∈ run.openingSteps .trace :=
      List.mem_iff_append.mpr ⟨lead, rest, hopening⟩
    simp [openingSteps] at hmem
  · obtain ⟨rfl, rfl⟩ : f' = f ∧ lead = [] := by
      cases lead with
      | nil => simpa [fixtureSteps, Step.suite] using And.left (List.cons_eq_cons.mp hfixture)
      | cons x lead => cases lead <;> simp [fixtureSteps, Step.suite] at hfixture
    subst hhead
    obtain ⟨c', hdone, hcwd, hpassed⟩ :=
      passedBefore_of_fixture hselected rfl hbefore hfails hexchanges
    cases hdone
    rw [List.append_nil] at hbefore
    -- The replay is the first step of its trace: nothing was read for it before.
    have hunread := verdict_withTraces hselected hfixtures hbefore.forget hfails.forget
    obtain ⟨e, output, hasked, hrequest, hanswer, hfailed, hdefect⟩ := hfails.replay_hears hrunner
    rw [hcwd] at hrequest
    exact ⟨ahead, [e], hpassed _ hasked, rfl, f', behind, e, output, hfixtures, rfl, rfl, hrequest,
      hanswer, hfailed, hdefect, hunread⟩

/-- A judgement that fails with a defect: the first blank line, or the first that is missing. -/
theorem explained_judge
    (hplan : run.plan selection = before ++ .judge suite f :: after)
    (hbefore : run.recorded.Conducts before ⟨s.recording, none⟩ .completed c)
    (hfails : run.recorded.Fails (.judge suite f) c (.defect defect) d)
    (hexchanges : run.exchanges selection s = d.exchanges) :
    ∃ ahead since cause, run.PassedBefore selection s d.toSurroundings.forget suite ahead since ∧
      run.Explains selection s suite f.name defect ahead since cause := by
  obtain ⟨earlier, later, hselected, ⟨lead, rest, hopening, -⟩ |
    ⟨ahead, f', behind, lead, rest, hfixtures, hfixture, hhead⟩⟩ := plan_split hplan
  · have hmem : Step.judge suite f ∈ run.openingSteps suite :=
      List.mem_iff_append.mpr ⟨lead, rest, hopening⟩
    cases suite <;> simp [openingSteps] at hmem
  · obtain ⟨rfl, rfl⟩ := lead_of_judge hfixture
    subst hhead
    have hsilent : (leadSteps suite f' ++ [run.toolStep suite f']).filterMap Step.judged? = [] := by
      cases suite <;> rfl
    obtain ⟨c', hlead, hcwd, hpassed⟩ :=
      passedBefore_of_fixture hselected hsilent hbefore hfails hexchanges
    have hcwd' := hlead.cwd
    obtain ⟨lead, e, output, hasked, hquiet, hrequest, hanswer, hdisk, houtput, -⟩ :=
      hlead.fixture_asked
    rw [hcwd] at hrequest
    have hread : ∀ {r}, c.workspace.disk.readText c.workspace.cwd f'.expectedPath = r →
        e.disk.readText s.workspace.cwd f'.expectedPath = r := by
      intro r h
      rw [hdisk, ← hcwd, ← hcwd']
      exact h
    cases hfails with
    | raised hrequest _ => cases hrequest
    | blank hread' hparse =>
      obtain ⟨hpolicy, before, line, after, hsplit, hfull, hblank, rfl⟩ :=
        Expected.parse_eq_error_iff.mp hparse
      exact ⟨ahead, lead ++ [e], .blankLine, hpassed _ hasked, f', behind, lead, e, output, _,
        before, line, after, hfixtures, rfl, rfl, hquiet, hrequest, hanswer, hread hread', hpolicy,
        hsplit, hfull, hblank, rfl⟩
    | mismatch hread' hparse hmissing =>
      obtain rfl := Option.some.inj houtput
      obtain ⟨before, after, rfl, hfound, hmissing⟩ :=
        Expected.firstMissing?_eq_some_iff.mp hmissing
      exact ⟨ahead, lead ++ [e], .mismatch, hpassed _ hasked, f', behind, lead, e, _, _, before, _,
        after, hfixtures, rfl, rfl, hquiet, hrequest, hanswer, hread hread', hparse, hfound,
        hmissing, rfl⟩

/--
**A run that is aborted names the first failure.**

Every fixture before the one that is named has passed, and exactly one cause explains the verdict.
The runner must not itself answer with a defect of the harness.
-/
theorem aborted_explained (hrunner : run.runner.NoDefects)
    (habort : (run.verdict selection).perform s = (.ok (.aborted suite fixture defect), t)) :
    ∃ ahead since, run.PassedBefore selection s t suite ahead since ∧
      ∃! cause, run.Explains selection s suite fixture defect ahead since cause := by
  obtain ⟨step, before, after, c, d, hplan, hbefore, hfails, rfl, hexchanges, rfl, rfl⟩ :=
    aborted_reached habort
  have hexplained : ∃ ahead since cause,
      run.PassedBefore selection s d.toSurroundings.forget step.suite ahead since ∧
      run.Explains selection s step.suite step.place defect ahead since cause := by
    cases step with
    | setUp =>
      exact ⟨[], [], .setup, explained_setup hplan hbefore hfails hexchanges⟩
    | replay f =>
      obtain ⟨ahead, since, hexplained⟩ := explained_replay hrunner hplan hbefore hfails hexchanges
      exact ⟨ahead, since, .replay, hexplained⟩
    | judge suite f => exact explained_judge hplan hbefore hfails hexchanges
    | _ =>
      cases hfails with
      | raised _ hanswer => exact (hrunner.recorded _ _ _ _ (congrArg Prod.fst hanswer)).elim
  obtain ⟨ahead, since, cause, hpassed, hexplains⟩ := hexplained
  refine ⟨ahead, since, hpassed, cause, hexplains, fun cause' hexplains' => ?_⟩
  exact Option.some.inj (hexplains'.ofDefect?.symm.trans hexplains.ofDefect?)

/-- A run in which the replay of the second trace ends with exit code 1. -/
def brokenReplay : Run Nat where
  catalog := ⟨"/tree", [], [], [.describe "/tree" .trace "a", .describe "/tree" .trace "b"]⟩
  config := .default
  tool := "/bin/tool"
  env := []
  runner := fun _ w asked => (.ok { exitCode := some asked }, w.disk, asked + 1)

/-- A tree in which the expected output of the first trace is empty, and that of the second is
missing. -/
def brokenTree : Surroundings (Progress Nat) where
  workspace := ⟨⟨[(["tree"], .directory), (["tree", "out"], .directory),
    (["tree", "out", "trace-a.run"], .file [] false)]⟩, ["tree"], []⟩
  state := ⟨0, []⟩

theorem aborted_explained_brokenReplay :
    brokenReplay.runner.NoDefects ∧
      ((brokenReplay.verdict (some [.trace])).perform brokenTree).1 =
        .ok (.aborted .trace "b" (.replayFailed "b" { exitCode := some 1 })) ∧
      ∃ ahead since, brokenReplay.PassedBefore (some [.trace]) brokenTree
          ((brokenReplay.verdict (some [.trace])).perform brokenTree).2 .trace ahead since ∧
        ∃! cause, brokenReplay.Explains (some [.trace]) brokenTree .trace "b"
          (.replayFailed "b" { exitCode := some 1 }) ahead since cause := by
  have hrunner : brokenReplay.runner.NoDefects := by
    intro request w asked defect h
    cases h
  have habort : ((brokenReplay.verdict (some [.trace])).perform brokenTree).1 =
      .ok (.aborted .trace "b" (.replayFailed "b" { exitCode := some 1 })) := by decide +kernel
  exact ⟨hrunner, habort, aborted_explained hrunner (Prod.ext habort rfl)⟩

end Run

end GoldenRun
