import GoldenRun.Proofs.Run.Conduct

/-!
# The harness conducts its plan

* `verdict_conducts`: whatever the runner does, `Run.verdict` conducts the steps of the plan, and
  its answer is the one that their end means
* `perform_verdict_iff`: and so the relation says exactly how a run can end

Each action of the harness is carried out once, in a lemma of its own; the lemmas above it cite
that one and do not look into the action again.
-/

namespace GoldenRun

variable {σ : Type}

/-! ## Actions -/

@[simp] theorem perform_publish (event : Event) (s : Surroundings (Progress σ)) :
    (publish event).perform s = (.ok (), s.tell event) := rfl

/-- An event that is published unless all went well, and what is done then. -/
theorem perform_unless_publish {α : Type} (well : Bool) (event : Event)
    (next : Action (Progress σ) α) (s : Surroundings (Progress σ)) :
    (if well = true then next else do publish event; next).perform s =
      next.perform (s.tellUnless well event) := by
  cases well with
  | true => rfl
  | false =>
    rw [if_neg Bool.false_ne_true, Action.perform_bind]
    rfl

theorem perform_bind_ok {α β : Type} {action : Action σ α} {next : α → Action σ β}
    {s t : Surroundings σ} {a : α} (h : action.perform s = (.ok a, t)) :
    (action >>= next).perform s = (next a).perform t := by
  rw [Action.perform_bind, h]

theorem perform_bind_error {α β : Type} {action : Action σ α} {next : α → Action σ β}
    {s t : Surroundings σ} {failure : Failure} (h : action.perform s = (.error failure, t)) :
    (action >>= next).perform s = (.error failure, t) := by
  rw [Action.perform_bind, h]

theorem perform_tryDefect_ok {α : Type} {action : Action σ α} {s t : Surroundings σ} {a : α}
    (h : action.perform s = (.ok a, t)) : action.tryDefect.perform s = (.ok (.ok a), t) := by
  unfold Action.tryDefect
  rw [Action.perform_of, h]

/-- A failure with a defect taken as an answer. -/
def Failure.caught {α : Type} : Failure → Except Failure (Except Defect α)
  | .defect d => .ok (.error d)
  | failure => .error failure

theorem perform_tryDefect_error {α : Type} {action : Action σ α} {s t : Surroundings σ}
    {failure : Failure} (h : action.perform s = (.error failure, t)) :
    action.tryDefect.perform s = (failure.caught, t) := by
  unfold Action.tryDefect
  rw [Action.perform_of, h]
  cases failure <;> rfl

/-- The answer of a runner, the request being noted. -/
theorem perform_request (runner : Runner σ) (request : Request) (s : Surroundings (Progress σ)) :
    (runner.request request).perform s =
      ((runner request s.workspace s.state.runner).1,
        s.after request (runner request s.workspace s.state.runner).2.1
          (runner request s.workspace s.state.runner).2.2) := rfl

theorem perform_request_eq {runner : Runner σ} {request : Request} {s : Surroundings (Progress σ)}
    {answer : Except Failure Captured} {disk : Disk} {memory : σ}
    (h : runner request s.workspace s.state.runner = (answer, disk, memory)) :
    (runner.request request).perform s = (answer, s.after request disk memory) := by
  rw [perform_request, h]

namespace Expected

variable {w : Workspace} {policy : BlankPolicy} {path text : String}

theorem read_unreadable {error : DiskError} (hread : w.disk.readText w.cwd path = .error error) :
    Expected.read w policy path = .error (.disk error) := by
  unfold Expected.read
  rw [hread]

theorem read_refused {n : Nat} (hread : w.disk.readText w.cwd path = .ok text)
    (hparse : parse policy text = .error n) :
    Expected.read w policy path = .error (.defect (.invalidFixture path n blankLineReason)) := by
  unfold Expected.read
  rw [hread]
  simp only [hparse]

theorem read_ok {lines : List ExpectedLine} (hread : w.disk.readText w.cwd path = .ok text)
    (hparse : parse policy text = .ok lines) : Expected.read w policy path = .ok lines := by
  unfold Expected.read
  rw [hread]
  simp only [hparse]

end Expected

namespace Run

variable {run : Run σ} {s : Surroundings (Progress σ)} {disk : Disk} {memory : σ}

/-! ## Activation -/

theorem perform_activate_ok {m : Fixture}
    (hcopy : s.workspace.disk.copy s.workspace.cwd m.path run.activeFile = (.ok (), disk)) :
    (run.activate m).perform s =
      (.ok ⟨m.name, run.activeFile⟩,
        (s.onDisk disk).tell (.activated ⟨m.name, run.activeFile⟩)) := by
  unfold activate GoldenRun.activate
  simp only [Action.perform_bind, Action.perform_of]
  unfold activeFile at hcopy ⊢
  rw [hcopy]
  rfl

theorem perform_activate_error {m : Fixture} {error : DiskError}
    (hcopy : s.workspace.disk.copy s.workspace.cwd m.path run.activeFile = (.error error, disk)) :
    (run.activate m).perform s = (.error (.disk error), s.onDisk disk) := by
  unfold activate GoldenRun.activate
  simp only [Action.perform_bind, Action.perform_of]
  unfold activeFile at hcopy
  rw [hcopy]
  rfl

/-- The active configuration under the name of a manifest. -/
def active (run : Run σ) (name : String) : ActiveConfiguration := ⟨name, run.activeFile⟩

/-! ## Requests -/

theorem resolve_request_eq (run : Run σ) (target name : String) :
    (Invocation.resolve target (run.active name)).request run.toolSetup =
      run.resolveRequest target := rfl

theorem replay_request_eq (run : Run σ) (file name : String) :
    (Invocation.replay file name).request run.toolSetup = run.replayRequest file := rfl

theorem perform_resolve_ok {f : Fixture} {target name : String} {output : Captured}
    (hanswer : run.runner (run.resolveRequest target) s.workspace s.state.runner =
      (.ok output, disk, memory)) :
    (run.resolve f target (run.active name)).perform s =
      (.ok output, (s.after (run.resolveRequest target) disk memory).tellUnless
        output.succeeded (.resolveFailed f output)) := by
  unfold resolve Runner.invoke
  simp only [Action.perform_bind, resolve_request_eq, perform_request_eq hanswer,
    Action.perform_settle, Invocation.accept, mapError_ok]
  rw [perform_unless_publish, Action.perform_pure]

theorem perform_resolve_error {f : Fixture} {target name : String} {failure : Failure}
    (hanswer : run.runner (run.resolveRequest target) s.workspace s.state.runner =
      (.error failure, disk, memory)) :
    (run.resolve f target (run.active name)).perform s =
      (.error failure, s.after (run.resolveRequest target) disk memory) := by
  unfold resolve Runner.invoke
  simp only [Action.perform_bind, resolve_request_eq, perform_request_eq hanswer]

theorem perform_replay_ok {file name : String} {output : Captured}
    (hanswer : run.runner (run.replayRequest file) s.workspace s.state.runner =
      (.ok output, disk, memory)) (hsucceeded : output.succeeded = true) :
    (run.runner.invoke run.toolSetup (.replay file name)).perform s =
      (.ok output, s.after (run.replayRequest file) disk memory) := by
  unfold Runner.invoke
  rw [replay_request_eq, perform_bind_ok (perform_request_eq hanswer), Action.perform_settle]
  simp [Invocation.accept, hsucceeded]

theorem perform_replay_failed {file name : String} {output : Captured}
    (hanswer : run.runner (run.replayRequest file) s.workspace s.state.runner =
      (.ok output, disk, memory)) (hfailed : output.succeeded = false) :
    (run.runner.invoke run.toolSetup (.replay file name)).perform s =
      (.error (.defect (.replayFailed name output)),
        s.after (run.replayRequest file) disk memory) := by
  unfold Runner.invoke
  rw [replay_request_eq, perform_bind_ok (perform_request_eq hanswer), Action.perform_settle]
  simp [Invocation.accept, hfailed]

theorem perform_replay_error {file name : String} {failure : Failure}
    (hanswer : run.runner (run.replayRequest file) s.workspace s.state.runner =
      (.error failure, disk, memory)) :
    (run.runner.invoke run.toolSetup (.replay file name)).perform s =
      (.error failure, s.after (run.replayRequest file) disk memory) := by
  unfold Runner.invoke
  rw [replay_request_eq, perform_bind_error (perform_request_eq hanswer)]

/-- The request of a build is that of the step, as far as the command can be filled in. -/
theorem buildSetup_request_eq (run : Run σ) (f : Fixture) :
    run.buildSetup.request f.name (run.active run.config.generalManifest) =
      match renderCommand run.config.buildCommand (run.buildContext f) with
      | .error fault => .error (.template fault)
      | .ok [] => .error .emptyBuildCommand
      | .ok (command :: args) => .ok (run.buildRequest command args) := rfl

theorem buildSetup_request_ok {cwd : Location} {f : Fixture} {request : Request}
    (h : run.request? cwd (.build f) = some request) :
    run.buildSetup.request f.name (run.active run.config.generalManifest) = .ok request := by
  rw [buildSetup_request_eq]
  cases hrender : renderCommand run.config.buildCommand (run.buildContext f) with
  | error fault => simp [request?, hrender] at h
  | ok words =>
    cases words with
    | nil => simp [request?, hrender] at h
    | cons command args =>
      simp only [request?, hrender, Option.some.injEq] at h
      exact congrArg Except.ok h

/-- Without a request of the step there is none of the build either. -/
theorem buildSetup_request_error {cwd : Location} {f : Fixture}
    (h : run.request? cwd (.build f) = none) :
    ∃ failure, run.buildSetup.request f.name (run.active run.config.generalManifest) =
        .error failure ∧
      ∀ {s : Surroundings (Progress σ)} {o : Option Captured}, run.Fails (.build f) ⟨s, o⟩ failure
        ⟨s.hear (run.stepNotices (.build f)), o⟩ := by
  rw [buildSetup_request_eq]
  cases hrender : renderCommand run.config.buildCommand (run.buildContext f) with
  | error fault => exact ⟨_, rfl, .render hrender⟩
  | ok words =>
    cases words with
    | nil => exact ⟨_, rfl, .noCommand hrender⟩
    | cons command args => simp [request?, hrender] at h

theorem perform_hear (notices : List Template.Notice) (s : Surroundings (Progress σ)) :
    (Action.update (·.hear notices)).perform s = (.ok (), s.hear notices) := rfl

theorem perform_build {f : Fixture} {request : Request}
    (hrequest : run.request? s.workspace.cwd (.build f) = some request) :
    (run.runner.build run.buildSetup f.name (run.active run.config.generalManifest)).perform s =
      (run.runner.request request >>= fun output => pure (.of request output)).perform
        (s.hear (run.stepNotices (.build f))) := by
  unfold Runner.build
  rw [Action.perform_bind, perform_hear, buildSetup_request_ok hrequest]
  exact Action.perform_bind _ _ _

theorem perform_build_ok {f : Fixture} {request : Request} {output : Captured}
    (hrequest : run.request? s.workspace.cwd (.build f) = some request)
    (hanswer : run.runner request s.workspace s.state.runner = (.ok output, disk, memory)) :
    (run.runner.build run.buildSetup f.name (run.active run.config.generalManifest)).perform s =
      (.ok (.of request output),
        (s.hear (run.stepNotices (.build f))).after request disk memory) := by
  rw [perform_build hrequest, Action.perform_bind, perform_request_eq (by exact hanswer)]
  rfl

theorem perform_build_raised {f : Fixture} {request : Request} {failure : Failure}
    (hrequest : run.request? s.workspace.cwd (.build f) = some request)
    (hanswer : run.runner request s.workspace s.state.runner = (.error failure, disk, memory)) :
    (run.runner.build run.buildSetup f.name (run.active run.config.generalManifest)).perform s =
      (.error failure, (s.hear (run.stepNotices (.build f))).after request disk memory) := by
  rw [perform_build hrequest, Action.perform_bind, perform_request_eq (by exact hanswer)]

theorem perform_build_error {f : Fixture} {failure : Failure}
    (hrequest : run.buildSetup.request f.name (run.active run.config.generalManifest) =
      .error failure) :
    (run.runner.build run.buildSetup f.name (run.active run.config.generalManifest)).perform s =
      (.error failure, s.hear (run.stepNotices (.build f))) := by
  unfold Runner.build
  rw [Action.perform_bind, perform_hear, hrequest]
  exact Action.perform_bind _ _ _

/-! ## Judging -/

/-- What the judgement of an output comes to is what its step says. -/
theorem perform_judge (suite : Kind) (f : Fixture) (output : Captured) :
    ((run.judge f output).perform s = (.ok (), s) ∧
        run.Does (.judge suite f) ⟨s, some output⟩ ⟨s.tell (.passed suite f), none⟩) ∨
      ∃ failure, (run.judge f output).perform s = (.error failure, s) ∧
        run.Fails (.judge suite f) ⟨s, some output⟩ failure ⟨s, some output⟩ := by
  unfold judge
  simp only [Action.perform_bind, Action.perform_workspace, Action.perform_settle]
  cases hread : s.workspace.disk.readText s.workspace.cwd f.expectedPath with
  | error error =>
    rw [Expected.read_unreadable hread]
    exact .inr ⟨_, rfl, .unreadable hread⟩
  | ok text =>
    cases hparse : Expected.parse run.config.blankLines text with
    | error n =>
      rw [Expected.read_refused hread hparse]
      exact .inr ⟨_, rfl, .blank hread hparse⟩
    | ok lines =>
      rw [Expected.read_ok hread hparse]
      cases hmissing : Expected.firstMissing? output.text lines with
      | none =>
        refine .inl ⟨?_, .judge hread hparse (Expected.firstMissing?_eq_none_iff.mp hmissing)⟩
        simp only [hmissing]
        rfl
      | some missing =>
        refine .inr ⟨_, ?_, .mismatch hread hparse hmissing⟩
        simp only [hmissing]
        rfl

/-! ## Checks -/

/--
A check conducts steps from a moment on.

The steps include that the fixture passed is told, which the harness does after the check.
-/
def ChecksAt (run : Run σ) (suite : Kind) (f : Fixture) (steps : List Step)
    (check : Action (Progress σ) Unit) (c : Moment σ) : Prop :=
  (∃ t, check.perform c.toSurroundings = (.ok (), t) ∧
    run.Conducts steps c .completed ⟨t.tell (.passed suite f), none⟩) ∨
  ∃ failure step d, check.perform c.toSurroundings = (.error failure, d.toSurroundings) ∧
    run.Conducts steps c (.stopped step failure) d

variable {suite : Kind} {f : Fixture} {step : Step} {steps : List Step} {c d : Moment σ}
  {check rest : Action (Progress σ) Unit}

theorem ChecksAt.cons
    (hperform : check.perform c.toSurroundings = rest.perform d.toSurroundings)
    (hdoes : run.Does step c d) (hrest : run.ChecksAt suite f steps rest d) :
    run.ChecksAt suite f (step :: steps) check c := by
  rcases hrest with ⟨t, hrest, hsteps⟩ | ⟨failure, step', e, hrest, hsteps⟩
  · exact .inl ⟨t, hperform.trans hrest, .step hdoes hsteps⟩
  · exact .inr ⟨failure, step', e, hperform.trans hrest, .step hdoes hsteps⟩

theorem ChecksAt.stop {failure : Failure}
    (hperform : check.perform c.toSurroundings = (.error failure, d.toSurroundings))
    (hfails : run.Fails step c failure d) : run.ChecksAt suite f (step :: steps) check c :=
  .inr ⟨failure, step, d, hperform, .stop hfails⟩

theorem judge_checksAt (suite : Kind) (f : Fixture) (output : Captured)
    (s : Surroundings (Progress σ)) :
    run.ChecksAt suite f [.judge suite f] (run.judge f output) ⟨s, some output⟩ := by
  rcases perform_judge suite f output with ⟨hperform, hdoes⟩ | ⟨failure, hperform, hfails⟩
  · exact .inl ⟨s, hperform, .step hdoes .done⟩
  · exact .stop hperform hfails

/-- The tool resolves a target, and its output is judged. -/
theorem resolve_checksAt (suite : Kind) (f : Fixture) (target name : String) (c : Moment σ) :
    run.ChecksAt suite f [.resolve suite f target, .judge suite f]
      (run.resolve f target (run.active name) >>= run.judge f) c := by
  obtain ⟨s, o⟩ := c
  rcases hanswer : run.runner (run.resolveRequest target) s.workspace s.state.runner with
    ⟨answer, disk, memory⟩
  cases answer with
  | error failure =>
    exact .stop (perform_bind_error (perform_resolve_error hanswer))
      (.raised_of_silent rfl rfl hanswer)
  | ok output =>
    exact .cons (perform_bind_ok (perform_resolve_ok hanswer)) (.resolve hanswer)
      (judge_checksAt ..)

theorem checkBinary_checksAt (f : Fixture) (c : Moment σ) :
    run.ChecksAt .binary f (run.fixtureSteps .binary f)
      (run.checkBinary (run.active run.config.generalManifest) f) c := by
  obtain ⟨s, o⟩ := c
  unfold checkBinary fixtureSteps
  cases hrequest : run.request? s.workspace.cwd (.build f) with
  | none =>
    obtain ⟨failure, hsetup, hfails⟩ := buildSetup_request_error hrequest
    exact .stop (perform_bind_error (perform_build_error hsetup)) hfails
  | some request =>
    rcases hanswer : run.runner request s.workspace s.state.runner with ⟨answer, disk, memory⟩
    cases answer with
    | error failure =>
      exact .stop (perform_bind_error (perform_build_raised hrequest hanswer))
        (.raised hrequest hanswer)
    | ok output =>
      refine .cons ?_ (.build hrequest hanswer)
        (resolve_checksAt .binary f f.name run.config.generalManifest _)
      rw [perform_bind_ok (perform_build_ok hrequest hanswer)]
      exact perform_unless_publish ..

theorem checkManifest_checksAt (f : Fixture) (c : Moment σ) :
    run.ChecksAt .manifest f (run.fixtureSteps .manifest f) (run.checkManifest f) c := by
  obtain ⟨s, o⟩ := c
  unfold checkManifest fixtureSteps
  rcases hcopy : s.workspace.disk.copy s.workspace.cwd f.path run.activeFile with ⟨outcome, disk⟩
  cases outcome with
  | error error =>
    exact .stop (perform_bind_error (perform_activate_error hcopy)) (.activate hcopy)
  | ok =>
    exact .cons (perform_bind_ok (perform_activate_ok hcopy)) (.activate hcopy)
      (resolve_checksAt ..)

theorem checkTrace_checksAt (f : Fixture) (c : Moment σ) :
    run.ChecksAt .trace f (run.fixtureSteps .trace f) (run.checkTrace f) c := by
  obtain ⟨s, o⟩ := c
  unfold fixtureSteps
  have hcheck : (run.checkTrace f).perform s =
      (run.runner.invoke run.toolSetup (.replay (run.traceFile s.workspace.cwd f) f.name) >>=
        run.judge f).perform s := Action.perform_bind ..
  rcases hanswer : run.runner (run.replayRequest (run.traceFile s.workspace.cwd f)) s.workspace
    s.state.runner with ⟨answer, disk, memory⟩
  cases answer with
  | error failure =>
    exact .stop (hcheck.trans (perform_bind_error (perform_replay_error hanswer)))
      (.raised_of_silent rfl rfl hanswer)
  | ok output =>
    cases hsucceeded : output.succeeded with
    | true =>
      exact .cons (hcheck.trans (perform_bind_ok (perform_replay_ok hanswer hsucceeded)))
        (.replay hanswer hsucceeded) (judge_checksAt ..)
    | false =>
      exact .stop (hcheck.trans (perform_bind_error (perform_replay_failed hanswer hsucceeded)))
        (.replay hanswer hsucceeded)

/-! ## Suites -/

theorem Conducts.mem_of_stopped {failure : Failure}
    (h : run.Conducts steps c (.stopped step failure) d) : step ∈ steps := by
  obtain ⟨before, after, _, rfl, -, -⟩ := h.stopped_split
  simp

end Run

/-- What the end of the steps of a suite means for the suite. -/
def Conclusion.stop? : Conclusion → Except Failure (Option Stop)
  | .completed => .ok none
  | .stopped step (.defect d) => .ok (some ⟨step.place, d⟩)
  | .stopped _ failure => .error failure

/-- What the end of the steps of a run means for the run. -/
def Conclusion.verdict (count : Nat) : Conclusion → Except Failure Verdict
  | .completed => .ok (.passed count)
  | .stopped step (.defect d) => .ok (.aborted step.suite step.place d)
  | .stopped _ failure => .error failure

namespace Conclusion

variable {x : Conclusion} {count : Nat}

theorem verdict_eq_passed_iff {n : Nat} :
    x.verdict count = .ok (.passed n) ↔ x = .completed ∧ n = count := by
  cases x with
  | completed => simp [verdict, eq_comm]
  | stopped step failure => cases failure <;> simp [verdict]

theorem verdict_eq_aborted_iff {suite : Kind} {fixture : String} {defect : Defect} :
    x.verdict count = .ok (.aborted suite fixture defect) ↔
      ∃ step, x = .stopped step (.defect defect) ∧ step.suite = suite ∧ step.place = fixture := by
  constructor
  · intro h
    cases x with
    | completed => cases h
    | stopped step failure =>
      cases failure with
      | defect defect =>
        cases h
        exact ⟨step, rfl, rfl, rfl⟩
      | _ => cases h
  · rintro ⟨step, rfl, rfl, rfl⟩
    rfl

end Conclusion

namespace Run

variable {run : Run σ} {suite : Kind}

theorem checkAll_conducts {check : Fixture → Action (Progress σ) Unit}
    (hcheck : ∀ f c, run.ChecksAt suite f (run.fixtureSteps suite f) (check f) c)
    (fixtures : List Fixture) (c : Moment σ) :
    ∃ x d, run.Conducts (fixtures.flatMap (run.fixtureSteps suite)) c x d ∧
      (checkAll suite check fixtures).perform c.toSurroundings = (x.stop?, d.toSurroundings) := by
  induction fixtures generalizing c with
  | nil => exact ⟨.completed, c, .done, rfl⟩
  | cons f fixtures ih =>
    rw [List.flatMap_cons]
    unfold checkAll
    rcases hcheck f c with ⟨t, hperform, hsteps⟩ | ⟨failure, step, d, hperform, hsteps⟩
    · obtain ⟨x, d, hrest, hd⟩ := ih ⟨t.tell (.passed suite f), none⟩
      refine ⟨x, d, hsteps.append hrest, ?_⟩
      rw [perform_bind_ok (perform_tryDefect_ok hperform)]
      exact (perform_bind_ok (perform_publish ..)).trans hd
    · refine ⟨.stopped step failure, d, hsteps.append_stopped _, ?_⟩
      -- A defect is caught, and it is reported with the name of the fixture.
      have hplace := (place_of_mem_fixtureSteps hsteps.mem_of_stopped).2
      have hcaught := perform_tryDefect_error hperform
      cases failure with
      | defect defect =>
        rw [perform_bind_ok hcaught]
        simp only [Conclusion.stop?, hplace]
        rfl
      | _ => exact perform_bind_error hcaught

/-- The fixtures of a suite are checked once its beginning is told and it is prepared. -/
theorem perform_suite_ok {s t : Surroundings (Progress σ)}
    {check : Fixture → Action (Progress σ) Unit}
    (hprepare : (run.prepare suite).perform
      (s.tell (.suiteStarted suite (run.catalog.fixtures suite).length)) = (.ok check, t)) :
    (run.suite suite).perform s =
      (checkAll suite check (run.catalog.fixtures suite)).perform t := by
  unfold Run.suite
  rw [perform_bind_ok (perform_publish ..), perform_bind_ok (perform_tryDefect_ok hprepare)]

/-- A suite that cannot be prepared ends there. -/
theorem perform_suite_error {s t : Surroundings (Progress σ)} {failure : Failure}
    {step : Step} (hplace : step.place = beforeFixtures)
    (hprepare : (run.prepare suite).perform
      (s.tell (.suiteStarted suite (run.catalog.fixtures suite).length)) = (.error failure, t)) :
    (run.suite suite).perform s = ((Conclusion.stopped step failure).stop?, t) := by
  unfold Run.suite
  rw [perform_bind_ok (perform_publish ..)]
  have hcaught := perform_tryDefect_error hprepare
  cases failure with
  | defect defect =>
    rw [perform_bind_ok hcaught]
    simp only [Conclusion.stop?, hplace]
    rfl
  | _ => exact perform_bind_error hcaught

theorem suite_conducts_of_prepare {c d : Moment σ} {check : Fixture → Action (Progress σ) Unit}
    (hprepare : (run.prepare suite).perform
      (c.toSurroundings.tell (.suiteStarted suite (run.catalog.fixtures suite).length)) =
        (.ok check, d.toSurroundings))
    (hopening : run.Conducts (run.openingSteps suite) c .completed d)
    (hcheck : ∀ f c, run.ChecksAt suite f (run.fixtureSteps suite f) (check f) c) :
    ∃ x e, run.Conducts (run.suiteSteps suite) c x e ∧
      (run.suite suite).perform c.toSurroundings = (x.stop?, e.toSurroundings) := by
  obtain ⟨x, e, hsteps, he⟩ := checkAll_conducts hcheck (run.catalog.fixtures suite) d
  exact ⟨x, e, hopening.append hsteps, (perform_suite_ok hprepare).trans he⟩

theorem suite_conducts (run : Run σ) (suite : Kind) (c : Moment σ) :
    ∃ x d, run.Conducts (run.suiteSteps suite) c x d ∧
      (run.suite suite).perform c.toSurroundings = (x.stop?, d.toSurroundings) := by
  obtain ⟨s, o⟩ := c
  cases suite with
  | manifest =>
    exact suite_conducts_of_prepare (d := ⟨_, o⟩) rfl (.step .start .done) checkManifest_checksAt
  | trace =>
    exact suite_conducts_of_prepare (d := ⟨_, o⟩) rfl (.step .start .done) checkTrace_checksAt
  | binary =>
    cases hfound : run.catalog.manifests.find? (·.name = run.config.generalManifest) with
    | none =>
      have hgeneral : run.generalManifest =
          .error (.noGeneralManifest run.config.generalManifest) := by
        unfold generalManifest
        rw [hfound]
      refine ⟨_, ⟨_, o⟩, .step .start (.stop (.noGeneral hfound)), ?_⟩
      refine perform_suite_error rfl ?_
      unfold prepare
      rw [hgeneral]
      exact perform_bind_error rfl
    | some m =>
      have hgeneral : run.generalManifest = .ok m := by
        unfold generalManifest
        rw [hfound]
      have hname : m.name = run.config.generalManifest := by simpa using List.find?_some hfound
      have hprepare : ∀ t : Surroundings (Progress σ), (run.prepare .binary).perform t =
          (run.activate m >>= fun active => pure (run.checkBinary active)).perform t := by
        intro t
        unfold prepare
        rw [hgeneral]
        exact perform_bind_ok rfl
      rcases hcopy : s.workspace.disk.copy s.workspace.cwd m.path run.activeFile with
        ⟨outcome, disk⟩
      cases outcome with
      | error error =>
        refine ⟨_, ⟨_, o⟩, .step .start (.stop (.setUp hfound hcopy)), ?_⟩
        exact perform_suite_error rfl ((hprepare _).trans
          (perform_bind_error (perform_activate_error hcopy)))
      | ok =>
        -- The manifest was found by its name, so it is the one that the binaries are built with.
        have hactive : (⟨m.name, run.activeFile⟩ : ActiveConfiguration) =
            run.active run.config.generalManifest := by
          rw [hname]
          rfl
        refine suite_conducts_of_prepare (d := ⟨_, o⟩)
          ((hprepare _).trans (perform_bind_ok (perform_activate_ok hcopy)))
          (.step .start (.step (.setUp hfound hcopy) .done)) ?_
        rw [hactive]
        exact checkBinary_checksAt

theorem suites_conducts (run : Run σ) (suites : List Kind) (checked : Nat) (c : Moment σ) :
    ∃ x d, run.Conducts (suites.flatMap run.suiteSteps) c x d ∧
      (run.suites checked suites).perform c.toSurroundings =
        (x.verdict (checked + (suites.map fun suite => (run.catalog.fixtures suite).length).sum),
          d.toSurroundings) := by
  induction suites generalizing checked c with
  | nil => exact ⟨.completed, c, .done, rfl⟩
  | cons suite suites ih =>
    rw [List.flatMap_cons]
    unfold Run.suites
    obtain ⟨x, d, hsteps, hd⟩ := suite_conducts run suite c
    cases x with
    | completed =>
      obtain ⟨y, e, hrest, he⟩ := ih (checked + (run.catalog.fixtures suite).length) d
      refine ⟨y, e, hsteps.append hrest, ?_⟩
      rw [perform_bind_ok hd, List.map_cons, List.sum_cons, ← Nat.add_assoc]
      exact he
    | stopped step failure =>
      -- A suite that stops ends the run, and the step that failed belongs to it.
      have hsuite := suite_of_mem_suiteSteps hsteps.mem_of_stopped
      refine ⟨.stopped step failure, d, hsteps.append_stopped _, ?_⟩
      cases failure with
      | defect defect =>
        rw [perform_bind_ok hd]
        simp only [Conclusion.verdict, hsuite]
        rfl
      | _ => exact perform_bind_error hd

/-! ## Whole runs -/

variable {selection : Option (List Kind)} {s : Surroundings (Progress σ)}

/-- **A run conducts its plan.** -/
theorem verdict_conducts (run : Run σ) (selection : Option (List Kind))
    (s : Surroundings (Progress σ)) :
    ∃ x d, run.Conducts (run.plan selection) ⟨s, none⟩ x d ∧
      (run.verdict selection).perform s = (x.verdict (run.count selection), d.toSurroundings) := by
  have h := suites_conducts run (selected selection) 0 ⟨s, none⟩
  rw [Nat.zero_add] at h
  exact h

/-- The relation says exactly how a run ends. -/
theorem perform_verdict_iff {outcome : Except Failure Verdict} {t : Surroundings (Progress σ)} :
    (run.verdict selection).perform s = (outcome, t) ↔
      ∃ x d, run.Conducts (run.plan selection) ⟨s, none⟩ x d ∧
        outcome = x.verdict (run.count selection) ∧ t = d.toSurroundings := by
  obtain ⟨x, d, hsteps, hd⟩ := verdict_conducts run selection s
  constructor
  · intro h
    rw [hd] at h
    obtain ⟨rfl, rfl⟩ := Prod.mk.inj h
    exact ⟨x, d, hsteps, rfl, rfl⟩
  · rintro ⟨x', d', hsteps', rfl, rfl⟩
    obtain ⟨rfl, rfl⟩ := hsteps.unique hsteps'
    exact hd

end Run

end GoldenRun
