import GoldenRun.Proofs.Expected
import GoldenRun.Proofs.Run.Plan

/-!
# How steps go

`Run.Does` says when a step succeeds and what it leaves, `Run.Fails` says how a step can fail, and
`Run.Conducts` puts steps together: they are done in order, up to the first that fails.

The relations speak of the operations on the disk, of the answers of the runner and of the lines of
the expected output only; they do not mention the actions of the harness.  A step can go in one way
only (`Conducts.unique`), so a run is determined by its plan and its runner.
-/

namespace GoldenRun

variable {σ : Type}

/-! ## Changes of the surroundings -/

namespace Surroundings

/-- With an event at the end of the log. -/
def tell (s : Surroundings (Progress σ)) (event : Event) : Surroundings (Progress σ) :=
  { s with state := s.state.note (.published event) }

/-- With an event at the end of the log, unless all went well. -/
def tellUnless (s : Surroundings (Progress σ)) (well : Bool) (event : Event) :
    Surroundings (Progress σ) :=
  if well then s else s.tell event

/-- With notices at the end of the log. -/
def hear (s : Surroundings (Progress σ)) (notices : List Template.Notice) :
    Surroundings (Progress σ) :=
  { s with state := s.state.hear notices }

/-- With another disk. -/
def onDisk (s : Surroundings (Progress σ)) (disk : Disk) : Surroundings (Progress σ) :=
  { s with workspace := { s.workspace with disk := disk } }

/-- With a request at the end of the log, and with the disk and the memory that its answer left. -/
def after (s : Surroundings (Progress σ)) (request : Request) (disk : Disk) (memory : σ) :
    Surroundings (Progress σ) :=
  ⟨{ s.workspace with disk := disk }, { s.state.note (.requested request) with runner := memory }⟩

@[simp] theorem workspace_tell (s : Surroundings (Progress σ)) (event : Event) :
    (s.tell event).workspace = s.workspace := rfl

@[simp] theorem runner_tell (s : Surroundings (Progress σ)) (event : Event) :
    (s.tell event).state.runner = s.state.runner := rfl

@[simp] theorem workspace_tellUnless (s : Surroundings (Progress σ)) (well : Bool)
    (event : Event) : (s.tellUnless well event).workspace = s.workspace := by
  cases well <;> rfl

@[simp] theorem runner_tellUnless (s : Surroundings (Progress σ)) (well : Bool)
    (event : Event) : (s.tellUnless well event).state.runner = s.state.runner := by
  cases well <;> rfl

@[simp] theorem workspace_hear (s : Surroundings (Progress σ)) (notices : List Template.Notice) :
    (s.hear notices).workspace = s.workspace := rfl

@[simp] theorem runner_hear (s : Surroundings (Progress σ)) (notices : List Template.Notice) :
    (s.hear notices).state.runner = s.state.runner := rfl

/-- To hear nothing changes nothing. -/
@[simp] theorem hear_nil (s : Surroundings (Progress σ)) : s.hear [] = s := by
  obtain ⟨w, p⟩ := s
  simp [hear, Progress.hear]

@[simp] theorem workspace_onDisk (s : Surroundings (Progress σ)) (disk : Disk) :
    (s.onDisk disk).workspace = { s.workspace with disk := disk } := rfl

@[simp] theorem state_onDisk (s : Surroundings (Progress σ)) (disk : Disk) :
    (s.onDisk disk).state = s.state := rfl

@[simp] theorem workspace_after (s : Surroundings (Progress σ)) (request : Request) (disk : Disk)
    (memory : σ) : (s.after request disk memory).workspace = { s.workspace with disk := disk } :=
  rfl

@[simp] theorem runner_after (s : Surroundings (Progress σ)) (request : Request) (disk : Disk)
    (memory : σ) : (s.after request disk memory).state.runner = memory := rfl

end Surroundings

/-- A point between two steps: the surroundings, and the output of the tool that is still to be
judged. -/
structure Moment (σ : Type) extends Surroundings (Progress σ) where
  /-- The output. -/
  output : Option Captured

/-- How steps end. -/
inductive Conclusion where
  /-- All of them are done. -/
  | completed
  /-- A step failed. -/
  | stopped (step : Step) (failure : Failure)

namespace Run

/-! ## One step -/

/-- `run.Does step c d`: at `c` the step succeeds, and it leaves `d`. -/
inductive Does (run : Run σ) : Step → Moment σ → Moment σ → Prop where
  | start {suite : Kind} {fixtures : Nat} {s : Surroundings (Progress σ)} {o : Option Captured} :
    run.Does (.start suite fixtures) ⟨s, o⟩ ⟨s.tell (.suiteStarted suite fixtures), o⟩
  /-- The general manifest is in the catalog, and it is copied. -/
  | setUp {m : Fixture} {s : Surroundings (Progress σ)} {o : Option Captured} {disk : Disk}
    (hfound : run.catalog.manifests.find? (·.name = run.config.generalManifest) = some m)
    (hcopy : s.workspace.disk.copy s.workspace.cwd m.path run.activeFile = (.ok (), disk)) :
    run.Does .setUp ⟨s, o⟩ ⟨(s.onDisk disk).tell (.activated ⟨m.name, run.activeFile⟩), o⟩
  /-- The manifest is copied. -/
  | activate {m : Fixture} {s : Surroundings (Progress σ)} {o : Option Captured} {disk : Disk}
    (hcopy : s.workspace.disk.copy s.workspace.cwd m.path run.activeFile = (.ok (), disk)) :
    run.Does (.activate m) ⟨s, o⟩
      ⟨(s.onDisk disk).tell (.activated ⟨m.name, run.activeFile⟩), o⟩
  /-- The command is filled in and the runner answers; the answer need not be a success. -/
  | build {f : Fixture} {s : Surroundings (Progress σ)} {o : Option Captured} {request : Request}
    {output : Captured} {disk : Disk} {memory : σ}
    (hrequest : run.request? s.workspace.cwd (.build f) = some request)
    (hanswer : run.runner request s.workspace s.state.runner = (.ok output, disk, memory)) :
    run.Does (.build f) ⟨s, o⟩
      ⟨((s.hear (run.stepNotices (.build f))).after request disk memory).tellUnless
        output.succeeded (.buildFailed f (.of request output)), o⟩
  /-- The runner answers; the answer need not be a success. -/
  | resolve {suite : Kind} {f : Fixture} {target : String} {s : Surroundings (Progress σ)}
    {o : Option Captured} {output : Captured} {disk : Disk} {memory : σ}
    (hanswer : run.runner (run.resolveRequest target) s.workspace s.state.runner =
      (.ok output, disk, memory)) :
    run.Does (.resolve suite f target) ⟨s, o⟩
      ⟨(s.after (run.resolveRequest target) disk memory).tellUnless
        output.succeeded (.resolveFailed f output), some output⟩
  /-- The runner answers with a success. -/
  | replay {f : Fixture} {s : Surroundings (Progress σ)} {o : Option Captured}
    {output : Captured} {disk : Disk} {memory : σ}
    (hanswer : run.runner (run.replayRequest (run.traceFile s.workspace.cwd f)) s.workspace
      s.state.runner = (.ok output, disk, memory))
    (hsucceeded : output.succeeded = true) :
    run.Does (.replay f) ⟨s, o⟩
      ⟨s.after (run.replayRequest (run.traceFile s.workspace.cwd f)) disk memory, some output⟩
  /-- The expected output can be read now, and each of its lines stands in the output. -/
  | judge {suite : Kind} {f : Fixture} {s : Surroundings (Progress σ)} {output : Captured}
    {text : String} {lines : List ExpectedLine}
    (hread : s.workspace.disk.readText s.workspace.cwd f.expectedPath = .ok text)
    (hparse : Expected.parse run.config.blankLines text = .ok lines)
    (hlines : ∀ line ∈ lines, line.text.toList <:+: output.text.toList) :
    run.Does (.judge suite f) ⟨s, some output⟩ ⟨s.tell (.passed suite f), none⟩

/-- `run.Fails step c failure d`: at `c` the step fails, and it leaves `d`. -/
inductive Fails (run : Run σ) : Step → Moment σ → Failure → Moment σ → Prop where
  | noGeneral {c : Moment σ}
    (hnone : run.catalog.manifests.find? (·.name = run.config.generalManifest) = none) :
    run.Fails .setUp c (.defect (.noGeneralManifest run.config.generalManifest)) c
  | setUp {m : Fixture} {s : Surroundings (Progress σ)} {o : Option Captured} {error : DiskError}
    {disk : Disk}
    (hfound : run.catalog.manifests.find? (·.name = run.config.generalManifest) = some m)
    (hcopy : s.workspace.disk.copy s.workspace.cwd m.path run.activeFile = (.error error, disk)) :
    run.Fails .setUp ⟨s, o⟩ (.disk error) ⟨s.onDisk disk, o⟩
  | activate {m : Fixture} {s : Surroundings (Progress σ)} {o : Option Captured}
    {error : DiskError} {disk : Disk}
    (hcopy : s.workspace.disk.copy s.workspace.cwd m.path run.activeFile = (.error error, disk)) :
    run.Fails (.activate m) ⟨s, o⟩ (.disk error) ⟨s.onDisk disk, o⟩
  | render {f : Fixture} {s : Surroundings (Progress σ)} {o : Option Captured}
    {fault : Template.Fault}
    (hrender : renderCommand run.config.buildCommand (run.buildContext f) = .error fault) :
    run.Fails (.build f) ⟨s, o⟩ (.template fault) ⟨s.hear (run.stepNotices (.build f)), o⟩
  | noCommand {f : Fixture} {s : Surroundings (Progress σ)} {o : Option Captured}
    (hrender : renderCommand run.config.buildCommand (run.buildContext f) = .ok []) :
    run.Fails (.build f) ⟨s, o⟩ .emptyBuildCommand ⟨s.hear (run.stepNotices (.build f)), o⟩
  /-- The runner gives up. -/
  | raised {step : Step} {s : Surroundings (Progress σ)} {o : Option Captured}
    {request : Request} {failure : Failure} {disk : Disk} {memory : σ}
    (hrequest : run.request? s.workspace.cwd step = some request)
    (hanswer : run.runner request s.workspace s.state.runner = (.error failure, disk, memory)) :
    run.Fails step ⟨s, o⟩ failure ⟨(s.hear (run.stepNotices step)).after request disk memory, o⟩
  /-- The runner answers, but not with a success. -/
  | replay {f : Fixture} {s : Surroundings (Progress σ)} {o : Option Captured}
    {output : Captured} {disk : Disk} {memory : σ}
    (hanswer : run.runner (run.replayRequest (run.traceFile s.workspace.cwd f)) s.workspace
      s.state.runner = (.ok output, disk, memory))
    (hfailed : output.succeeded = false) :
    run.Fails (.replay f) ⟨s, o⟩ (.defect (.replayFailed f.name output))
      ⟨s.after (run.replayRequest (run.traceFile s.workspace.cwd f)) disk memory, o⟩
  | unreadable {suite : Kind} {f : Fixture} {s : Surroundings (Progress σ)} {output : Captured}
    {error : DiskError}
    (hread : s.workspace.disk.readText s.workspace.cwd f.expectedPath = .error error) :
    run.Fails (.judge suite f) ⟨s, some output⟩ (.disk error) ⟨s, some output⟩
  | blank {suite : Kind} {f : Fixture} {s : Surroundings (Progress σ)} {output : Captured}
    {text : String} {n : Nat}
    (hread : s.workspace.disk.readText s.workspace.cwd f.expectedPath = .ok text)
    (hparse : Expected.parse run.config.blankLines text = .error n) :
    run.Fails (.judge suite f) ⟨s, some output⟩
      (.defect (.invalidFixture f.expectedPath n blankLineReason)) ⟨s, some output⟩
  | mismatch {suite : Kind} {f : Fixture} {s : Surroundings (Progress σ)} {output : Captured}
    {text : String} {lines : List ExpectedLine} {missing : ExpectedLine}
    (hread : s.workspace.disk.readText s.workspace.cwd f.expectedPath = .ok text)
    (hparse : Expected.parse run.config.blankLines text = .ok lines)
    (hmissing : Expected.firstMissing? output.text lines = some missing) :
    run.Fails (.judge suite f) ⟨s, some output⟩ (.defect (.mismatch f missing output))
      ⟨s, some output⟩

/-- The runner gives up at a step that tells nothing before its request. -/
theorem Fails.raised_of_silent {run : Run σ} {step : Step} {s : Surroundings (Progress σ)}
    {o : Option Captured} {request : Request} {failure : Failure} {disk : Disk} {memory : σ}
    (hsilent : run.stepNotices step = [])
    (hrequest : run.request? s.workspace.cwd step = some request)
    (hanswer : run.runner request s.workspace s.state.runner = (.error failure, disk, memory)) :
    run.Fails step ⟨s, o⟩ failure ⟨s.after request disk memory, o⟩ := by
  have hraised := Fails.raised (o := o) hrequest hanswer
  rwa [hsilent, Surroundings.hear_nil] at hraised

/-! ## Steps in order -/

/-- `run.Conducts steps c x d`: from `c` the steps are done in order, up to the first that
fails, and this leaves `d`. -/
inductive Conducts (run : Run σ) : List Step → Moment σ → Conclusion → Moment σ → Prop where
  | done {c : Moment σ} : run.Conducts [] c .completed c
  | step {step : Step} {steps : List Step} {c d e : Moment σ} {x : Conclusion}
    (hdoes : run.Does step c d) (hrest : run.Conducts steps d x e) :
    run.Conducts (step :: steps) c x e
  | stop {step : Step} {steps : List Step} {c d : Moment σ} {failure : Failure}
    (hfails : run.Fails step c failure d) :
    run.Conducts (step :: steps) c (.stopped step failure) d

/-! ## A step goes in one way only -/

variable {run : Run σ} {step : Step} {c d d' : Moment σ}

theorem Does.unique (h : run.Does step c d) (h' : run.Does step c d') : d = d' := by
  cases h <;> cases h' <;> simp_all

theorem Fails.unique {failure failure' : Failure} (h : run.Fails step c failure d)
    (h' : run.Fails step c failure' d') : failure = failure' ∧ d = d' := by
  cases h <;> cases h' <;> simp_all [request?]

/-- A step that succeeds does not fail. -/
theorem Does.not_fails {failure : Failure} (h : run.Does step c d)
    (h' : run.Fails step c failure d') : False := by
  cases h with
  | start => cases h' with | raised hrequest _ => simp [request?] at hrequest
  | setUp hfound hcopy => cases h' <;> simp_all [request?]
  | activate hcopy => cases h' <;> simp_all [request?]
  | build hrequest hanswer => cases h' <;> simp_all [request?]
  | resolve hanswer => cases h' with | raised hrequest hanswer' => simp_all [request?]
  | replay hanswer hsucceeded => cases h' <;> simp_all [request?]
  | judge hread hparse hlines =>
    cases h' with
    | raised hrequest _ => simp [request?] at hrequest
    | unreadable hread' => simp_all
    | blank hread' hparse' => simp_all
    | mismatch hread' hparse' hmissing =>
      -- The same lines were read, and none of them is missing.
      rw [hread] at hread'
      cases hread'
      rw [hparse] at hparse'
      cases hparse'
      rw [Expected.firstMissing?_eq_none_iff.mpr hlines] at hmissing
      cases hmissing

theorem Conducts.unique {steps : List Step} {x x' : Conclusion} (h : run.Conducts steps c x d)
    (h' : run.Conducts steps c x' d') : x = x' ∧ d = d' := by
  induction h with
  | done =>
    cases h'
    exact ⟨rfl, rfl⟩
  | step hdoes _ ih =>
    cases h' with
    | step hdoes' hrest' =>
      -- Both go on from the same moment.
      rw [← hdoes.unique hdoes'] at hrest'
      exact ih hrest'
    | stop hfails' => exact (hdoes.not_fails hfails').elim
  | stop hfails =>
    cases h' with
    | step hdoes' _ => exact (hdoes'.not_fails hfails).elim
    | stop hfails' =>
      obtain ⟨rfl, rfl⟩ := hfails.unique hfails'
      exact ⟨rfl, rfl⟩

/-! ## Steps one behind the other -/

theorem Conducts.append {steps more : List Step} {x : Conclusion} {e : Moment σ}
    (h : run.Conducts steps c .completed d) (hmore : run.Conducts more d x e) :
    run.Conducts (steps ++ more) c x e := by
  generalize hx : Conclusion.completed = x₀ at h
  induction h with
  | done => exact hmore
  | step hdoes _ ih => exact .step hdoes (ih hmore hx)
  | stop _ => cases hx

/-- After a step that failed nothing is done. -/
theorem Conducts.append_stopped {steps : List Step} (more : List Step) {failure : Failure}
    (h : run.Conducts steps c (.stopped step failure) d) :
    run.Conducts (steps ++ more) c (.stopped step failure) d := by
  generalize hx : Conclusion.stopped step failure = x at h
  induction h with
  | done => cases hx
  | step hdoes _ ih => exact .step hdoes (ih hx)
  | stop hfails => exact .stop hfails

theorem Conducts.split {steps more : List Step} {e : Moment σ}
    (h : run.Conducts (steps ++ more) c .completed e) :
    ∃ d, run.Conducts steps c .completed d ∧ run.Conducts more d .completed e := by
  induction steps generalizing c with
  | nil => exact ⟨c, .done, h⟩
  | cons step steps ih =>
    cases h with
    | step hdoes hrest =>
      obtain ⟨d, hsteps, hmore⟩ := ih hrest
      exact ⟨d, .step hdoes hsteps, hmore⟩

/-- Each of the steps that are done succeeded. -/
theorem Conducts.does_of_mem {steps : List Step} (h : run.Conducts steps c .completed d)
    (hmem : step ∈ steps) : ∃ c' d', run.Does step c' d' := by
  obtain ⟨before, after, rfl⟩ := List.append_of_mem hmem
  obtain ⟨c', -, hrest⟩ := h.split
  cases hrest with
  | step hdoes _ => exact ⟨_, _, hdoes⟩

/-- The steps before the one that failed are done. -/
theorem Conducts.stopped_split {steps : List Step} {failure : Failure} {e : Moment σ}
    (h : run.Conducts steps c (.stopped step failure) e) :
    ∃ before after d, steps = before ++ step :: after ∧ run.Conducts before c .completed d ∧
      run.Fails step d failure e := by
  generalize hx : Conclusion.stopped step failure = x at h
  induction h with
  | done => cases hx
  | step hdoes _ ih =>
    obtain ⟨before, after, d, rfl, hbefore, hfails⟩ := ih hx
    exact ⟨_ :: before, after, d, rfl, .step hdoes hbefore, hfails⟩
  | stop hfails =>
    obtain ⟨rfl, rfl⟩ := Conclusion.stopped.inj hx
    exact ⟨[], _, _, rfl, .done, hfails⟩

end Run

end GoldenRun
