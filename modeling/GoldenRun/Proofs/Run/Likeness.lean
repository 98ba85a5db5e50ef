import GoldenRun.Proofs.Run.Script

/-!
# Two runs side by side

A `Likeness` says in what two runs with the same plan may differ: in their disks, in what their
runners remember, in their logs, and in the outputs that they are answered.  Its laws say that the
harness cannot see such a difference, and that it does not grow by what the harness does.

* `Likeness.does`, `Likeness.fails`: a step goes alike in moments that are alike
* `Likeness.conducts`: and so do steps in order
* `Likeness.suites`: two runs end alike, and leave surroundings that are alike
* `perform_suites_eq`: a run does not look at the log that it begins with

What a runner may answer differently depends on what it is asked for, its `Purpose`.
-/

namespace GoldenRun

variable {σ τ : Type}

/-! ## Purposes -/

/-- What a request is for. -/
inductive Purpose where
  /-- To build a binary. -/
  | build
  /-- To have the tool resolve a target. -/
  | resolve
  /-- To have the tool replay a trace. -/
  | replay
  deriving DecidableEq, Repr

/-- What a request is for.  A build is the only request that brings no environment, and the first
argument tells the tool what to do. -/
def Request.purpose (request : Request) : Purpose :=
  match request.env, request.args with
  | none, _ => .build
  | some _, "replay" :: _ => .replay
  | some _, _ => .resolve

namespace Run

variable {run : Run σ}

theorem purpose_of_build {cwd : Location} {f : Fixture} {request : Request}
    (h : run.request? cwd (.build f) = some request) : request.purpose = .build := by
  simp only [request?] at h
  split at h
  · obtain rfl := Option.some.inj h
    rfl
  · cases h

/-- Only the replay of a trace asks for a replay. -/
theorem eq_replay_of_purpose {step : Step} {cwd : Location} {request : Request}
    (h : run.request? cwd step = some request) (hpurpose : request.purpose = .replay) :
    ∃ f, step = .replay f := by
  cases step with
  | build f => cases (purpose_of_build h).symm.trans hpurpose
  | resolve suite f target =>
    obtain rfl := Option.some.inj h
    cases hpurpose
  | replay f => exact ⟨f, rfl⟩
  | _ => cases h

/-- The run with another runner. -/
def withRunner (run : Run σ) (runner : Runner τ) : Run τ where
  catalog := run.catalog
  config := run.config
  tool := run.tool
  env := run.env
  runner := runner

end Run

/-! ## Likenesses -/

/-- Two answers: the same failure, or outputs that are related. -/
inductive AnswersAlike (outputs : Captured → Captured → Prop) :
    Except Failure Captured → Except Failure Captured → Prop where
  | error (failure : Failure) : AnswersAlike outputs (.error failure) (.error failure)
  | ok {output output' : Captured} (h : outputs output output') :
    AnswersAlike outputs (.ok output) (.ok output')

/-- In what two runs with the same plan may differ. -/
structure Likeness (σ τ : Type) where
  /-- Their disks. -/
  disk : Disk → Disk → Prop
  /-- What their runners remember. -/
  memory : σ → τ → Prop
  /-- Their logs. -/
  log : List Happening → List Happening → Prop
  /-- The outputs that they are answered to the same request. -/
  output : Purpose → Captured → Captured → Prop
  copy : ∀ {d d' : Disk}, disk d d' → ∀ cwd source target,
    (d'.copy cwd source target).1 = (d.copy cwd source target).1 ∧
      disk (d.copy cwd source target).2 (d'.copy cwd source target).2
  readText : ∀ {d d' : Disk}, disk d d' → ∀ cwd path, d'.readText cwd path = d.readText cwd path
  /-- Replays have the same output. -/
  replay : ∀ {o o' : Captured}, output .replay o o' → o' = o
  /-- Resolutions have outputs with the same text. -/
  text : ∀ {o o' : Captured}, output .resolve o o' → o'.text = o.text
  refl : ∀ o, output .resolve o o
  append : ∀ {l l' : List Happening}, log l l' → ∀ more, log (l ++ more) (l' ++ more)
  /-- A build may succeed in one run only. -/
  buildFailed : ∀ {l l' : List Happening} {o o' : Captured}, log l l' → output .build o o' →
    ∀ f request,
      log (l ++ Run.eventUnless o.succeeded (.buildFailed f (.of request o)))
        (l' ++ Run.eventUnless o'.succeeded (.buildFailed f (.of request o')))
  /-- So may a resolution. -/
  resolveFailed : ∀ {l l' : List Happening} {o o' : Captured}, log l l' → output .resolve o o' →
    ∀ f, log (l ++ Run.eventUnless o.succeeded (.resolveFailed f o))
      (l' ++ Run.eventUnless o'.succeeded (.resolveFailed f o'))

namespace Likeness

/-- Two runners that answer alike and leave alike what is alike. -/
def Runners (alike : Likeness σ τ) (runner : Runner σ) (runner' : Runner τ) : Prop :=
  ∀ request w w' memory memory', w'.cwd = w.cwd → w'.env = w.env → alike.disk w.disk w'.disk →
    alike.memory memory memory' →
      AnswersAlike (alike.output request.purpose) (runner request w memory).1
          (runner' request w' memory').1 ∧
        alike.disk (runner request w memory).2.1 (runner' request w' memory').2.1 ∧
        alike.memory (runner request w memory).2.2 (runner' request w' memory').2.2

/-- Surroundings that are alike. -/
structure Around (alike : Likeness σ τ) (s : Surroundings (Progress σ))
    (s' : Surroundings (Progress τ)) : Prop where
  cwd : s'.workspace.cwd = s.workspace.cwd
  env : s'.workspace.env = s.workspace.env
  disk : alike.disk s.workspace.disk s'.workspace.disk
  memory : alike.memory s.state.runner s'.state.runner
  log : alike.log s.state.log s'.state.log

/-- Moments that are alike: the outputs that are still to be judged have the same text. -/
structure Moments (alike : Likeness σ τ) (c : Moment σ) (c' : Moment τ) : Prop where
  around : alike.Around c.toSurroundings c'.toSurroundings
  output : Option.Rel (alike.output .resolve) c.output c'.output

/-- Failures that are alike: a mismatch is that of its output. -/
inductive Failures (alike : Likeness σ τ) : Failure → Failure → Prop where
  | same (failure : Failure) : Failures alike failure failure
  | mismatch {f : Fixture} {missing : ExpectedLine} {output output' : Captured}
    (h : alike.output .resolve output output') :
    Failures alike (.defect (.mismatch f missing output)) (.defect (.mismatch f missing output'))

/-- Steps that end alike. -/
inductive Conclusions (alike : Likeness σ τ) : Conclusion → Conclusion → Prop where
  | completed : Conclusions alike .completed .completed
  | stopped {step : Step} {failure failure' : Failure} (h : alike.Failures failure failure') :
    Conclusions alike (.stopped step failure) (.stopped step failure')

/-- Runs that end alike. -/
inductive Outcomes (alike : Likeness σ τ) :
    Except Failure Verdict → Except Failure Verdict → Prop where
  | same (outcome : Except Failure Verdict) : Outcomes alike outcome outcome
  | mismatch {suite : Kind} {fixture : String} {f : Fixture} {missing : ExpectedLine}
    {output output' : Captured} (h : alike.output .resolve output output') :
    Outcomes alike (.ok (.aborted suite fixture (.mismatch f missing output)))
      (.ok (.aborted suite fixture (.mismatch f missing output')))

variable {alike : Likeness σ τ} {run : Run σ} {runner' : Runner τ}

theorem Conclusions.outcomes {x x' : Conclusion} (h : alike.Conclusions x x') (count : Nat) :
    alike.Outcomes (x.verdict count) (x'.verdict count) := by
  cases h with
  | completed => exact .same _
  | stopped h =>
    cases h with
    | same failure => exact .same _
    | mismatch h => exact .mismatch h

/-- Where the tool writes the same, runs that end alike end in the same way. -/
theorem Outcomes.eq {outcome outcome' : Except Failure Verdict}
    (hsame : ∀ o o', alike.output .resolve o o' → o' = o) (h : alike.Outcomes outcome outcome') :
    outcome' = outcome := by
  cases h with
  | same => rfl
  | mismatch h => rw [hsame _ _ h]

/-! ## Changes of the surroundings -/

namespace Around

variable {s : Surroundings (Progress σ)} {s' : Surroundings (Progress τ)}

theorem tell (h : alike.Around s s') (event : Event) : alike.Around (s.tell event) (s'.tell event) :=
  ⟨h.cwd, h.env, h.disk, h.memory, alike.append h.log _⟩

theorem hear (h : alike.Around s s') (notices : List Template.Notice) :
    alike.Around (s.hear notices) (s'.hear notices) :=
  ⟨h.cwd, h.env, h.disk, h.memory, alike.append h.log _⟩

theorem after {disk disk' : Disk} {memory : σ} {memory' : τ} (h : alike.Around s s')
    (hdisk : alike.disk disk disk') (hmemory : alike.memory memory memory') (request : Request) :
    alike.Around (s.after request disk memory) (s'.after request disk' memory') :=
  ⟨h.cwd, h.env, hdisk, hmemory, alike.append h.log _⟩

/-- Two events in the place of each other, each told unless all went well there. -/
theorem tellUnless {well well' : Bool} {event event' : Event} (h : alike.Around s s')
    (hlog : alike.log (s.state.log ++ Run.eventUnless well event)
      (s'.state.log ++ Run.eventUnless well' event')) :
    alike.Around (s.tellUnless well event) (s'.tellUnless well' event') := by
  refine ⟨?_, ?_, ?_, ?_, ?_⟩
  · simpa using h.cwd
  · simpa using h.env
  · simpa using h.disk
  · simpa using h.memory
  · simpa using hlog

theorem copied {source target : String} {outcome : Except DiskError Unit} {disk : Disk}
    (h : alike.Around s s')
    (hcopy : s.workspace.disk.copy s.workspace.cwd source target = (outcome, disk)) :
    ∃ disk', s'.workspace.disk.copy s'.workspace.cwd source target = (outcome, disk') ∧
      alike.Around (s.onDisk disk) (s'.onDisk disk') := by
  obtain ⟨houtcome, hdisk⟩ := alike.copy h.disk s.workspace.cwd source target
  rw [hcopy] at houtcome hdisk
  refine ⟨(s'.workspace.disk.copy s.workspace.cwd source target).2, ?_, ?_⟩
  · rw [h.cwd]
    exact Prod.ext houtcome rfl
  · exact ⟨h.cwd, h.env, hdisk, h.memory, h.log⟩

/-- Surroundings with the same disk are in the same workspace. -/
theorem workspace_eq (h : alike.Around s s') (hdisk : s'.workspace.disk = s.workspace.disk) :
    s'.workspace = s.workspace := by
  obtain ⟨⟨disk, cwd, env⟩, p⟩ := s
  obtain ⟨⟨disk', cwd', env'⟩, p'⟩ := s'
  obtain rfl : disk' = disk := hdisk
  obtain rfl : cwd' = cwd := h.cwd
  obtain rfl : env' = env := h.env
  rfl

theorem readText (h : alike.Around s s') (path : String) :
    s'.workspace.disk.readText s'.workspace.cwd path =
      s.workspace.disk.readText s.workspace.cwd path := by
  rw [h.cwd]
  exact alike.readText h.disk s.workspace.cwd path

/-- The runner fails in both runs. -/
theorem failed {request : Request} {failure : Failure} {disk : Disk} {memory : σ}
    (h : alike.Around s s') (hrunners : alike.Runners run.runner runner')
    (hanswer : run.runner request s.workspace s.state.runner = (.error failure, disk, memory)) :
    ∃ disk' memory',
      runner' request s'.workspace s'.state.runner = (.error failure, disk', memory') ∧
      alike.disk disk disk' ∧ alike.memory memory memory' := by
  obtain ⟨hanswers, hdisk, hmemory⟩ :=
    hrunners request _ _ _ _ h.cwd h.env h.disk h.memory
  rw [hanswer] at hanswers hdisk hmemory
  rcases hanswer' : runner' request s'.workspace s'.state.runner with ⟨answer', disk', memory'⟩
  rw [hanswer'] at hanswers hdisk hmemory
  cases hanswers
  exact ⟨disk', memory', rfl, hdisk, hmemory⟩

/-- The runner answers in both runs. -/
theorem answered {request : Request} {output : Captured} {disk : Disk} {memory : σ}
    (h : alike.Around s s') (hrunners : alike.Runners run.runner runner')
    (hanswer : run.runner request s.workspace s.state.runner = (.ok output, disk, memory)) :
    ∃ output' disk' memory',
      runner' request s'.workspace s'.state.runner = (.ok output', disk', memory') ∧
      alike.output request.purpose output output' ∧ alike.disk disk disk' ∧
      alike.memory memory memory' := by
  obtain ⟨hanswers, hdisk, hmemory⟩ :=
    hrunners request _ _ _ _ h.cwd h.env h.disk h.memory
  rw [hanswer] at hanswers hdisk hmemory
  rcases hanswer' : runner' request s'.workspace s'.state.runner with ⟨answer', disk', memory'⟩
  rw [hanswer'] at hanswers hdisk hmemory
  cases hanswers with
  | ok houtput => exact ⟨_, disk', memory', rfl, houtput, hdisk, hmemory⟩

end Around

/-! ## Steps -/

variable {step : Step} {steps : List Step} {c d : Moment σ} {c' : Moment τ}

/-- A step that succeeds does so in every moment that is alike. -/
theorem does (hrunners : alike.Runners run.runner runner') (h : run.Does step c d)
    (hc : alike.Moments c c') :
    ∃ d', (run.withRunner runner').Does step c' d' ∧ alike.Moments d d' := by
  obtain ⟨s', o'⟩ := c'
  obtain ⟨hs, ho⟩ := hc
  cases h with
  | start => exact ⟨_, .start, hs.tell _, ho⟩
  | setUp hfound hcopy =>
    obtain ⟨disk', hcopy', hs⟩ := hs.copied hcopy
    exact ⟨_, .setUp hfound hcopy', hs.tell _, ho⟩
  | activate hcopy =>
    obtain ⟨disk', hcopy', hs⟩ := hs.copied hcopy
    exact ⟨_, .activate hcopy', hs.tell _, ho⟩
  | @build f s o request output disk memory hrequest hanswer =>
    obtain ⟨output', disk', memory', hanswer', houtput, hdisk, hmemory⟩ :=
      hs.answered hrunners hanswer
    rw [Run.purpose_of_build hrequest] at houtput
    rw [← hs.cwd] at hrequest
    have hasked := (hs.hear (run.stepNotices (.build f))).after hdisk hmemory request
    exact ⟨⟨_, o'⟩, .build hrequest hanswer',
      hasked.tellUnless (alike.buildFailed hasked.log houtput f request), ho⟩
  | @resolve suite f target s o output disk memory hanswer =>
    obtain ⟨output', disk', memory', hanswer', houtput, hdisk, hmemory⟩ :=
      hs.answered hrunners hanswer
    have hasked := hs.after hdisk hmemory (run.resolveRequest target)
    exact ⟨⟨_, some output'⟩, .resolve hanswer',
      hasked.tellUnless (alike.resolveFailed hasked.log houtput f), .some houtput⟩
  | @replay f s o output disk memory hanswer hsucceeded =>
    rw [← hs.cwd] at hanswer ⊢
    obtain ⟨output', disk', memory', hanswer', houtput, hdisk, hmemory⟩ :=
      hs.answered hrunners hanswer
    obtain rfl := alike.replay houtput
    exact ⟨⟨_, some output'⟩, .replay hanswer' hsucceeded, hs.after hdisk hmemory _,
      .some (alike.refl output')⟩
  | judge hread hparse hlines =>
    cases ho with
    | some houtput =>
      rw [← alike.text houtput] at hlines
      exact ⟨_, .judge ((hs.readText _).trans hread) hparse hlines, hs.tell _, .none⟩

/-- A step that fails does so in every moment that is alike. -/
theorem fails {failure : Failure} (hrunners : alike.Runners run.runner runner')
    (h : run.Fails step c failure d) (hc : alike.Moments c c') :
    ∃ failure' d', (run.withRunner runner').Fails step c' failure' d' ∧
      alike.Failures failure failure' ∧ alike.Moments d d' := by
  obtain ⟨s', o'⟩ := c'
  obtain ⟨hs, ho⟩ := hc
  cases h with
  | noGeneral hnone => exact ⟨_, _, .noGeneral hnone, .same _, hs, ho⟩
  | setUp hfound hcopy =>
    obtain ⟨disk', hcopy', hs⟩ := hs.copied hcopy
    exact ⟨_, _, .setUp hfound hcopy', .same _, hs, ho⟩
  | activate hcopy =>
    obtain ⟨disk', hcopy', hs⟩ := hs.copied hcopy
    exact ⟨_, _, .activate hcopy', .same _, hs, ho⟩
  | render hrender => exact ⟨_, _, .render hrender, .same _, hs.hear _, ho⟩
  | noCommand hrender => exact ⟨_, _, .noCommand hrender, .same _, hs.hear _, ho⟩
  | @raised _ s o request failure disk memory hrequest hanswer =>
    obtain ⟨disk', memory', hanswer', hdisk, hmemory⟩ := hs.failed hrunners hanswer
    rw [← hs.cwd] at hrequest
    exact ⟨failure, ⟨_, o'⟩, .raised hrequest hanswer', .same _,
      (hs.hear _).after hdisk hmemory request, ho⟩
  | @replay f s o output disk memory hanswer hfailed =>
    rw [← hs.cwd] at hanswer ⊢
    obtain ⟨output', disk', memory', hanswer', houtput, hdisk, hmemory⟩ :=
      hs.answered hrunners hanswer
    obtain rfl := alike.replay houtput
    exact ⟨_, ⟨_, o'⟩, .replay hanswer' hfailed, .same _, hs.after hdisk hmemory _, ho⟩
  | unreadable hread =>
    cases ho with
    | some houtput =>
      exact ⟨_, _, .unreadable ((hs.readText _).trans hread), .same _, hs, .some houtput⟩
  | blank hread hparse =>
    cases ho with
    | some houtput =>
      exact ⟨_, _, .blank ((hs.readText _).trans hread) hparse, .same _, hs, .some houtput⟩
  | mismatch hread hparse hmissing =>
    cases ho with
    | some houtput =>
      rw [← alike.text houtput] at hmissing
      exact ⟨_, _, .mismatch ((hs.readText _).trans hread) hparse hmissing, .mismatch houtput, hs,
        .some houtput⟩

/-! ## Steps in order -/

theorem conducts {x : Conclusion} (hrunners : alike.Runners run.runner runner')
    (h : run.Conducts steps c x d) (hc : alike.Moments c c') :
    ∃ x' d', (run.withRunner runner').Conducts steps c' x' d' ∧ alike.Conclusions x x' ∧
      alike.Moments d d' := by
  induction h generalizing c' with
  | done => exact ⟨_, _, .done, .completed, hc⟩
  | step hdoes _ ih =>
    obtain ⟨e', hdoes', he⟩ := alike.does hrunners hdoes hc
    obtain ⟨x', d', hrest', hx, hd⟩ := ih he
    exact ⟨x', d', .step hdoes' hrest', hx, hd⟩
  | stop hfails =>
    obtain ⟨failure', d', hfails', hfailure, hd⟩ := alike.fails hrunners hfails hc
    exact ⟨_, d', .stop hfails', .stopped hfailure, hd⟩

/-! ## Whole runs -/

variable {s : Surroundings (Progress σ)} {s' : Surroundings (Progress τ)}

/-- **Runs from surroundings that are alike end alike**, and leave surroundings that are alike. -/
theorem suites (hrunners : alike.Runners run.runner runner') (hs : alike.Around s s')
    (checked : Nat) (kinds : List Kind) :
    alike.Outcomes ((run.suites checked kinds).perform s).1
        (((run.withRunner runner').suites checked kinds).perform s').1 ∧
      alike.Around ((run.suites checked kinds).perform s).2
        (((run.withRunner runner').suites checked kinds).perform s').2 := by
  obtain ⟨x, d, hsteps, hperform⟩ := Run.suites_conducts run kinds checked ⟨s, none⟩
  obtain ⟨x', d', hsteps', hperform'⟩ :=
    Run.suites_conducts (run.withRunner runner') kinds checked ⟨s', none⟩
  have hmoments : alike.Moments ⟨s, none⟩ ⟨s', none⟩ := ⟨hs, .none⟩
  obtain ⟨x'', d'', hsteps'', hx, hd⟩ := alike.conducts hrunners hsteps hmoments
  -- The second run goes in one way only.
  obtain ⟨rfl, rfl⟩ := hsteps'.unique hsteps''
  rw [hperform, hperform']
  exact ⟨hx.outcomes _, hd.around⟩

end Likeness

/-! ## Runs that begin with a log -/

/-- With a log in front of the log. -/
def Surroundings.following (s : Surroundings (Progress σ)) (log : List Happening) :
    Surroundings (Progress σ) :=
  ⟨s.workspace, ⟨s.state.runner, log ++ s.state.log⟩⟩

/-- A copy on equal disks. -/
theorem copy_of_eq {d d' : Disk} (h : d = d') (cwd : Location) (source target : String) :
    (d'.copy cwd source target).1 = (d.copy cwd source target).1 ∧
      (d.copy cwd source target).2 = (d'.copy cwd source target).2 := by
  rw [h]
  exact ⟨rfl, rfl⟩

theorem readText_of_eq {d d' : Disk} (h : d = d') (cwd : Location) (path : String) :
    d'.readText cwd path = d.readText cwd path := by
  rw [h]

/-- Two runs of which the second begins with a longer log. -/
def Likeness.following (before : List Happening) : Likeness σ σ where
  disk := Eq
  memory := Eq
  log l l' := l' = before ++ l
  output _ := Eq
  copy := copy_of_eq
  readText := readText_of_eq
  replay h := h.symm
  text h := by rw [h]
  refl _ := rfl
  append := by
    rintro l _ rfl more
    rw [List.append_assoc]
  buildFailed := by
    rintro l _ o _ rfl rfl f request
    rw [List.append_assoc]
  resolveFailed := by
    rintro l _ o _ rfl rfl f
    rw [List.append_assoc]

theorem Likeness.runners_following (before : List Happening) (runner : Runner σ) :
    (Likeness.following before).Runners runner runner := by
  rintro request w ⟨disk, cwd, env⟩ memory _ rfl rfl rfl rfl
  refine ⟨?_, rfl, rfl⟩
  cases (runner request w memory).1 with
  | error failure => exact .error failure
  | ok output => exact .ok rfl

theorem Likeness.Around.eq_following {before : List Happening} {s s' : Surroundings (Progress σ)}
    (h : (Likeness.following before).Around s s') : s' = s.following before := by
  have hworkspace := h.workspace_eq (Eq.symm h.disk)
  obtain ⟨w, memory, log⟩ := s
  obtain ⟨w', memory', log'⟩ := s'
  obtain rfl : w' = w := hworkspace
  obtain rfl : memory = memory' := h.memory
  obtain rfl : log' = before ++ log := h.log
  rfl

namespace Run

/-- A run from its beginning, with nothing in its log: how it ends, and what it leaves. -/
def launch (run : Run σ) (selection : Option (List Kind)) (w : Workspace) (memory : σ) :
    Except Failure Verdict × Surroundings (Progress σ) :=
  (run.verdict selection).perform ⟨w, { runner := memory }⟩

/-- **A run does not look at the log that it begins with.** -/
theorem perform_suites_eq (run : Run σ) (checked : Nat) (kinds : List Kind)
    (s : Surroundings (Progress σ)) :
    (run.suites checked kinds).perform s =
      (((run.suites checked kinds).perform ⟨s.workspace, { runner := s.state.runner }⟩).1,
        ((run.suites checked kinds).perform
          ⟨s.workspace, { runner := s.state.runner }⟩).2.following s.state.log) := by
  have hs : (Likeness.following s.state.log).Around
      ⟨s.workspace, { runner := s.state.runner }⟩ s :=
    ⟨rfl, rfl, rfl, rfl, (List.append_nil _).symm⟩
  obtain ⟨houtcome, hleft⟩ :=
    Likeness.suites (Likeness.runners_following s.state.log run.runner) hs checked kinds
  exact Prod.ext (houtcome.eq fun o o' h => Eq.symm h) hleft.eq_following

theorem perform_verdict_eq (run : Run σ) (selection : Option (List Kind))
    (s : Surroundings (Progress σ)) :
    (run.verdict selection).perform s =
      ((run.launch selection s.workspace s.state.runner).1,
        (run.launch selection s.workspace s.state.runner).2.following s.state.log) :=
  run.perform_suites_eq 0 (selected selection) s

end Run

end GoldenRun
