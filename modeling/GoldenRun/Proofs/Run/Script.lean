import GoldenRun.Proofs.Run.Record

/-!
# The log of a run

The plan of a run and the answers of its runner say what the log of the run holds: `Run.script`
writes it down.  A run that ends early leaves a prefix of it.

* `Conducts.script`: steps that are done leave their script
* `Fails.opening`: a step that fails leaves its request, if it made one, and nothing else
* `script_of_stopped_ne`: what a run leaves that does not come to its end is never the whole script
* `log_follows_script`: the log of a run, however it ends
-/

namespace GoldenRun

variable {σ : Type}

/-- The requests and events of a log, in order; what a build command tells is left out. -/
def told (log : List Happening) : List Happening := log.filter (·.notice?.isNone)

@[simp] theorem told_append (log more : List Happening) :
    told (log ++ more) = told log ++ told more := List.filter_append ..

@[simp] theorem told_noticed (notices : List Template.Notice) :
    told (notices.map .noticed) = [] := by
  simp [told, Happening.notice?]

namespace Run

/-! ## Scripts -/

/-- An event, unless all went well. -/
def eventUnless (well : Bool) (event : Event) : List Happening :=
  if well then [] else [.published event]

/-- What a step that succeeds leaves in the log, when `answer` is the answer to its request. -/
def entries (run : Run σ) (cwd : Location) (answer : Captured) : Step → List Happening
  | .start suite fixtures => [.published (.suiteStarted suite fixtures)]
  | .setUp => [.published (.activated (run.active run.config.generalManifest))]
  | .activate m => [.published (.activated (run.active m.name))]
  | .build f =>
    (run.request? cwd (.build f)).toList.flatMap fun request =>
      .requested request :: eventUnless answer.succeeded (.buildFailed f (.of request answer))
  | .resolve _ f target =>
    .requested (run.resolveRequest target) ::
      eventUnless answer.succeeded (.resolveFailed f answer)
  | .replay f => [.requested (run.replayRequest (run.traceFile cwd f))]
  | .judge suite f => [.published (.passed suite f)]

/-- What a step leaves that fails: its request, if it makes one. -/
def opening (run : Run σ) (cwd : Location) (step : Step) : List Happening :=
  (run.request? cwd step).toList.map .requested

/-- What steps leave in the log when they all succeed.  The requests are numbered from `n`, and
`answers` gives the answer to each of them. -/
def script (run : Run σ) (cwd : Location) (answers : Nat → Captured) :
    Nat → List Step → List Happening
  | _, [] => []
  | n, step :: steps =>
    run.entries cwd (answers n) step ++
      run.script cwd answers (n + (run.request? cwd step).toList.length) steps

/-- The answers that were given, and others from there on. -/
def answers (exchanges : List Exchange) (later : Nat → Captured) (n : Nat) : Captured :=
  match exchanges[n]? with
  | some ⟨_, _, .ok output, _⟩ => output
  | _ => later n

variable {run : Run σ} {cwd : Location} {given : Nat → Captured} {step : Step}
  {steps : List Step}

theorem script_append (n : Nat) (more : List Step) :
    run.script cwd given n (steps ++ more) =
      run.script cwd given n steps ++
        run.script cwd given (n + (steps.filterMap (run.request? cwd)).length) more := by
  induction steps generalizing n with
  | nil => rfl
  | cons step steps ih =>
    rw [List.cons_append, script, script, ih, List.append_assoc, List.filterMap_cons]
    cases run.request? cwd step <;> simp [Nat.add_assoc, Nat.add_comm 1]

/-- The request of a step is the first thing it leaves. -/
theorem opening_prefix (run : Run σ) (cwd : Location) (step : Step) (answer : Captured) :
    run.opening cwd step <+: run.entries cwd answer step := by
  unfold opening
  cases step with
  | build f =>
    cases hrequest : run.request? cwd (.build f) with
    | none => simp
    | some request => simp [entries, hrequest]
  | _ => simp [entries, request?]

/-- The event of a step that succeeds, whatever it is answered. -/
def announcement? (run : Run σ) : Step → Option Event
  | .start suite fixtures => some (.suiteStarted suite fixtures)
  | .setUp => some (.activated (run.active run.config.generalManifest))
  | .activate m => some (.activated (run.active m.name))
  | .judge suite f => some (.passed suite f)
  | _ => none

/-- What a step leaves of some sort; a build or a resolution that goes wrong is not of this sort. -/
theorem filterMap_entries {α : Type} {p : Happening → Option α}
    (hbuild : ∀ f report, p (.published (.buildFailed f report)) = none)
    (hresolve : ∀ f output, p (.published (.resolveFailed f output)) = none)
    (answer : Captured) :
    (run.entries cwd answer step).filterMap p =
      ((run.request? cwd step).bind fun request => p (.requested request)).toList ++
        ((run.announcement? step).bind fun event => p (.published event)).toList := by
  have hunless : ∀ event, p (.published event) = none →
      (eventUnless answer.succeeded event).filterMap p = [] := by
    intro event hevent
    cases hsucceeded : answer.succeeded <;> simp [eventUnless, hevent]
  have hone : ∀ happening, [happening].filterMap p = (p happening).toList := by
    intro happening
    cases h : p happening <;> simp [h]
  cases step with
  | build f =>
    cases hrequest : run.request? cwd (.build f) with
    | none => simp [entries, hrequest, announcement?]
    | some request =>
      simp only [entries, hrequest, announcement?, Option.toList_some, List.flatMap_singleton,
        Option.bind_some, Option.bind_none, Option.toList_none, List.append_nil]
      rw [← List.singleton_append, List.filterMap_append, hone, hunless _ (hbuild _ _),
        List.append_nil]
  | resolve suite f target =>
    simp only [entries, request?, announcement?, Option.bind_some, Option.bind_none,
      Option.toList_none, List.append_nil]
    rw [← List.singleton_append, List.filterMap_append, hone, hunless _ (hresolve _ _),
      List.append_nil]
  | replay f => exact (hone _).trans (List.append_nil _).symm
  | _ => exact hone _

/-- What a step leaves of some sort that no request is of. -/
theorem filterMap_entries_of_events {α : Type} {p : Happening → Option α}
    (hrequest : ∀ request, p (.requested request) = none)
    (hbuild : ∀ f report, p (.published (.buildFailed f report)) = none)
    (hresolve : ∀ f output, p (.published (.resolveFailed f output)) = none)
    (answer : Captured) :
    (run.entries cwd answer step).filterMap p =
      ((run.announcement? step).bind fun event => p (.published event)).toList := by
  rw [filterMap_entries hbuild hresolve]
  simp only [hrequest, Option.bind_fun_none, Option.toList_none, List.nil_append]

/-! ## Steps that are done, and a step that fails -/

/-- Some answers are those that were given, as far as any were. -/
def Agree (answers : Nat → Captured) (exchanges : List Exchange) : Prop :=
  ∀ n e output, exchanges[n]? = some e → e.answer = .ok output → answers n = output

theorem agree_answers (exchanges : List Exchange) (later : Nat → Captured) :
    Agree (answers exchanges later) exchanges := by
  rintro n ⟨request, w, answer, disk⟩ output hn hanswer
  obtain rfl : answer = .ok output := hanswer
  unfold answers
  rw [hn]

theorem Agree.of_append {answers : Nat → Captured} {exchanges more : List Exchange}
    (h : Agree answers (exchanges ++ more)) : Agree answers exchanges := by
  intro n e output hn houtput
  refine h n e output ?_ houtput
  rw [List.getElem?_append_left (List.getElem?_eq_some_iff.mp hn).1]
  exact hn

/-- The next answer is the one to the next request. -/
theorem Agree.next {answers : Nat → Captured} {exchanges more : List Exchange} {e : Exchange}
    {output : Captured} (h : Agree answers (exchanges ++ [e] ++ more))
    (houtput : e.answer = .ok output) : answers exchanges.length = output :=
  h _ e output (by simp) houtput

@[simp] theorem log_tellUnless {τ : Type} (s : Surroundings (Progress τ)) (well : Bool)
    (event : Event) :
    (s.tellUnless well event).state.log = s.state.log ++ eventUnless well event := by
  cases well with
  | true => exact (List.append_nil _).symm
  | false => rfl

@[simp] theorem told_asked (request : Request) (well : Bool) (event : Event) :
    told (.requested request :: eventUnless well event) =
      .requested request :: eventUnless well event := by
  cases well <;> rfl

variable {c d : Moment (σ × List Exchange)} {failure : Failure} {x : Conclusion}

/-- A step that succeeds leaves its entries. -/
theorem Does.entries (h : run.recorded.Does step c d) :
    ∃ news, d.state.log = c.state.log ++ news ∧
      ∀ answer, (∀ e output, d.exchanges = c.exchanges ++ [e] → e.answer = .ok output →
        answer = output) → told news = run.entries c.workspace.cwd answer step := by
  cases h with
  | start => exact ⟨_, rfl, fun _ _ => rfl⟩
  | @setUp m _ _ _ hfound hcopy =>
    have hsome := List.find?_some hfound
    have hname : m.name = run.config.generalManifest := of_decide_eq_true hsome
    refine ⟨_, rfl, fun _ _ => ?_⟩
    rw [hname]
    rfl
  | activate hcopy => exact ⟨_, rfl, fun _ _ => rfl⟩
  | @build f s o request output disk memory hrequest hasked =>
    have hexchange := (Runner.recorded_eq_iff.mp hasked).2
    rw [recorded_request?] at hrequest
    refine ⟨(run.stepNotices (.build f)).map .noticed ++ .requested request ::
      eventUnless output.succeeded (.buildFailed f (.of request output)), ?_, ?_⟩
    · rw [log_tellUnless]
      simp [Surroundings.after, Surroundings.hear, Progress.note, Progress.hear]
      rfl
    · intro answer hanswer
      obtain rfl : answer = output := hanswer _ _ (by simpa [Moment.exchanges] using hexchange) rfl
      rw [told_append, told_noticed, List.nil_append]
      simp [Run.entries, hrequest]
  | @resolve suite f target s o output disk memory hasked =>
    have hexchange := (Runner.recorded_eq_iff.mp hasked).2
    refine ⟨.requested (run.resolveRequest target) ::
      eventUnless output.succeeded (.resolveFailed f output), ?_, ?_⟩
    · rw [log_tellUnless]
      simp [Surroundings.after, Progress.note]
    · intro answer hanswer
      obtain rfl : answer = output := hanswer _ _ (by simpa [Moment.exchanges] using hexchange) rfl
      exact told_asked ..
  | @replay f s o output disk memory hasked hsucceeded => exact ⟨_, rfl, fun _ _ => rfl⟩
  | judge => exact ⟨_, rfl, fun _ _ => rfl⟩

/-- A step that fails leaves its request, if it made one, and nothing else. -/
theorem Fails.opening (h : run.recorded.Fails step c failure d) :
    ∃ news, d.state.log = c.state.log ++ news ∧
      told news = run.opening c.workspace.cwd step := by
  unfold Run.opening
  cases h with
  | @render f s o fault hrender =>
    refine ⟨(run.stepNotices (.build f)).map .noticed, rfl, ?_⟩
    rw [told_noticed, request?_build_eq_none_of_error run hrender]
    rfl
  | @noCommand f s o hrender =>
    refine ⟨(run.stepNotices (.build f)).map .noticed, rfl, ?_⟩
    rw [told_noticed, request?_build_eq_none_of_nil run hrender]
    rfl
  | @raised step s o request failure disk memory hrequest hasked =>
    rw [recorded_request?] at hrequest
    refine ⟨(run.stepNotices step).map .noticed ++ [.requested request], ?_, ?_⟩
    · simp [Surroundings.after, Surroundings.hear, Progress.note, Progress.hear]
      rfl
    · rw [told_append, told_noticed, hrequest]
      rfl
  | @replay f s o output disk memory hasked hfailed => exact ⟨_, rfl, rfl⟩
  | _ => exact ⟨[], (List.append_nil _).symm, rfl⟩

/-- Steps that are done leave their script. -/
theorem Conducts.script (h : run.recorded.Conducts steps c .completed d) :
    ∃ news, d.state.log = c.state.log ++ news ∧
      ∀ answers, Agree answers d.exchanges →
        told news = run.script c.workspace.cwd answers c.exchanges.length steps := by
  generalize hx : Conclusion.completed = x at h
  induction h with
  | done => exact ⟨[], (List.append_nil _).symm, fun _ _ => rfl⟩
  | stop _ => cases hx
  | @step step steps c c' d x hdoes hrest ih =>
    subst hx
    obtain ⟨rest, hrest', -⟩ := hrest.requests
    obtain ⟨new, hnew, hrequest⟩ := hdoes.requests
    have hlength : c'.exchanges.length =
        c.exchanges.length + (run.request? c.workspace.cwd step).toList.length := by
      rw [hnew, List.length_append, ← hrequest, List.length_map]
    obtain ⟨first, hfirst, htold⟩ := hdoes.entries
    obtain ⟨later, hlater, htold'⟩ := ih rfl
    refine ⟨first ++ later, by rw [hlater, hfirst, List.append_assoc], fun answers hanswers => ?_⟩
    -- The answer to the request of this step is the next one.
    have hanswer : ∀ e output, c'.exchanges = c.exchanges ++ [e] → e.answer = .ok output →
        answers c.exchanges.length = output := by
      intro e output hadded houtput
      rw [hrest', hadded] at hanswers
      exact hanswers.next houtput
    rw [told_append, htold _ hanswer, htold' _ hanswers, hdoes.cwd, hlength]
    rfl

/-- Up to the step that fails, steps leave their script. -/
theorem Conducts.script_stopped {before : List Step} {c' : Moment (σ × List Exchange)}
    (hbefore : run.recorded.Conducts before c .completed c')
    (hfails : run.recorded.Fails step c' failure d) :
    ∃ news, d.state.log = c.state.log ++ news ∧
      ∀ answers, Agree answers d.exchanges →
        told news = run.script c.workspace.cwd answers c.exchanges.length before ++
          run.opening c.workspace.cwd step := by
  obtain ⟨asked, hasked, -⟩ := hfails.requests
  obtain ⟨news, hnews, htold⟩ := hbefore.script
  obtain ⟨last, hlast, htold'⟩ := hfails.opening
  refine ⟨news ++ last, by rw [hlast, hnews, List.append_assoc], fun answers hanswers => ?_⟩
  rw [hasked] at hanswers
  rw [told_append, htold _ hanswers.of_append, htold', hbefore.cwd]

/-! ## A run that stops leaves less than its script -/

/-- Whether a step ends with an event when it succeeds, whatever it is answered. -/
def tells : Step → Bool
  | .build _ => false
  | .resolve _ _ _ => false
  | .replay _ => false
  | _ => true

/-- Steps of which the last, if there is one, ends with an event. -/
def EndsTelling (steps : List Step) : Prop := ∀ step ∈ steps.getLast?, tells step = true

theorem EndsTelling.append {more : List Step} (h : EndsTelling steps) (hmore : EndsTelling more) :
    EndsTelling (steps ++ more) := by
  intro step hstep
  rw [List.getLast?_append] at hstep
  cases hlast : more.getLast? with
  | none => exact h step (by simpa [hlast] using hstep)
  | some last => exact hmore step (by simpa [hlast] using hstep)

theorem EndsTelling.flatMap {α : Type} {part : α → List Step} (h : ∀ a, EndsTelling (part a))
    (parts : List α) : EndsTelling (parts.flatMap part) := by
  induction parts with
  | nil =>
    intro step hstep
    simp at hstep
  | cons a parts ih =>
    rw [List.flatMap_cons]
    exact (h a).append ih

theorem EndsTelling.of_append {more : List Step} (h : EndsTelling (steps ++ more)) :
    EndsTelling more := by
  intro step hstep
  refine h step ?_
  rw [List.getLast?_append, Option.mem_def.mp hstep]
  rfl

/-- A plan ends with the judgement of a fixture, or with the beginning of a suite without any. -/
theorem plan_endsTelling (run : Run σ) (selection : Option (List Kind)) :
    EndsTelling (run.plan selection) := by
  have hopening : ∀ suite, EndsTelling (run.openingSteps suite) := by
    intro suite
    cases suite <;> simp [EndsTelling, openingSteps, tells]
  have hfixture : ∀ suite f, EndsTelling (run.fixtureSteps suite f) := by
    intro suite f
    cases suite <;> simp [EndsTelling, fixtureSteps, tells]
  exact .flatMap (fun suite => (hopening suite).append (.flatMap (hfixture suite) _)) _

theorem opening_of_tells (h : tells step = true) : run.opening cwd step = [] := by
  cases step <;> first | rfl | cases h

theorem entries_of_tells {answer : Captured} (h : tells step = true) :
    run.entries cwd answer step ≠ [] := by
  cases step <;> simp_all [Run.entries, tells]

theorem script_ne_nil (n : Nat) (h : EndsTelling steps) (hsteps : steps ≠ []) :
    run.script cwd given n steps ≠ [] := by
  obtain ⟨before, last, hconcat⟩ := steps.eq_nil_or_concat.resolve_left hsteps
  rw [List.concat_eq_append] at hconcat
  subst hconcat
  rw [script_append]
  have hlast : tells last = true := h last (by simp)
  simp [Run.script, entries_of_tells hlast]

/-- What a step leaves that fails is less than what it would leave with the steps behind it. -/
theorem script_of_stopped_ne {n : Nat} {after : List Step} (h : EndsTelling (step :: after)) :
    run.opening cwd step ≠ run.script cwd given n (step :: after) := by
  intro heq
  have hprefix := (run.opening_prefix cwd step (given n)).length_le
  have hlength := congrArg List.length heq
  rw [Run.script, List.length_append] at hlength
  -- A last step ends with an event; any other has steps behind it, which leave something.
  cases after with
  | nil =>
    have hstep : tells step = true := h step (by simp)
    rw [opening_of_tells hstep] at heq
    exact script_ne_nil n h (by simp) heq.symm
  | cons next after =>
    have hrest : EndsTelling ([step] ++ next :: after) := h
    have hafter : 0 < (run.script cwd given (n + (run.request? cwd step).toList.length)
        (next :: after)).length :=
      List.length_pos_iff.mpr (script_ne_nil _ hrest.of_append (by simp))
    omega

/-! ## The log of a run -/

/-- The script of a run, for some of its steps; `later` stands for the answers that were not
given. -/
def scriptOf (run : Run σ) (selection : Option (List Kind)) (s : Surroundings (Progress σ))
    (later : Nat → Captured) (steps : List Step) : List Happening :=
  run.script s.workspace.cwd (answers (run.exchanges selection s) later) 0 steps

section Projection

variable {α : Type} {p : Happening → Option α} {q : Step → Option α}

theorem filterMap_told (hnotice : ∀ notice, p (.noticed notice) = none) (log : List Happening) :
    (told log).filterMap p = log.filterMap p := by
  induction log with
  | nil => rfl
  | cons entry log ih =>
    cases entry with
    | noticed notice =>
      rw [List.filterMap_cons_none (hnotice notice)]
      exact ih
    | _ =>
      have htold : ∀ entry : Happening, entry.notice?.isNone = true →
          told (entry :: log) = entry :: told log := fun entry h => List.filter_cons_of_pos h
      rw [htold _ rfl, List.filterMap_cons, List.filterMap_cons, ih]

/-- What a script holds of some sort, when it is known what each step leaves of it. -/
theorem filterMap_script
    (hentries : ∀ answer step, (run.entries cwd answer step).filterMap p = (q step).toList)
    (n : Nat) : (run.script cwd given n steps).filterMap p = steps.filterMap q := by
  induction steps generalizing n with
  | nil => rfl
  | cons step steps ih =>
    rw [Run.script, List.filterMap_append, hentries, ih, List.filterMap_cons]
    cases q step <;> rfl

/-- What steps that are done leave of some sort. -/
theorem Conducts.news (hnotice : ∀ notice, p (.noticed notice) = none)
    (hentries : ∀ answer step,
      (run.entries c.workspace.cwd answer step).filterMap p = (q step).toList)
    (h : run.recorded.Conducts steps c .completed d) :
    ∃ news, d.state.log = c.state.log ++ news ∧ news.filterMap p = steps.filterMap q := by
  obtain ⟨news, hnews, htold⟩ := h.script
  refine ⟨news, hnews, ?_⟩
  rw [← filterMap_told hnotice, htold _ (agree_answers _ fun _ => default),
    filterMap_script hentries]

/-- What steps leave of some sort up to the one that fails; its request is not of this sort. -/
theorem Conducts.news_stopped {before : List Step} {c' : Moment (σ × List Exchange)}
    (hnotice : ∀ notice, p (.noticed notice) = none)
    (hrequest : ∀ request, p (.requested request) = none)
    (hentries : ∀ answer step,
      (run.entries c.workspace.cwd answer step).filterMap p = (q step).toList)
    (hbefore : run.recorded.Conducts before c .completed c')
    (hfails : run.recorded.Fails step c' failure d) :
    ∃ news, d.state.log = c.state.log ++ news ∧ news.filterMap p = before.filterMap q := by
  obtain ⟨news, hnews, htold⟩ := hbefore.script_stopped hfails
  -- The step that fails leaves its request at most.
  have hopening : (run.opening c.workspace.cwd step).filterMap p = [] := by
    unfold Run.opening
    cases run.request? c.workspace.cwd step with
    | none => rfl
    | some request => exact List.filterMap_cons_none (hrequest request)
  refine ⟨news, hnews, ?_⟩
  rw [← filterMap_told hnotice, htold _ (agree_answers _ fun _ => default), List.filterMap_append,
    filterMap_script hentries, hopening, List.append_nil]

end Projection

theorem requests_entries (answer : Captured) :
    (run.entries cwd answer step).filterMap Happening.request? =
      (run.request? cwd step).toList := by
  rw [filterMap_entries (fun _ _ => rfl) (fun _ _ => rfl)]
  simp [Happening.request?]

theorem requests_script (n : Nat) :
    (run.script cwd given n steps).filterMap Happening.request? =
      steps.filterMap (run.request? cwd) :=
  filterMap_script (fun answer _ => requests_entries answer) n

theorem requests_opening :
    (run.opening cwd step).filterMap Happening.request? = (run.request? cwd step).toList := by
  unfold Run.opening
  cases run.request? cwd step <;> rfl

variable {selection : Option (List Kind)} {s : Surroundings (Progress σ)}

/-- What a runner is asked is the request of a step, in its directory and with its environment. -/
theorem exists_step_of_mem_exchanges {e : Exchange} (he : e ∈ run.exchanges selection s) :
    ∃ step ∈ run.plan selection, run.request? s.workspace.cwd step = some e.request ∧
      e.request.cwd = run.requestDirectory step ∧ e.request.env = run.requestEnv step := by
  obtain ⟨x, d, hsteps, -, hexchanges⟩ := verdict_recorded run selection s
  obtain ⟨asked, new, ⟨rest, hrest⟩, hnew, hrequests⟩ := hsteps.asked
  rw [hexchanges, hnew] at he
  have hmem : e.request ∈ new.map Exchange.request := List.mem_map_of_mem he
  rw [hrequests] at hmem
  obtain ⟨step, hstep, hrequest⟩ := List.mem_filterMap.mp hmem
  obtain ⟨hcwd, henv, -⟩ := request?_place hrequest
  refine ⟨step, ?_, hrequest, hcwd, henv⟩
  rw [← hrest]
  exact List.mem_append_left _ hstep

section Stopped

variable {before after : List Step} {log : List Happening}

/-- The script of a run up to one of its steps, and from there on. -/
theorem scriptOf_split (later : Nat → Captured)
    (hplan : run.plan selection = before ++ step :: after) :
    ∃ n, run.scriptOf selection s later (run.plan selection) =
      run.scriptOf selection s later before ++ run.script s.workspace.cwd
        (answers (run.exchanges selection s) later) n (step :: after) := by
  rw [hplan]
  exact ⟨_, script_append ..⟩

/-- A log that ends at a step that fails is the beginning of the script. -/
theorem prefix_scriptOf_of_stopped (later : Nat → Captured)
    (hplan : run.plan selection = before ++ step :: after)
    (hlog : log = run.scriptOf selection s later before ++ run.opening s.workspace.cwd step) :
    log <+: run.scriptOf selection s later (run.plan selection) := by
  obtain ⟨n, hsplit⟩ := scriptOf_split later hplan
  rw [hlog, hsplit, Run.script]
  exact (List.prefix_append_right_inj _).mpr
    ((run.opening_prefix ..).trans (List.prefix_append ..))

/-- A log that ends at a step that fails is not the whole script. -/
theorem ne_scriptOf_of_stopped (later : Nat → Captured)
    (hplan : run.plan selection = before ++ step :: after)
    (hlog : log = run.scriptOf selection s later before ++ run.opening s.workspace.cwd step) :
    log ≠ run.scriptOf selection s later (run.plan selection) := by
  obtain ⟨n, hsplit⟩ := scriptOf_split later hplan
  intro heq
  rw [hlog, hsplit] at heq
  have hends := run.plan_endsTelling selection
  rw [hplan] at hends
  exact script_of_stopped_ne hends.of_append (List.append_cancel_left heq)

/-- The log of a run that comes to its end. -/
theorem log_of_completed
    (hsteps : run.recorded.Conducts (run.plan selection) ⟨s.recording, none⟩ .completed d)
    (hexchanges : run.exchanges selection s = d.exchanges) :
    ∃ news, d.state.log = s.state.log ++ news ∧
      news.filterMap Happening.request? = (run.exchanges selection s).map Exchange.request ∧
      ∀ later, told news = run.scriptOf selection s later (run.plan selection) := by
  obtain ⟨news, hnews, hscript⟩ := hsteps.script
  obtain ⟨new, hnew, hrequests⟩ := hsteps.requests
  have htold : ∀ later, told news = run.scriptOf selection s later (run.plan selection) := by
    intro later
    refine hscript _ ?_
    rw [hexchanges]
    exact agree_answers _ _
  refine ⟨news, hnews, ?_, htold⟩
  rw [← filterMap_told (fun _ => rfl), htold fun _ => default, scriptOf, requests_script,
    hexchanges, hnew]
  exact hrequests.symm

/-- The log of a run that stops at a step. -/
theorem log_of_stopped
    (hbefore : run.recorded.Conducts before ⟨s.recording, none⟩ .completed c)
    (hfails : run.recorded.Fails step c failure d)
    (hexchanges : run.exchanges selection s = d.exchanges) :
    ∃ news, d.state.log = s.state.log ++ news ∧
      news.filterMap Happening.request? = (run.exchanges selection s).map Exchange.request ∧
      ∀ later, told news =
        run.scriptOf selection s later before ++ run.opening s.workspace.cwd step := by
  obtain ⟨news, hnews, hscript⟩ := hbefore.script_stopped hfails
  obtain ⟨new, hnew, hrequests⟩ := hbefore.requests
  obtain ⟨last, hlast, hrequest⟩ := hfails.requests
  have htold : ∀ later, told news =
      run.scriptOf selection s later before ++ run.opening s.workspace.cwd step := by
    intro later
    refine hscript _ ?_
    rw [hexchanges]
    exact agree_answers _ _
  refine ⟨news, hnews, ?_, htold⟩
  rw [← filterMap_told (fun _ => rfl), htold fun _ => default, List.filterMap_append, scriptOf,
    requests_script, requests_opening, hexchanges, hlast, hnew, List.map_append, hrequest,
    List.map_append, hrequests, hbefore.cwd]
  rfl

end Stopped

/--
**The log of a run follows its script, however the run ends.**

* The requests in it are those that the runner was given, each from a step of the plan, in the
  directory and with the environment of this step.
* Whatever the answers would have been that were not given, it is a prefix of the script, and it is
  all of it exactly when the run passed.
* If the run stopped at a step, it holds what the steps before this one left, and the request of
  this one if it made one: nothing was requested or published after it.
-/
theorem log_follows_script (run : Run σ) (selection : Option (List Kind))
    (s : Surroundings (Progress σ)) :
    ∃ news, ((run.verdict selection).perform s).2.state.log = s.state.log ++ news ∧
      news.filterMap Happening.request? = (run.exchanges selection s).map Exchange.request ∧
      (∀ e ∈ run.exchanges selection s, ∃ step ∈ run.plan selection,
        run.request? s.workspace.cwd step = some e.request ∧
        e.request.cwd = run.requestDirectory step ∧ e.request.env = run.requestEnv step) ∧
      ∀ later,
        told news <+: run.scriptOf selection s later (run.plan selection) ∧
        (told news = run.scriptOf selection s later (run.plan selection) ↔
          ∃ n, ((run.verdict selection).perform s).1 = .ok (.passed n)) ∧
        ∀ step failure d, run.Conducts (run.plan selection) ⟨s, none⟩ (.stopped step failure) d →
          ∃ before after c, run.plan selection = before ++ step :: after ∧
            run.Conducts before ⟨s, none⟩ .completed c ∧ run.Fails step c failure d ∧
            told news = run.scriptOf selection s later before ++
              run.opening s.workspace.cwd step := by
  obtain ⟨x, d, hsteps, hperform, hexchanges⟩ := verdict_recorded run selection s
  cases x with
  | completed =>
    obtain ⟨news, hnews, hrequests, htold⟩ := log_of_completed hsteps hexchanges
    refine ⟨news, by rw [hperform]; exact hnews, hrequests, fun _ => exists_step_of_mem_exchanges,
      fun later => ⟨?_, ?_, ?_⟩⟩
    · exact ⟨[], (List.append_nil _).trans (htold later)⟩
    · rw [hperform]
      exact ⟨fun _ => ⟨_, rfl⟩, fun _ => htold later⟩
    · intro step failure d' hstopped
      cases (hsteps.forget.unique hstopped).1
  | stopped step failure =>
    obtain ⟨before, after, c', hplan, hbefore, hfails⟩ := hsteps.stopped_split
    obtain ⟨news, hnews, hrequests, htold⟩ := log_of_stopped hbefore hfails hexchanges
    refine ⟨news, by rw [hperform]; exact hnews, hrequests, fun _ => exists_step_of_mem_exchanges,
      fun later => ⟨prefix_scriptOf_of_stopped later hplan (htold later), ?_, ?_⟩⟩
    · rw [hperform]
      constructor
      · intro heq
        exact (ne_scriptOf_of_stopped later hplan (htold later) heq).elim
      · rintro ⟨n, hn⟩
        cases (Conclusion.verdict_eq_passed_iff.mp hn).1
    · intro step' failure' d' hstopped
      obtain ⟨hsame, rfl⟩ := hsteps.forget.unique hstopped
      obtain ⟨rfl, rfl⟩ := Conclusion.stopped.inj hsame
      exact ⟨before, after, c'.forget, hplan, hbefore.forget, hfails.forget, htold later⟩

end Run

end GoldenRun
