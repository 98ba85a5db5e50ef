import GoldenRun.Proofs.Run.ConductSound

/-!
# Runs on record

`Runner.recorded` is a runner that also keeps what it was asked, and `Run.exchanges` is the record
of a run.  The harness does not see the memory of its runner, so keeping the record changes
nothing.

* `Conducts.forget`: without the record, the steps go in the same way
* `verdict_recorded`: the steps of a run, with its record
* `Does.asks`, `Fails.asks`: a step with a request adds one exchange; `Does.quiet`, `Fails.quiet`:
  any other step adds none
* `Conducts.requests`: the requests of a record are those of the steps, in order
-/

namespace GoldenRun

variable {σ : Type}

/-- A request, and what came of it. -/
structure Exchange where
  /-- The request. -/
  request : Request
  /-- The workspace in which it was made. -/
  workspace : Workspace
  /-- The answer. -/
  answer : Except Failure Captured
  /-- The disk that the runner left. -/
  disk : Disk

/-- A runner that keeps a record. -/
def Runner.recorded (runner : Runner σ) : Runner (σ × List Exchange) :=
  fun request w memory =>
    match runner request w memory.1 with
    | (answer, disk, remembered) =>
      (answer, disk, remembered, memory.2 ++ [⟨request, w, answer, disk⟩])

theorem Runner.recorded_eq_iff {runner : Runner σ} {request : Request} {w : Workspace}
    {memory memory' : σ × List Exchange} {answer : Except Failure Captured} {disk : Disk} :
    runner.recorded request w memory = (answer, disk, memory') ↔
      runner request w memory.1 = (answer, disk, memory'.1) ∧
        memory'.2 = memory.2 ++ [⟨request, w, answer, disk⟩] := by
  obtain ⟨remembered', record'⟩ := memory'
  unfold Runner.recorded
  rcases runner request w memory.1 with ⟨answer₀, disk₀, remembered⟩
  simp only [Prod.mk.injEq]
  constructor
  · rintro ⟨rfl, rfl, rfl, rfl⟩
    exact ⟨⟨rfl, rfl, rfl⟩, rfl⟩
  · rintro ⟨⟨rfl, rfl, rfl⟩, rfl⟩
    exact ⟨rfl, rfl, rfl, rfl⟩

namespace Surroundings

/-- With an empty record. -/
def recording (s : Surroundings (Progress σ)) : Surroundings (Progress (σ × List Exchange)) :=
  ⟨s.workspace, ⟨(s.state.runner, []), s.state.log⟩⟩

/-- Without the record. -/
def forget (s : Surroundings (Progress (σ × List Exchange))) : Surroundings (Progress σ) :=
  ⟨s.workspace, ⟨s.state.runner.1, s.state.log⟩⟩

@[simp] theorem forget_recording (s : Surroundings (Progress σ)) : s.recording.forget = s := rfl

variable {s : Surroundings (Progress (σ × List Exchange))}

@[simp] theorem forget_tellUnless (well : Bool) (event : Event) :
    (s.tellUnless well event).forget = s.forget.tellUnless well event := by
  cases well <;> rfl

end Surroundings

namespace Moment

/-- Without the record. -/
def forget (c : Moment (σ × List Exchange)) : Moment σ := ⟨c.toSurroundings.forget, c.output⟩

/-- The record. -/
def exchanges (c : Moment (σ × List Exchange)) : List Exchange := c.state.runner.2

end Moment

namespace Run

/-- The run with a runner that keeps a record. -/
def recorded (run : Run σ) : Run (σ × List Exchange) where
  catalog := run.catalog
  config := run.config
  tool := run.tool
  env := run.env
  runner := run.runner.recorded

/-- The exchanges of a run, in order. -/
def exchanges (run : Run σ) (selection : Option (List Kind)) (s : Surroundings (Progress σ)) :
    List Exchange :=
  ((run.recorded.verdict selection).perform s.recording).2.state.runner.2

variable {run : Run σ} {step : Step} {steps : List Step} {c d : Moment (σ × List Exchange)}
  {failure : Failure} {x : Conclusion}

@[simp] theorem recorded_request? (run : Run σ) (cwd : Location) (step : Step) :
    run.recorded.request? cwd step = run.request? cwd step := rfl

@[simp] theorem recorded_resolveRequest (run : Run σ) (target : String) :
    run.recorded.resolveRequest target = run.resolveRequest target := rfl

/-! ## Without the record -/

theorem Does.forget (h : run.recorded.Does step c d) : run.Does step c.forget d.forget := by
  cases h with
  | start => exact .start
  | setUp hfound hcopy => exact .setUp hfound hcopy
  | activate hcopy => exact .activate hcopy
  | build hrequest hanswer =>
    unfold Moment.forget
    rw [Surroundings.forget_tellUnless]
    exact .build hrequest (Runner.recorded_eq_iff.mp hanswer).1
  | resolve hanswer =>
    unfold Moment.forget
    rw [Surroundings.forget_tellUnless]
    exact .resolve (Runner.recorded_eq_iff.mp hanswer).1
  | replay hanswer hsucceeded => exact .replay (Runner.recorded_eq_iff.mp hanswer).1 hsucceeded
  | judge hread hparse hlines => exact .judge hread hparse hlines

theorem Fails.forget (h : run.recorded.Fails step c failure d) :
    run.Fails step c.forget failure d.forget := by
  cases h with
  | noGeneral hnone => exact .noGeneral hnone
  | setUp hfound hcopy => exact .setUp hfound hcopy
  | activate hcopy => exact .activate hcopy
  | render hrender => exact .render hrender
  | noCommand hrender => exact .noCommand hrender
  | raised hrequest hanswer => exact .raised hrequest (Runner.recorded_eq_iff.mp hanswer).1
  | replay hanswer hfailed => exact .replay (Runner.recorded_eq_iff.mp hanswer).1 hfailed
  | unreadable hread => exact .unreadable hread
  | blank hread hparse => exact .blank hread hparse
  | mismatch hread hparse hmissing => exact .mismatch hread hparse hmissing

/-- The record changes nothing. -/
theorem Conducts.forget (h : run.recorded.Conducts steps c x d) :
    run.Conducts steps c.forget x d.forget := by
  induction h with
  | done => exact .done
  | step hdoes _ ih => exact .step hdoes.forget ih
  | stop hfails => exact .stop hfails.forget

/-- **A run conducts its plan, and its exchanges are the record.** -/
theorem verdict_recorded (run : Run σ) (selection : Option (List Kind))
    (s : Surroundings (Progress σ)) :
    ∃ x d, run.recorded.Conducts (run.plan selection) ⟨s.recording, none⟩ x d ∧
      (run.verdict selection).perform s =
        (x.verdict (run.count selection), d.toSurroundings.forget) ∧
      run.exchanges selection s = d.exchanges := by
  obtain ⟨x, d, hsteps, hd⟩ := verdict_conducts run.recorded selection s.recording
  refine ⟨x, d, hsteps, perform_verdict_iff.mpr ⟨x, d.forget, hsteps.forget, rfl, rfl⟩, ?_⟩
  unfold exchanges
  rw [hd]
  rfl

/-! ## Exchanges of a step -/

theorem request?_build_eq_none_of_error (run : Run σ) {cwd : Location} {f : Fixture}
    {fault : Template.Fault}
    (hrender : renderCommand run.config.buildCommand (run.buildContext f) = .error fault) :
    run.request? cwd (.build f) = none := by
  simp only [request?, hrender]

theorem request?_build_eq_none_of_nil (run : Run σ) {cwd : Location} {f : Fixture}
    (hrender : renderCommand run.config.buildCommand (run.buildContext f) = .ok []) :
    run.request? cwd (.build f) = none := by
  simp only [request?, hrender]

/-- A step that succeeds without a request adds nothing to the record. -/
theorem Does.quiet (h : run.recorded.Does step c d)
    (hrequest : run.request? c.workspace.cwd step = none) : d.exchanges = c.exchanges := by
  cases h with
  | build hrequest' _ => simp_all
  | resolve _ => simp [request?] at hrequest
  | replay _ _ => simp [request?] at hrequest
  | _ => rfl

/-- A step that succeeds with a request adds one exchange, with the answer of the runner. -/
theorem Does.asks {request : Request} (h : run.recorded.Does step c d)
    (hrequest : run.request? c.workspace.cwd step = some request) :
    ∃ output, run.runner request c.workspace c.state.runner.1 =
        (.ok output, d.workspace.disk, d.state.runner.1) ∧
      d.exchanges = c.exchanges ++ [⟨request, c.workspace, .ok output, d.workspace.disk⟩] := by
  cases h with
  | @build _ _ _ _ output _ _ hrequest' hanswer =>
    obtain rfl := Option.some.inj (hrequest'.symm.trans hrequest)
    refine ⟨output, ?_⟩
    simpa [Moment.exchanges] using Runner.recorded_eq_iff.mp hanswer
  | @resolve _ _ _ _ _ output _ _ hanswer =>
    obtain rfl := Option.some.inj hrequest
    refine ⟨output, ?_⟩
    simpa [Moment.exchanges] using Runner.recorded_eq_iff.mp hanswer
  | replay hanswer _ =>
    obtain rfl := Option.some.inj hrequest
    exact ⟨_, Runner.recorded_eq_iff.mp hanswer⟩
  | _ => simp [request?] at hrequest

/-- When the tool has been run, its output is there to be judged on the disk that the tool left. -/
theorem Does.hears {suite : Kind} {f : Fixture}
    (h : run.recorded.Does (run.toolStep suite f) c d) :
    ∃ output, d.output = some output ∧ (suite = .trace → output.succeeded = true) ∧
      d.exchanges = c.exchanges ++
        [⟨run.toolRequest c.workspace.cwd suite f, c.workspace, .ok output,
          d.workspace.disk⟩] := by
  cases suite with
  | binary =>
    cases h with
    | @resolve _ _ _ _ _ output _ _ hanswer =>
      refine ⟨output, rfl, by simp, ?_⟩
      simpa [Moment.exchanges, toolRequest] using (Runner.recorded_eq_iff.mp hanswer).2
  | manifest =>
    cases h with
    | @resolve _ _ _ _ _ output _ _ hanswer =>
      refine ⟨output, rfl, by simp, ?_⟩
      simpa [Moment.exchanges, toolRequest] using (Runner.recorded_eq_iff.mp hanswer).2
  | trace =>
    cases h with
    | replay hanswer hsucceeded =>
      exact ⟨_, rfl, fun _ => hsucceeded, (Runner.recorded_eq_iff.mp hanswer).2⟩

/-- A step that fails without a request adds nothing to the record. -/
theorem Fails.quiet (h : run.recorded.Fails step c failure d)
    (hrequest : run.request? c.workspace.cwd step = none) : d.exchanges = c.exchanges := by
  cases h with
  | raised hrequest' _ => simp_all
  | replay _ _ => simp [request?] at hrequest
  | _ => rfl

/-- A step that fails at its request, or after it, adds one exchange. -/
theorem Fails.asks {request : Request} (h : run.recorded.Fails step c failure d)
    (hrequest : run.request? c.workspace.cwd step = some request) :
    ∃ answer, run.runner request c.workspace c.state.runner.1 =
        (answer, d.workspace.disk, d.state.runner.1) ∧
      d.exchanges = c.exchanges ++ [⟨request, c.workspace, answer, d.workspace.disk⟩] := by
  cases h with
  | raised hrequest' hanswer =>
    obtain rfl := Option.some.inj (hrequest'.symm.trans hrequest)
    exact ⟨_, Runner.recorded_eq_iff.mp hanswer⟩
  | replay hanswer _ =>
    obtain rfl := Option.some.inj hrequest
    exact ⟨_, Runner.recorded_eq_iff.mp hanswer⟩
  | render hrender =>
    cases (request?_build_eq_none_of_error run hrender).symm.trans hrequest
  | noCommand hrender =>
    cases (request?_build_eq_none_of_nil run hrender).symm.trans hrequest
  | _ => simp [request?] at hrequest

/-! ## Where steps leave the harness -/

/-- No step leaves the working directory. -/
theorem Does.cwd {run : Run σ} {c d : Moment σ} (h : run.Does step c d) :
    d.workspace.cwd = c.workspace.cwd := by
  cases h <;> simp

theorem Fails.cwd {run : Run σ} {c d : Moment σ} (h : run.Fails step c failure d) :
    d.workspace.cwd = c.workspace.cwd := by
  cases h <;> rfl

theorem Conducts.cwd {run : Run σ} {c d : Moment σ} (h : run.Conducts steps c x d) :
    d.workspace.cwd = c.workspace.cwd := by
  induction h with
  | done => rfl
  | step hdoes _ ih => exact ih.trans hdoes.cwd
  | stop hfails => exact hfails.cwd

/-! ## Exchanges of steps in order -/

/-- What a step that succeeds adds to the record are exchanges with its requests. -/
theorem Does.requests (h : run.recorded.Does step c d) :
    ∃ new, d.exchanges = c.exchanges ++ new ∧
      new.map Exchange.request = (run.request? c.workspace.cwd step).toList := by
  cases hrequest : run.request? c.workspace.cwd step with
  | none => exact ⟨[], by simp [h.quiet hrequest], rfl⟩
  | some request =>
    obtain ⟨output, -, hexchanges⟩ := h.asks hrequest
    exact ⟨_, hexchanges, rfl⟩

theorem Fails.requests (h : run.recorded.Fails step c failure d) :
    ∃ new, d.exchanges = c.exchanges ++ new ∧
      new.map Exchange.request = (run.request? c.workspace.cwd step).toList := by
  cases hrequest : run.request? c.workspace.cwd step with
  | none => exact ⟨[], by simp [h.quiet hrequest], rfl⟩
  | some request =>
    obtain ⟨answer, -, hexchanges⟩ := h.asks hrequest
    exact ⟨_, hexchanges, rfl⟩

/-- When all steps are done, the requests are those of the steps. -/
theorem Conducts.requests (h : run.recorded.Conducts steps c .completed d) :
    ∃ new, d.exchanges = c.exchanges ++ new ∧
      new.map Exchange.request = steps.filterMap (run.request? c.workspace.cwd) := by
  generalize hx : Conclusion.completed = x at h
  induction h with
  | done => exact ⟨[], by simp, rfl⟩
  | stop _ => cases hx
  | step hdoes _ ih =>
    obtain ⟨first, hfirst, hrequest⟩ := hdoes.requests
    obtain ⟨rest, hrest, hrequests⟩ := ih hx
    refine ⟨first ++ rest, by rw [hrest, hfirst, List.append_assoc], ?_⟩
    -- The requests that follow are made from the same directory.
    rw [List.map_append, hrequest, hrequests, hdoes.cwd, List.filterMap_cons]
    cases run.request? _ _ <;> rfl

/-- However steps end, the requests are those of the first of them. -/
theorem Conducts.asked (h : run.recorded.Conducts steps c x d) :
    ∃ asked new, asked <+: steps ∧ d.exchanges = c.exchanges ++ new ∧
      new.map Exchange.request = asked.filterMap (run.request? c.workspace.cwd) := by
  cases x with
  | completed =>
    obtain ⟨new, hnew, hrequests⟩ := h.requests
    exact ⟨steps, new, List.prefix_rfl, hnew, hrequests⟩
  | stopped step failure =>
    obtain ⟨before, after, c', rfl, hbefore, hfails⟩ := h.stopped_split
    obtain ⟨new, hnew, hrequests⟩ := hbefore.requests
    obtain ⟨last, hlast, hrequest⟩ := hfails.requests
    refine ⟨before ++ [step], new ++ last, ⟨after, by simp⟩, ?_, ?_⟩
    · rw [hlast, hnew, List.append_assoc]
    · rw [List.map_append, hrequests, hrequest, hbefore.cwd, List.filterMap_append]
      cases hstep : run.request? c.workspace.cwd step <;> simp [hstep]

/-- What stands at the one new place of a list that goes on. -/
theorem getElem?_of_added {α : Type} {old rest : List α} {added e : α} {i : Nat}
    (h : (old ++ [added] ++ rest)[i]? = some e) (hold : old.length ≤ i) (hi : i < old.length + 1) :
    e = added ∧ (old ++ [added] ++ rest).take i = old := by
  obtain rfl : i = old.length := by omega
  rw [List.append_assoc] at h ⊢
  rw [List.getElem?_append_right hold, Nat.sub_self] at h
  refine ⟨(Option.some.inj h).symm, ?_⟩
  rw [List.take_left]

/-- An exchange of some steps was made at one of them, after what was done before. -/
theorem Conducts.exchange_split (h : run.recorded.Conducts steps c x d) {i : Nat} {e : Exchange}
    (he : d.exchanges[i]? = some e) (hnew : c.exchanges.length ≤ i) :
    ∃ before step after c', steps = before ++ step :: after ∧
      run.recorded.Conducts before c .completed c' ∧
      run.request? c'.workspace.cwd step = some e.request ∧ e.workspace = c'.workspace ∧
      c'.exchanges = d.exchanges.take i := by
  have hlt := (List.getElem?_eq_some_iff.mp he).1
  induction h with
  | done => omega
  | @stop step steps c d failure hfails =>
    cases hrequest : run.request? c.workspace.cwd step with
    | none =>
      rw [hfails.quiet hrequest] at hlt
      omega
    | some request =>
      obtain ⟨answer, -, hasked⟩ := hfails.asks hrequest
      rw [← List.append_nil (c.exchanges ++ _)] at hasked
      rw [hasked] at he hlt ⊢
      obtain ⟨rfl, htake⟩ := getElem?_of_added he hnew (by simpa using hlt)
      exact ⟨[], step, steps, c, rfl, .done, hrequest, rfl, htake.symm⟩
  | @step step steps c c' d x hdoes hrest ih =>
    by_cases hlater : c'.exchanges.length ≤ i
    · obtain ⟨before, step', after, c'', rfl, hbefore, hrequest, hworkspace, htake⟩ :=
        ih he hlater hlt
      exact ⟨step :: before, step', after, c'', rfl, .step hdoes hbefore, hrequest, hworkspace,
        htake⟩
    -- The exchange was made before the rest of the steps, hence at this one.
    · cases hrequest : run.request? c.workspace.cwd step with
      | none =>
        rw [hdoes.quiet hrequest] at hlater
        omega
      | some request =>
        obtain ⟨output, -, hasked⟩ := hdoes.asks hrequest
        obtain ⟨asked, rest, -, hrest', -⟩ := hrest.asked
        rw [hasked] at hrest' hlater
        rw [hrest'] at he ⊢
        obtain ⟨rfl, htake⟩ := getElem?_of_added he hnew (by simpa using hlater)
        exact ⟨[], step, steps, c, rfl, .done, hrequest, rfl, htake.symm⟩

end Run

end GoldenRun
