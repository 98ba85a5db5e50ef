import GoldenRun.Proofs.Run.ActiveFile
import GoldenRun.Proofs.Run.Likeness

/-!
# What a run tolerates

How a build went is of no consequence for a run, and neither is how the tool ended when it resolved
a target: both are only told of.  Two runners that differ in nothing else lead to the same run.  A
replay is another matter, since one that does not succeed aborts the run.

* `Runner.AgreesWith`: runners that agree at the same place of the same history, as far as it
  matters
* `Conducts.replays_succeed`: a replay that does not succeed is the end of its run
* `launch_tolerates`: runs with such runners make the same requests, end at the same place and leave
  the same files
-/

namespace GoldenRun

variable {σ τ : Type}

/-! ## Runners that agree as far as it matters -/

/-- Outputs between which a run makes no difference, by what was asked for: builds may write and
end in any way, resolutions may end in any way, and replays must be the same. -/
def Purpose.Tolerates : Purpose → Captured → Captured → Prop
  | .build, _, _ => True
  | .resolve, output, output' => output'.text = output.text
  | .replay, output, output' => output' = output

/-- What a runner remembers after some calls. -/
def Runner.after (runner : Runner σ) (memory : σ) (history : List (Request × Workspace)) : σ :=
  history.foldl (fun memory call => (runner call.1 call.2 memory).2.2) memory

theorem Runner.after_concat (runner : Runner σ) (memory : σ) (history : List (Request × Workspace))
    (request : Request) (w : Workspace) :
    runner.after memory (history ++ [(request, w)]) =
      (runner request w (runner.after memory history)).2.2 :=
  List.foldl_concat ..

/--
Two runners that agree at the same place of the same history.

They leave the same files, and they give the same answer up to what a run tolerates.  To give up is
no answer: there they agree altogether.
-/
def Runner.AgreesWith (runner : Runner σ) (memory : σ) (runner' : Runner τ) (memory' : τ) : Prop :=
  ∀ history request w,
    (runner' request w (runner'.after memory' history)).2.1 =
        (runner request w (runner.after memory history)).2.1 ∧
      AnswersAlike request.purpose.Tolerates
        (runner request w (runner.after memory history)).1
        (runner' request w (runner'.after memory' history)).1

/-- Whether an event only tells that a build or a resolution did not succeed. -/
def Event.isTolerated : Event → Bool
  | .buildFailed _ _ => true
  | .resolveFailed _ _ => true
  | _ => false

/-- Whether an entry of the log tells more than that. -/
def Happening.isLasting (h : Happening) : Bool := !h.event?.any Event.isTolerated

/-- A defect, with no more than the text of an output that lacks a line. -/
def Defect.withoutEnding : Defect → Defect
  | .mismatch f missing output => .mismatch f missing { text := output.text }
  | defect => defect

/-- A verdict, with no more than the text of an output that lacks a line. -/
def Verdict.withoutEnding : Verdict → Verdict
  | .passed checked => .passed checked
  | .aborted suite fixture defect => .aborted suite fixture defect.withoutEnding

theorem filter_isLasting_eventUnless {log : List Happening} {well : Bool} {event : Event}
    (h : event.isTolerated = true) :
    (log ++ Run.eventUnless well event).filter Happening.isLasting =
      log.filter Happening.isLasting := by
  cases well <;> simp [Run.eventUnless, Happening.isLasting, Happening.event?, h]

/-- Two runs with runners that agree as far as it matters. -/
def Likeness.tolerant (runner : Runner σ) (memory : σ) (runner' : Runner τ) (memory' : τ) :
    Likeness σ τ where
  disk := Eq
  memory m m' := ∃ history, m = runner.after memory history ∧ m' = runner'.after memory' history
  log l l' := l'.filter Happening.isLasting = l.filter Happening.isLasting
  output := Purpose.Tolerates
  copy := copy_of_eq
  readText := readText_of_eq
  replay h := h
  text h := h
  refl _ := rfl
  append h more := by rw [List.filter_append, List.filter_append, h]
  buildFailed h _ f request := by
    rw [filter_isLasting_eventUnless rfl, filter_isLasting_eventUnless rfl, h]
  resolveFailed h _ f := by
    rw [filter_isLasting_eventUnless rfl, filter_isLasting_eventUnless rfl, h]

theorem Runner.AgreesWith.runners {runner : Runner σ} {memory : σ} {runner' : Runner τ}
    {memory' : τ} (h : runner.AgreesWith memory runner' memory') :
    (Likeness.tolerant runner memory runner' memory').Runners runner runner' := by
  rintro request w ⟨disk, cwd, env⟩ _ _ rfl rfl rfl ⟨history, rfl, rfl⟩
  obtain ⟨hdisk, hanswer⟩ := h history request w
  refine ⟨hanswer, hdisk.symm, history ++ [(request, w)], ?_, ?_⟩
  · exact (runner.after_concat ..).symm
  · exact (runner'.after_concat ..).symm

theorem Likeness.Outcomes.withoutEnding {runner : Runner σ} {memory : σ} {runner' : Runner τ}
    {memory' : τ} {outcome outcome' : Except Failure Verdict}
    (h : (Likeness.tolerant runner memory runner' memory').Outcomes outcome outcome') :
    outcome'.map Verdict.withoutEnding = outcome.map Verdict.withoutEnding := by
  cases h with
  | same => rfl
  | @mismatch suite fixture f missing output output' h =>
    have htext : output'.text = output.text := h
    simp only [Except.map, Verdict.withoutEnding, Defect.withoutEnding, htext]

namespace Progress

variable {p : Progress σ} {p' : Progress τ}

theorem requests_of_isLasting
    (h : p'.log.filter Happening.isLasting = p.log.filter Happening.isLasting) :
    p'.requests = p.requests := by
  have hrequests : ∀ log : List Happening, log.filterMap Happening.request? =
      (log.filter Happening.isLasting).filterMap Happening.request? := by
    intro log
    rw [List.filterMap_filter]
    refine List.filterMap_congr fun entry _ => ?_
    cases entry with
    | published event => simp [Happening.request?]
    | _ => rfl
  unfold requests
  rw [hrequests, hrequests p.log, h]

theorem events_of_isLasting
    (h : p'.log.filter Happening.isLasting = p.log.filter Happening.isLasting) :
    p'.events.filter (!·.isTolerated) = p.events.filter (!·.isTolerated) := by
  have hevents : ∀ log : List Happening,
      (log.filterMap Happening.event?).filter (!·.isTolerated) =
        (log.filter Happening.isLasting).filterMap Happening.event? := by
    intro log
    rw [List.filterMap_filter, List.filter_filterMap]
    refine List.filterMap_congr fun entry _ => ?_
    cases entry with
    | published event => simp [Happening.isLasting, Happening.event?, Option.filter]
    | _ => rfl
  unfold events
  rw [hevents, hevents p.log, h]

end Progress

namespace Run

/-! ## Replays -/

variable {run : Run σ} {step : Step} {steps : List Step} {c d : Moment (σ × List Exchange)}
  {failure : Failure} {x : Conclusion}

/-- With a step that succeeds, a replay was answered with a success. -/
theorem Does.replays_succeed (h : run.recorded.Does step c d) :
    ∃ new, d.exchanges = c.exchanges ++ new ∧ ∀ e ∈ new, e.request.purpose = .replay →
      ∀ output, e.answer = .ok output → output.succeeded = true := by
  cases hrequest : run.request? c.workspace.cwd step with
  | none => exact ⟨[], by simp [h.quiet hrequest], by simp⟩
  | some request =>
    obtain ⟨output, hanswer, hexchanges⟩ := h.asks hrequest
    refine ⟨_, hexchanges, fun e he hpurpose output' houtput => ?_⟩
    obtain rfl := List.mem_singleton.mp he
    obtain rfl := Except.ok.inj houtput
    obtain ⟨f, rfl⟩ := eq_replay_of_purpose hrequest hpurpose
    obtain rfl := Option.some.inj hrequest
    cases h with
    | replay hanswer' hsucceeded =>
      cases (Runner.recorded_eq_iff.mp hanswer').1.symm.trans hanswer
      exact hsucceeded

/-- With a step that fails, a replay that was answered is what did not succeed. -/
theorem Fails.replays_fail (h : run.recorded.Fails step c failure d) :
    ∃ new, d.exchanges = c.exchanges ++ new ∧ ∀ e ∈ new, e.request.purpose = .replay →
      ∀ output, e.answer = .ok output →
        ∃ f, step = .replay f ∧ failure = .defect (.replayFailed f.name output) := by
  cases hrequest : run.request? c.workspace.cwd step with
  | none => exact ⟨[], by simp [h.quiet hrequest], by simp⟩
  | some request =>
    obtain ⟨answer, hanswer, hexchanges⟩ := h.asks hrequest
    refine ⟨_, hexchanges, fun e he hpurpose output houtput => ?_⟩
    obtain rfl := List.mem_singleton.mp he
    obtain rfl : answer = .ok output := houtput
    obtain ⟨f, rfl⟩ := eq_replay_of_purpose hrequest hpurpose
    refine ⟨f, rfl, ?_⟩
    obtain rfl := Option.some.inj hrequest
    cases h with
    | raised hrequest' hanswer' =>
      obtain rfl := Option.some.inj hrequest'
      cases (Runner.recorded_eq_iff.mp hanswer').1.symm.trans hanswer
    | replay hanswer' _ =>
      cases (Runner.recorded_eq_iff.mp hanswer').1.symm.trans hanswer
      rfl

/-- **A replay that does not succeed is the end of its run.** -/
theorem Conducts.replays_succeed (h : run.recorded.Conducts steps c x d) :
    ∃ new, d.exchanges = c.exchanges ++ new ∧ ∀ e ∈ new, e.request.purpose = .replay →
      ∀ output, e.answer = .ok output → output.succeeded = false →
        ∃ f, .replay f ∈ steps ∧
          x = .stopped (.replay f) (.defect (.replayFailed f.name output)) := by
  induction h with
  | done => exact ⟨[], by simp, by simp⟩
  | step hdoes _ ih =>
    obtain ⟨first, hfirst, hsucceed⟩ := hdoes.replays_succeed
    obtain ⟨rest, hrest, hends⟩ := ih
    refine ⟨first ++ rest, by rw [hrest, hfirst, List.append_assoc], ?_⟩
    intro e he hpurpose output houtput hfailed
    rcases List.mem_append.mp he with he | he
    · rw [hsucceed e he hpurpose output houtput] at hfailed
      cases hfailed
    · obtain ⟨f, hf, hx⟩ := hends e he hpurpose output houtput hfailed
      exact ⟨f, List.mem_cons_of_mem _ hf, hx⟩
  | stop hfails =>
    obtain ⟨new, hnew, hfail⟩ := hfails.replays_fail
    refine ⟨new, hnew, fun e he hpurpose output houtput _ => ?_⟩
    obtain ⟨f, rfl, rfl⟩ := hfail e he hpurpose output houtput
    exact ⟨f, List.mem_cons_self, rfl⟩

/-! ## Whole runs -/

/--
**How builds and resolutions end is tolerated, and how replays end is not.**

Two runs from the same workspace, with runners that agree as far as it matters, make the same
requests, end at the same place for the same reason and leave the same files.  They also tell the
same, but for the builds and resolutions that did not succeed.  In each of them a replay that did
not succeed is what the run was aborted for.
-/
theorem launch_tolerates {runner' : Runner τ} {memory : σ} {memory' : τ}
    (h : run.runner.AgreesWith memory runner' memory') (selection : Option (List Kind))
    (w : Workspace) :
    ((run.withRunner runner').launch selection w memory').1.map Verdict.withoutEnding =
        (run.launch selection w memory).1.map Verdict.withoutEnding ∧
      ((run.withRunner runner').launch selection w memory').2.workspace =
        (run.launch selection w memory).2.workspace ∧
      ((run.withRunner runner').launch selection w memory').2.state.requests =
        (run.launch selection w memory).2.state.requests ∧
      ((run.withRunner runner').launch selection w memory').2.state.events.filter
          (!·.isTolerated) =
        (run.launch selection w memory).2.state.events.filter (!·.isTolerated) ∧
      ∀ e ∈ run.exchanges selection ⟨w, { runner := memory }⟩, e.request.purpose = .replay →
        ∀ output, e.answer = .ok output → output.succeeded = false →
          ∃ f ∈ run.catalog.traces, (run.launch selection w memory).1 =
            .ok (.aborted .trace f.name (.replayFailed f.name output)) := by
  have hs : (Likeness.tolerant run.runner memory runner' memory').Around
      ⟨w, { runner := memory }⟩ ⟨w, { runner := memory' }⟩ :=
    ⟨rfl, rfl, rfl, ⟨[], rfl, rfl⟩, rfl⟩
  obtain ⟨houtcome, hleft⟩ := Likeness.suites h.runners hs 0 (selected selection)
  refine ⟨houtcome.withoutEnding, ?_, Progress.requests_of_isLasting hleft.log,
    Progress.events_of_isLasting hleft.log, fun e he hpurpose output houtput hfailed => ?_⟩
  · exact hleft.workspace_eq (Eq.symm hleft.disk)
  · obtain ⟨x, d, hsteps, hperform, hexchanges⟩ :=
      verdict_recorded run selection ⟨w, { runner := memory }⟩
    obtain ⟨new, hnew, hends⟩ := hsteps.replays_succeed
    rw [hexchanges, hnew] at he
    obtain ⟨f, hf, rfl⟩ := hends e he hpurpose output houtput hfailed
    refine ⟨f, mem_fixtures_of_plan hf rfl, ?_⟩
    unfold launch
    rw [hperform]
    rfl

/-- A runner that counts: no build succeeds, and a resolution succeeds only if it comes first. -/
def failingRunner : Runner Nat := fun request w count =>
  match request.purpose with
  | .build => (.ok { text := "no such target", exitCode := some 101 }, w.disk, count + 1)
  | .resolve => (.ok { exitCode := some count }, w.disk, count + 1)
  | .replay => (.ok {}, w.disk, count + 1)

theorem launch_tolerates_failingRunner :
    smallRun.runner.AgreesWith () failingRunner 0 ∧
      ((smallRun.withRunner failingRunner).launch none smallTree.workspace 0).2.state.events ≠
        (smallRun.launch none smallTree.workspace ()).2.state.events ∧
      (smallRun.launch none smallTree.workspace ()).1 = .ok (.passed 4) ∧
      ((smallRun.withRunner failingRunner).launch none smallTree.workspace 0).1.map
        Verdict.withoutEnding = .ok (.passed 4) := by
  have hagree : smallRun.runner.AgreesWith () failingRunner 0 := by
    intro history request w
    unfold failingRunner
    cases hpurpose : request.purpose with
    | build => exact ⟨rfl, .ok trivial⟩
    | resolve => exact ⟨rfl, .ok rfl⟩
    | replay => exact ⟨rfl, .ok rfl⟩
  have hpassed : (smallRun.launch none smallTree.workspace ()).1 = .ok (.passed 4) := by
    decide +kernel
  refine ⟨hagree, by decide +kernel, hpassed, ?_⟩
  rw [(launch_tolerates hagree none smallTree.workspace).1, hpassed]
  rfl

end Run

end GoldenRun
