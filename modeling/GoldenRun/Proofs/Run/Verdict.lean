import GoldenRun.Proofs.Run.Record
import Mathlib.Data.List.Forall2

/-!
# When a run passes

A run passes exactly when every step of its plan succeeds, and then it has checked the fixtures of
the selected suites.

* `Run.Matched`: the tool was run for a fixture, and what it wrote matches the expected output as it
  stood then
* `Conducts.suites_matched`: along suites that are done, the exchanges with the tool are those of
  the fixtures, one each, and all of them match
* `passed_iff`: soundness and completeness of the verdict
-/

namespace GoldenRun

variable {σ : Type}

/-- Whether a request went to the tool.  Only such requests bring an environment; a build takes that
of the harness. -/
def Exchange.withTool (e : Exchange) : Bool := e.request.env.isSome

namespace Run

/-- The fixtures of a suite, each with the suite. -/
def suiteChecks (run : Run σ) (suite : Kind) : List (Kind × Fixture) :=
  (run.catalog.fixtures suite).map (suite, ·)

/-- What a run checks, in order. -/
def checks (run : Run σ) (selection : Option (List Kind)) : List (Kind × Fixture) :=
  (selected selection).flatMap run.suiteChecks

/--
The tool was run for a fixture, and its output matches.

The expected output is read from the disk that the tool left.
-/
structure Matched (run : Run σ) (cwd : Location) (check : Kind × Fixture) (e : Exchange) :
    Prop where
  /-- It is the request for this fixture. -/
  request : e.request = run.toolRequest cwd check.1 check.2
  /-- Each line of its expected output stands in the output. -/
  output : ∃ output text lines, e.answer = .ok output ∧
    (check.1 = .trace → output.succeeded = true) ∧
    e.disk.readText cwd check.2.expectedPath = .ok text ∧
    Expected.parse run.config.blankLines text = .ok lines ∧
    ∀ line ∈ lines, line.text.toList <:+: output.text.toList

variable {run : Run σ} {suite : Kind} {f : Fixture} {c d : Moment (σ × List Exchange)}

theorem withTool_of_request {cwd : Location} {e : Exchange}
    (h : e.request = run.toolRequest cwd suite f) : e.withTool = true := by
  rw [Exchange.withTool, h]
  cases suite <;> rfl

/-- Before the tool is run for a fixture, it is not run. -/
theorem env_of_mem_leadSteps {cwd : Location} {request : Request}
    (h : request ∈ (leadSteps suite f).filterMap (run.request? cwd)) : request.env = none := by
  cases suite with
  | manifest => simp [leadSteps, request?] at h
  | trace => simp [leadSteps] at h
  | binary =>
    obtain ⟨step, hstep, hrequest⟩ := List.mem_filterMap.mp h
    obtain rfl := List.mem_singleton.mp hstep
    simp only [request?] at hrequest
    split at hrequest
    · obtain rfl := Option.some.inj hrequest
      rfl
    · cases hrequest

/-- The steps of a fixture up to the run of the tool: the tool is run once, and its output is there
to be judged on the disk that it left. -/
theorem Conducts.fixture_asked
    (h : run.recorded.Conducts (leadSteps suite f ++ [run.toolStep suite f]) c .completed d) :
    ∃ lead e output, d.exchanges = c.exchanges ++ (lead ++ [e]) ∧
      lead.filter Exchange.withTool = [] ∧
      e.request = run.toolRequest c.workspace.cwd suite f ∧ e.answer = .ok output ∧
      e.disk = d.workspace.disk ∧ d.output = some output ∧
      (suite = .trace → output.succeeded = true) := by
  obtain ⟨c', hlead, htool⟩ := h.split
  obtain ⟨lead, hexchanges, hrequests⟩ := hlead.requests
  cases htool with
  | step htool hdone =>
    cases hdone
    obtain ⟨output, houtput, hsucceeded, hasked⟩ := htool.hears
    refine ⟨lead, ⟨run.toolRequest c'.workspace.cwd suite f, c'.workspace, .ok output,
      d.workspace.disk⟩, output, ?_, ?_, ?_, rfl, rfl, houtput, hsucceeded⟩
    · rw [hasked, hexchanges, List.append_assoc]
    -- What comes before is a build at most, and that does not go to the tool.
    · rw [List.filter_eq_nil_iff]
      intro e he
      have hmem : e.request ∈ lead.map Exchange.request := List.mem_map_of_mem he
      rw [hrequests] at hmem
      simp [Exchange.withTool, env_of_mem_leadSteps hmem]
    · rw [hlead.cwd]

/-- A fixture that passed was checked with one run of the tool, and it matched. -/
theorem Conducts.fixture_matched
    (h : run.recorded.Conducts (run.fixtureSteps suite f) c .completed d) :
    ∃ new, d.exchanges = c.exchanges ++ new ∧
      List.Forall₂ (run.Matched c.workspace.cwd) [(suite, f)] (new.filter Exchange.withTool) := by
  have hsteps : run.fixtureSteps suite f =
      (leadSteps suite f ++ [run.toolStep suite f]) ++ [.judge suite f] := by
    rw [fixtureSteps_eq, List.append_assoc]
    rfl
  rw [hsteps] at h
  obtain ⟨c', hasked, hjudge⟩ := h.split
  have hcwd := hasked.cwd
  obtain ⟨lead, e, output, hexchanges, hlead, hrequest, hanswer, hdisk, houtput, hsucceeded⟩ :=
    hasked.fixture_asked
  cases hjudge with
  | step hjudge hdone =>
    cases hdone
    cases hjudge with
    | judge hread hparse hlines =>
      obtain rfl := Option.some.inj houtput
      refine ⟨lead ++ [e], hexchanges, ?_⟩
      rw [List.filter_append, hlead, List.nil_append,
        List.filter_cons_of_pos (withTool_of_request hrequest)]
      refine .cons ⟨hrequest, _, _, _, hanswer, hsucceeded, ?_, hparse, hlines⟩ .nil
      rw [hdisk, ← hcwd]
      exact hread

/-- Parts of a plan that each extend the record by matching exchanges do so together. -/
theorem Conducts.flatMap_matched {α : Type} {cwd : Location} {part : α → List Step}
    {checks : α → List (Kind × Fixture)}
    (hpart : ∀ a (c d : Moment (σ × List Exchange)), c.workspace.cwd = cwd →
      run.recorded.Conducts (part a) c .completed d →
      ∃ new, d.exchanges = c.exchanges ++ new ∧
        List.Forall₂ (run.Matched cwd) (checks a) (new.filter Exchange.withTool))
    {parts : List α} (hcwd : c.workspace.cwd = cwd)
    (h : run.recorded.Conducts (parts.flatMap part) c .completed d) :
    ∃ new, d.exchanges = c.exchanges ++ new ∧
      List.Forall₂ (run.Matched cwd) (parts.flatMap checks) (new.filter Exchange.withTool) := by
  induction parts generalizing c with
  | nil =>
    cases h
    exact ⟨[], by simp, .nil⟩
  | cons a parts ih =>
    rw [List.flatMap_cons] at h
    obtain ⟨c', hfirst, hrest⟩ := h.split
    obtain ⟨first, hexchanges, hmatched⟩ := hpart a c c' hcwd hfirst
    obtain ⟨rest, hexchanges', hmatched'⟩ := ih (hfirst.cwd.trans hcwd) hrest
    refine ⟨first ++ rest, by rw [hexchanges', hexchanges, List.append_assoc], ?_⟩
    rw [List.flatMap_cons, List.filter_append]
    exact List.rel_append hmatched hmatched'

theorem Conducts.opening_exchanges
    (h : run.recorded.Conducts (run.openingSteps suite) c .completed d) :
    d.exchanges = c.exchanges := by
  obtain ⟨new, hexchanges, hrequests⟩ := h.requests
  rw [requests_openingSteps] at hrequests
  rw [hexchanges, List.map_eq_nil_iff.mp hrequests, List.append_nil]

/-- The opening of a suite, and some of its fixtures. -/
theorem Conducts.fixtures_matched {fixtures : List Fixture}
    (h : run.recorded.Conducts (run.openingSteps suite ++
      fixtures.flatMap (run.fixtureSteps suite)) c .completed d) :
    ∃ new, d.exchanges = c.exchanges ++ new ∧
      List.Forall₂ (run.Matched c.workspace.cwd) (fixtures.map (suite, ·))
        (new.filter Exchange.withTool) := by
  obtain ⟨c', hopening, hfixtures⟩ := h.split
  rw [List.map_eq_flatMap, ← hopening.opening_exchanges]
  refine hfixtures.flatMap_matched (fun f c₁ d₁ hcwd hf => ?_) hopening.cwd
  rw [← hcwd]
  exact hf.fixture_matched

/-- Some suites. -/
theorem Conducts.suites_matched {suites : List Kind}
    (h : run.recorded.Conducts (suites.flatMap run.suiteSteps) c .completed d) :
    ∃ new, d.exchanges = c.exchanges ++ new ∧
      List.Forall₂ (run.Matched c.workspace.cwd) (suites.flatMap run.suiteChecks)
        (new.filter Exchange.withTool) := by
  refine h.flatMap_matched (fun suite c₁ d₁ hcwd hsuite => ?_) rfl
  rw [← hcwd]
  exact hsuite.fixtures_matched

/-- **A run passes exactly when every step of its plan succeeds.**  It has then checked the fixtures
of the selected suites, and the tool was run once for each of them. -/
theorem passed_iff (run : Run σ) (selection : Option (List Kind))
    (s t : Surroundings (Progress σ)) (n : Nat) :
    ((run.verdict selection).perform s = (.ok (.passed n), t) ↔
      n = ((selected selection).map fun suite => (run.catalog.fixtures suite).length).sum ∧
        ∃ o, run.Conducts (run.plan selection) ⟨s, none⟩ .completed ⟨t, o⟩) ∧
    ((run.verdict selection).perform s = (.ok (.passed n), t) →
      List.Forall₂ (run.Matched s.workspace.cwd) (run.checks selection)
        ((run.exchanges selection s).filter Exchange.withTool)) := by
  constructor
  · rw [perform_verdict_iff]
    constructor
    · rintro ⟨x, d, hsteps, hpassed, rfl⟩
      obtain ⟨rfl, hn⟩ := Conclusion.verdict_eq_passed_iff.mp hpassed.symm
      exact ⟨hn, d.output, hsteps⟩
    · rintro ⟨hn, o, hsteps⟩
      exact ⟨_, _, hsteps, (Conclusion.verdict_eq_passed_iff.mpr ⟨rfl, hn⟩).symm, rfl⟩
  · intro hpassed
    obtain ⟨x, d, hsteps, hperform, hexchanges⟩ := verdict_recorded run selection s
    rw [hperform] at hpassed
    obtain ⟨rfl, -⟩ := Conclusion.verdict_eq_passed_iff.mp (Prod.mk.inj hpassed).1
    obtain ⟨new, hnew, hmatched⟩ := hsteps.suites_matched
    have hall : run.exchanges selection s = new := hexchanges.trans hnew
    rw [hall]
    exact hmatched

end Run

end GoldenRun
