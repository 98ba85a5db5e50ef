import GoldenRun.Proofs.Disk.Reading
import GoldenRun.Proofs.Run.Preservation

/-!
# The match of a fixture

The expected output of a fixture is read when its match is due.  Until then builds and tools may
have taken it away, and a catalog that was only scanned may never have had it.

* `Conducts.resume`: from a moment that a run reaches, the run goes on as the rest of its plan
* `match_decided_iff`: a match decides on its fixture exactly if the expected output is a file; if
  not, the run is not aborted but ends with the words of the system
* `lost_output_not_aborted`: a run in which this happens
-/

namespace GoldenRun

open GoldenRun.Text

namespace Run

variable {σ : Type} {run : Run σ} {selection : Option (List Kind)} {s : Surroundings (Progress σ)}
  {suite : Kind} {f : Fixture} {step : Step} {steps before after : List Step} {c d e : Moment σ}
  {x : Conclusion}

/-! ## The log only grows -/

theorem Does.log_grows (h : run.Does step c d) : c.state.log <+: d.state.log := by
  cases h <;>
    simp [Surroundings.tell, Surroundings.after, Surroundings.hear, Progress.note, Progress.hear]

theorem Fails.log_grows {failure : Failure} (h : run.Fails step c failure d) :
    c.state.log <+: d.state.log := by
  cases h <;> simp [Surroundings.after, Surroundings.hear, Progress.note, Progress.hear]

theorem Conducts.log_grows (h : run.Conducts steps c x d) : c.state.log <+: d.state.log := by
  induction h with
  | done => exact List.prefix_rfl
  | step hdoes _ ih => exact hdoes.log_grows.trans ih
  | stop hfails => exact hfails.log_grows

/-! ## From a moment on -/

/-- From a moment that was reached the steps that are left go on. -/
theorem Conducts.resume (hbefore : run.Conducts before c .completed d)
    (h : run.Conducts (before ++ after) c x e) : run.Conducts after d x e := by
  generalize hy : Conclusion.completed = y at hbefore
  induction hbefore with
  | done => exact h
  | stop _ => cases hy
  | step hdoes _ ih =>
    cases h with
    | step hdoes' hrest =>
      rw [← hdoes.unique hdoes'] at hrest
      exact ih hrest hy
    | stop hfails => exact (hdoes.not_fails hfails).elim

/-- In the run that begins at `s` the match of a fixture is due at `c`. -/
def MatchDue (run : Run σ) (selection : Option (List Kind)) (s : Surroundings (Progress σ))
    (suite : Kind) (f : Fixture) (c : Moment σ) : Prop :=
  ∃ before after, run.plan selection = before ++ .judge suite f :: after ∧
    run.Conducts before ⟨s, none⟩ .completed c

/-- The match that is due at `c` decides on the fixture: either the fixture is told to have passed,
or the run is aborted there and then, at this suite and this fixture. -/
def DecidesOn (run : Run σ) (selection : Option (List Kind)) (s : Surroundings (Progress σ))
    (suite : Kind) (f : Fixture) (c : Moment σ) : Prop :=
  c.state.log ++ [.published (.passed suite f)] <+:
      ((run.verdict selection).perform s).2.state.log ∨
    ∃ defect, (run.verdict selection).perform s = (.ok (.aborted suite f.name defect),
      c.toSurroundings)

/-- A match whose expected output is a file decides on its fixture; otherwise the run ends with what
the system says. -/
theorem MatchDue.decides_or_refused (hdue : run.MatchDue selection s suite f c) :
    (c.workspace.disk.isFile c.workspace.cwd f.expectedPath = true ∧
      run.DecidesOn selection s suite f c) ∨
    ∃ error, c.workspace.disk.Refuses c.workspace.cwd f.expectedPath error ∧
      (run.verdict selection).perform s = (.error (.disk error), c.toSurroundings) := by
  obtain ⟨before, after, hplan, hbefore⟩ := hdue
  obtain ⟨x, e, hsteps, hverdict⟩ := verdict_conducts run selection s
  rw [hplan] at hsteps
  have hmatch : run.Conducts (.judge suite f :: after) c x e := hbefore.resume hsteps
  unfold DecidesOn
  rw [hverdict]
  -- The match is the next step, and it goes in one of four ways.
  cases hmatch with
  | step hdoes hrest =>
    cases hdoes with
    | judge hread hparse hlines =>
      exact .inl ⟨Disk.isFile_of_readText hread, .inl hrest.log_grows⟩
  | stop hfails =>
    cases hfails with
    | raised hrequest _ => cases hrequest
    | unreadable hread => exact .inr ⟨_, Disk.refuses_of_readText hread, rfl⟩
    | blank hread hparse => exact .inl ⟨Disk.isFile_of_readText hread, .inr ⟨_, rfl⟩⟩
    | mismatch hread hparse hmissing => exact .inl ⟨Disk.isFile_of_readText hread, .inr ⟨_, rfl⟩⟩

/--
**A match decides on its fixture exactly if the expected output is a file.**

If it is not, the fixture neither passes nor is the run aborted.  The run ends, where the match is
due, with what the system says of the path; the suite and the fixture are not named in it.
-/
theorem match_decided_iff (hdue : run.MatchDue selection s suite f c) :
    (run.DecidesOn selection s suite f c ↔
      c.workspace.disk.isFile c.workspace.cwd f.expectedPath = true) ∧
    (c.workspace.disk.isFile c.workspace.cwd f.expectedPath = false →
      ∃ error, c.workspace.disk.Refuses c.workspace.cwd f.expectedPath error ∧
        (run.verdict selection).perform s = (.error (.disk error), c.toSurroundings)) := by
  rcases hdue.decides_or_refused with ⟨hfile, hdecides⟩ | ⟨error, hrefuses, hverdict⟩
  · exact ⟨⟨fun _ => hfile, fun _ => hdecides⟩, fun hno => by simp [hfile] at hno⟩
  · have hno := Disk.isFile_eq_false_iff_refuses.mpr ⟨error, hrefuses⟩
    have hundecided : ¬ run.DecidesOn selection s suite f c := by
      unfold DecidesOn
      rw [hverdict]
      rintro (hpassed | ⟨defect, haborted⟩)
      -- The log at the end is the log at the match, without another entry.
      · simpa using hpassed.length_le
      · cases (Prod.mk.inj haborted).1
    exact ⟨⟨fun hdecides => (hundecided hdecides).elim, fun hfile => by simp [hno] at hfile⟩,
      fun _ => ⟨error, hrefuses, hverdict⟩⟩

/-- A tree with one trace. -/
def oneTraceTree : Workspace where
  disk := ⟨[(["tree"], .directory), (["tree", "traces"], .directory),
    (["tree", "traces", "a.trace"], .file [] false), (["tree", "out"], .directory),
    (["tree", "out", "trace-a.run"], .file [] false)]⟩
  cwd := ["tree"]
  env := []

/-- A run over that tree whose tool succeeds, and takes the expected output away. -/
def removingRun : Run Unit where
  catalog := ⟨"/tree", [], [], [.describe "/tree" .trace "a"]⟩
  config := .default
  tool := "/bin/tool"
  env := []
  runner := fun _ w memory => (.ok {}, w.disk.remove ["tree", "out", "trace-a.run"], memory)

theorem load_oneTraceTree : Catalog.load oneTraceTree "/tree" = .ok removingRun.catalog :=
  Catalog.load_eq_ok_iff.mpr
    ⟨Catalog.scan_of_listed rfl (by decide +kernel), by decide +kernel⟩

theorem match_decided_removingRun :
    ∃ c, removingRun.MatchDue (some [.trace]) ⟨oneTraceTree, { runner := () }⟩ .trace
        (.describe "/tree" .trace "a") c ∧
      c.workspace.disk.isFile c.workspace.cwd "/tree/out/trace-a.run" = false ∧
      ¬ removingRun.DecidesOn (some [.trace]) ⟨oneTraceTree, { runner := () }⟩ .trace
        (.describe "/tree" .trace "a") c ∧
      ∃ error, (removingRun.verdict (some [.trace])).perform ⟨oneTraceTree, { runner := () }⟩ =
        (.error (.disk error), c.toSurroundings) := by
  have hstart : removingRun.Does (.start .trace 1) ⟨⟨oneTraceTree, { runner := () }⟩, none⟩ _ :=
    .start
  have hreplay : removingRun.Does (.replay (.describe "/tree" .trace "a"))
      ⟨Surroundings.tell ⟨oneTraceTree, { runner := () }⟩ (.suiteStarted .trace 1), none⟩ _ :=
    .replay rfl (by decide +kernel)
  have hdue : removingRun.MatchDue (some [.trace]) _ .trace (.describe "/tree" .trace "a") _ :=
    ⟨[.start .trace 1, .replay (.describe "/tree" .trace "a")], [], by decide +kernel,
      .step hstart (.step hreplay .done)⟩
  have hlost : (oneTraceTree.disk.remove ["tree", "out", "trace-a.run"]).isFile ["tree"]
      "/tree/out/trace-a.run" = false := by decide +kernel
  obtain ⟨hdecided, hends⟩ := match_decided_iff hdue
  obtain ⟨error, -, hverdict⟩ := hends hlost
  refine ⟨_, hdue, hlost, fun hdecides => ?_, error, hverdict⟩
  cases hlost.symm.trans (hdecided.mp hdecides)

/-- **A fixture may be lost during a run, and the run is not aborted for it**: the tree is loaded,
no command fails, and the run ends with the words of the system for the missing file. -/
theorem lost_output_not_aborted :
    Catalog.load oneTraceTree "/tree" = .ok removingRun.catalog ∧
      (∀ request w memory, ∃ output, (removingRun.runner request w memory).1 = .ok output) ∧
      (removingRun.launch (some [.trace]) oneTraceTree ()).1 =
        .error (.disk (.failed .notFound "open" (some "/tree/out/trace-a.run") none)) :=
  ⟨load_oneTraceTree, fun _ _ _ => ⟨_, rfl⟩, by decide +kernel⟩

end Run

end GoldenRun
