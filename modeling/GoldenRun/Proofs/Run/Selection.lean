import GoldenRun.Proofs.Run.Likeness

/-!
# Selections of suites

A run of several suites is a row of runs of one suite each: from one suite to the next goes nothing
but the workspace and what the runner remembers.

* `Run.inTurn`: runs of one suite each, one after the other, up to the first that does not pass
* `perform_suites_cons`, `perform_suites_checked`: the first suite of several, and what was checked
  before
* `launch_composes`: a run is such a row, of the selected suites in their usual order; how they were
  selected does not matter
-/

namespace GoldenRun

variable {σ : Type}

/-- A verdict when some fixtures had matched before; if it is aborted, they do not count. -/
def Verdict.addChecked (before : Nat) : Verdict → Verdict
  | .passed checked => .passed (before + checked)
  | .aborted suite fixture defect => .aborted suite fixture defect

theorem Conclusion.verdict_add (x : Conclusion) (before count : Nat) :
    x.verdict (before + count) = (x.verdict count).map (.addChecked before) := by
  cases x with
  | completed => rfl
  | stopped step failure => cases failure <;> rfl

namespace Run

/--
Runs of one suite each, one after the other, up to the first that does not pass.

Each of them begins with an empty log, in the workspace that the one before left and with what the
runner remembers by then.  The logs are put together, and what was checked is added up.
-/
def inTurn (run : Run σ) : List Kind → Workspace → σ →
    Except Failure Verdict × Surroundings (Progress σ)
  | [], w, memory => (.ok (.passed 0), ⟨w, { runner := memory }⟩)
  | kind :: rest, w, memory =>
    match run.launch (some [kind]) w memory with
    | (.ok (.passed checked), t) =>
      let later := run.inTurn rest t.workspace t.state.runner
      (later.1.map (.addChecked checked), later.2.following t.state.log)
    | ended => ended

/-! ## What is selected -/

theorem selected_singleton (kind : Kind) : selected (some [kind]) = [kind] := by
  cases kind <;> rfl

theorem mem_selected_iff {selection : Option (List Kind)} {kind : Kind} :
    kind ∈ selected selection ↔ ∀ kinds, selection = some kinds → kind ∈ kinds := by
  cases selection with
  | none => simp [selected, Kind.mem_all]
  | some kinds => simp [selected, Kind.mem_all]

/-- Which suites are selected depends on the names that are given only. -/
theorem selected_congr {kinds kinds' : List Kind} (h : ∀ kind, kind ∈ kinds ↔ kind ∈ kinds') :
    selected (some kinds) = selected (some kinds') := by
  refine List.filter_congr fun kind _ => ?_
  rw [Bool.eq_iff_iff]
  simp only [Option.all_some, List.contains_iff_mem, h]

/-! ## The first suite, and the others -/

variable {run : Run σ}

/-- The first of several suites is run as if it were the only one. -/
theorem perform_suites_cons (checked : Nat) (kind : Kind) (rest : List Kind)
    (s : Surroundings (Progress σ)) :
    (run.suites checked (kind :: rest)).perform s =
      match (run.suites 0 [kind]).perform s with
      | (.ok (.passed n), t) => (run.suites (checked + n) rest).perform t
      | ended => ended := by
  rcases hsuite : (run.suite kind).perform s with ⟨failure | stop, t⟩
  · have hfails : ∀ checked rest,
        (run.suites checked (kind :: rest)).perform s = (.error failure, t) :=
      fun _ _ => perform_bind_error hsuite
    rw [hfails, hfails]
  · cases stop with
    | some stop =>
      have hstops : ∀ checked rest, (run.suites checked (kind :: rest)).perform s =
          (.ok (.aborted kind stop.fixture stop.defect), t) :=
        fun _ _ => perform_bind_ok hsuite
      rw [hstops, hstops]
    | none =>
      have hpasses : ∀ checked rest, (run.suites checked (kind :: rest)).perform s =
          (run.suites (checked + (run.catalog.fixtures kind).length) rest).perform t :=
        fun _ _ => perform_bind_ok hsuite
      rw [hpasses, hpasses, Nat.zero_add]
      rfl

/-- What was checked before is added in the end. -/
theorem perform_suites_checked (checked : Nat) (kinds : List Kind)
    (s : Surroundings (Progress σ)) :
    (run.suites checked kinds).perform s =
      (((run.suites 0 kinds).perform s).1.map (.addChecked checked),
        ((run.suites 0 kinds).perform s).2) := by
  obtain ⟨x, d, hsteps, hperform⟩ := suites_conducts run kinds checked ⟨s, none⟩
  obtain ⟨x', d', hsteps', hperform'⟩ := suites_conducts run kinds 0 ⟨s, none⟩
  obtain ⟨rfl, rfl⟩ := hsteps.unique hsteps'
  rw [hperform, hperform', x.verdict_add, Nat.zero_add]

theorem perform_suites_eq_inTurn (kinds : List Kind) (w : Workspace) (memory : σ) :
    (run.suites 0 kinds).perform ⟨w, { runner := memory }⟩ = run.inTurn kinds w memory := by
  induction kinds generalizing w memory with
  | nil => rfl
  | cons kind rest ih =>
    rw [perform_suites_cons, inTurn, launch, verdict, selected_singleton]
    rcases (run.suites 0 [kind]).perform ⟨w, { runner := memory }⟩ with
      ⟨failure | ⟨n⟩ | ⟨suite, fixture, defect⟩, t⟩
    · rfl
    · -- The other suites begin with the log of the first one, but they do not look at it.
      simp only [Nat.zero_add]
      rw [perform_suites_checked, perform_suites_eq, ih]
    · rfl

/--
**A run of several suites is a row of runs of one suite each.**

The suites are those that are selected, each once and in the usual order; if no selection is made,
they are all suites.  So the order and the repetitions in a selection change nothing.
-/
theorem launch_composes (run : Run σ) (selection : Option (List Kind)) (w : Workspace)
    (memory : σ) :
    run.launch selection w memory = run.inTurn (selected selection) w memory ∧
      (selected selection).Sublist [.binary, .manifest, .trace] ∧
      (∀ kind, kind ∈ selected selection ↔ ∀ kinds, selection = some kinds → kind ∈ kinds) ∧
      (∀ kinds kinds' : List Kind, (∀ kind, kind ∈ kinds ↔ kind ∈ kinds') →
        run.launch (some kinds) w memory = run.launch (some kinds') w memory) ∧
      run.launch none w memory = run.launch (some [.binary, .manifest, .trace]) w memory := by
  refine ⟨perform_suites_eq_inTurn .., List.filter_sublist, fun kind => mem_selected_iff, ?_, rfl⟩
  intro kinds kinds' hsame
  unfold launch verdict
  rw [selected_congr hsame]

end Run

end GoldenRun
