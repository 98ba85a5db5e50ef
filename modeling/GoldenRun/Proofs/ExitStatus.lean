import GoldenRun.Program
import GoldenRun.Proofs.Action
import GoldenRun.Proofs.Fixture.Catalog
import GoldenRun.Proofs.Run.Likeness
import Mathlib.Data.List.Basic

/-!
# How the program exits when it runs suites

* `RunOrder.begin_eq_ok_iff`: what it takes to start
* `Run.perform_inRoot_eq_ok_iff`: what it takes for suites that run in the root of their tree to end
  with a verdict
* `program_exits`: the program exits successfully only if all of this and every fixture is in order;
  and if it cannot start, nothing has been run and nothing has been written
-/

namespace GoldenRun

open GoldenRun.CommandLine

variable {σ : Type}

/-! ## Starting -/

/-- The tool is what its absolute path leads to, if that is a file. -/
theorem resolveTool_eq_ok_iff {w : Workspace} {tool path : String} :
    (resolveTool w tool).mapError Failure.defect = .ok path ↔
      w.disk.isFile w.cwd (w.absolute tool) = true ∧ path = w.absolute tool := by
  unfold resolveTool
  by_cases hfile : w.disk.isFile w.cwd (w.absolute tool) = true
  · simp [hfile, eq_comm]
  · simp [hfile]

namespace CommandLine.RunOrder

/-- The run that an order means, with the configuration and the catalog that were found. -/
def run (order : RunOrder) (runner : Runner σ) (w : Workspace) (config : Config)
    (catalog : Catalog) : Run σ where
  catalog := catalog
  config := { config with timeout := order.timeout.getD config.timeout }
  tool := w.absolute order.tool
  env := w.env
  runner := runner

variable {order : RunOrder} {runner : Runner σ} {w : Workspace}

theorem begin_eq_ok_iff {run : Run σ} :
    order.begin runner w = .ok run ↔
      ∃ config catalog, Config.load w (w.fixturesRoot order.root) order.config = .ok config ∧
        w.disk.isFile w.cwd (w.absolute order.tool) = true ∧
        Catalog.load w (w.fixturesRoot order.root) = .ok catalog ∧
        run = order.run runner w config catalog := by
  constructor
  · intro h
    obtain ⟨config, hconfig, h⟩ := bind_eq_ok_iff.mp h
    obtain ⟨tool, htool, h⟩ := bind_eq_ok_iff.mp h
    obtain ⟨catalog, hcatalog, h⟩ := bind_eq_ok_iff.mp h
    obtain ⟨hfile, rfl⟩ := resolveTool_eq_ok_iff.mp htool
    exact ⟨config, catalog, hconfig, hfile, hcatalog, (Except.ok.inj h).symm⟩
  · rintro ⟨config, catalog, hconfig, hfile, hcatalog, rfl⟩
    refine bind_eq_ok_iff.mpr ⟨config, hconfig, bind_eq_ok_iff.mpr ⟨w.absolute order.tool, ?_,
      bind_eq_ok_iff.mpr ⟨catalog, hcatalog, rfl⟩⟩⟩
    exact resolveTool_eq_ok_iff.mpr ⟨hfile, rfl⟩

end CommandLine.RunOrder

/-! ## Working in the root -/

/-- The suites that run in the root of their tree end with a verdict. -/
theorem Run.perform_inRoot_eq_ok_iff {run : Run σ} {selection : Option (List Kind)}
    {s : Surroundings (Progress σ)} {verdict : Verdict} :
    ((run.inRoot selection).perform s).1 = .ok verdict ↔
      ∃ here back t, s.workspace.disk.enter s.workspace.cwd run.catalog.root = .ok here ∧
        run.launch selection { s.workspace with cwd := here } s.state.runner = (.ok verdict, t) ∧
        t.workspace.disk.enter t.workspace.cwd s.workspace.cwd.path = .ok back := by
  unfold inRoot
  rw [Action.perform_within_eq_ok_iff]
  constructor
  · rintro ⟨here, back, t, hhere, hperform, hback⟩
    rw [perform_verdict_eq] at hperform
    obtain ⟨hverdict, rfl⟩ := Prod.mk.inj hperform
    exact ⟨here, back, _, hhere, Prod.ext hverdict rfl, hback⟩
  · rintro ⟨here, back, t, hhere, hlaunch, hback⟩
    refine ⟨here, back, t.following s.state.log, hhere, ?_, hback⟩
    rw [perform_verdict_eq, hlaunch]

/-! ## The exit status -/

namespace CommandLine.RunOrder

/--
What it takes for an order to be carried out with success.

The configuration loads, the path of the tool leads to a file, the fixtures and their expected
outputs are found, the root can be entered, every fixture passes, and the program can go back to
where it was.
-/
def Succeeds (order : RunOrder) (runner : Runner σ) (w : Workspace) (state : σ) : Prop :=
  ∃ config catalog here back checked t,
    Config.load w (w.fixturesRoot order.root) order.config = .ok config ∧
    w.disk.isFile w.cwd (w.absolute order.tool) = true ∧
    Catalog.load w (w.fixturesRoot order.root) = .ok catalog ∧
    w.disk.enter w.cwd (w.fixturesRoot order.root) = .ok here ∧
    (order.run runner w config catalog).launch order.suites { w with cwd := here } state =
      (.ok (.passed checked), t) ∧
    t.workspace.disk.enter t.workspace.cwd w.cwd.path = .ok back

/-- An order that cannot be begun: no configuration, no tool or no fixtures. -/
def Blocked (order : RunOrder) (w : Workspace) : Prop :=
  (∃ failure, Config.load w (w.fixturesRoot order.root) order.config = .error failure) ∨
    w.disk.isFile w.cwd (w.absolute order.tool) = false ∨
    ∃ failure, Catalog.load w (w.fixturesRoot order.root) = .error failure

variable {order : RunOrder} {runner : Runner σ} {w : Workspace} {state : σ}

theorem Succeeds.begins (h : order.Succeeds runner w state) :
    ∃ run, order.begin runner w = .ok run := by
  obtain ⟨config, catalog, here, back, checked, t, hconfig, htool, hcatalog, -⟩ := h
  exact ⟨_, begin_eq_ok_iff.mpr ⟨config, catalog, hconfig, htool, hcatalog, rfl⟩⟩

theorem Blocked.not_begins (h : order.Blocked w) (runner : Runner σ) :
    ∃ failure, order.begin runner w = .error failure := by
  cases hbegin : order.begin runner w with
  | error failure => exact ⟨failure, rfl⟩
  | ok run =>
    obtain ⟨config, catalog, hconfig, htool, hcatalog, -⟩ := begin_eq_ok_iff.mp hbegin
    rcases h with ⟨failure, hfailure⟩ | hnone | ⟨failure, hfailure⟩
    · cases hconfig.symm.trans hfailure
    · cases htool.symm.trans hnone
    · cases hcatalog.symm.trans hfailure

theorem status_runAnswer {verbose : Bool} {log : List Happening}
    {outcome : Except Failure Verdict} :
    (runAnswer verbose log outcome).status = .success ↔
      ∃ checked, outcome = .ok (.passed checked) := by
  cases outcome with
  | error failure => simp [runAnswer, Failure.answer]
  | ok verdict => cases verdict <;> simp [runAnswer, Verdict.status]

/-- **The answer to an order is a success only if every stage of it is.** -/
theorem status_answer_eq_success_iff :
    (order.answer runner w state).1.status = .success ↔ order.Succeeds runner w state := by
  unfold RunOrder.answer
  cases hbegin : order.begin runner w with
  | error failure =>
    constructor
    · intro h
      cases h
    · intro h
      obtain ⟨run, hrun⟩ := h.begins
      cases hbegin.symm.trans hrun
  | ok run =>
    obtain ⟨config, catalog, hconfig, htool, hcatalog, rfl⟩ := begin_eq_ok_iff.mp hbegin
    have hroot : (order.run runner w config catalog).catalog.root = w.fixturesRoot order.root :=
      Catalog.root_of_gather hcatalog
    dsimp only
    rw [status_runAnswer]
    constructor
    · rintro ⟨checked, hpassed⟩
      obtain ⟨here, back, t, hhere, hlaunch, hback⟩ := Run.perform_inRoot_eq_ok_iff.mp hpassed
      rw [hroot] at hhere
      exact ⟨config, catalog, here, back, checked, t, hconfig, htool, hcatalog, hhere, hlaunch,
        hback⟩
    · rintro ⟨config', catalog', here, back, checked, t, hconfig', -, hcatalog', hhere, hlaunch,
        hback⟩
      obtain rfl := Except.ok.inj (hconfig.symm.trans hconfig')
      obtain rfl := Except.ok.inj (hcatalog.symm.trans hcatalog')
      rw [← hroot] at hhere
      exact ⟨checked, Run.perform_inRoot_eq_ok_iff.mpr ⟨here, back, t, hhere, hlaunch, hback⟩⟩

/-- An order that cannot be begun leaves the workspace and the runner alone. -/
theorem Blocked.answer_eq (h : order.Blocked w) (runner : Runner σ) (state : σ) :
    ∃ answer, order.answer runner w state = (answer, w, state) := by
  obtain ⟨failure, hbegin⟩ := h.not_begins runner
  unfold RunOrder.answer
  rw [hbegin]
  exact ⟨_, rfl⟩

theorem Blocked.not_succeeds (h : order.Blocked w) : ¬ order.Succeeds runner w state := by
  intro hsucceeds
  obtain ⟨run, hrun⟩ := hsucceeds.begins
  obtain ⟨failure, hbegin⟩ := h.not_begins runner
  cases hbegin.symm.trans hrun

end CommandLine.RunOrder

/--
**The program exits with 0 if every stage of a run succeeds, and with 1 otherwise.**

If it cannot begin, since the configuration does not load, the tool is no file or fixtures are
missing, then it leaves every file alone, and nothing is asked of the runner.
-/
theorem program_exits {args : List String} {order : RunOrder} (h : Order.read args = .run order)
    (runner : Runner σ) (w : Workspace) (state : σ) :
    ((program runner args w state).1.status.code = 0 ↔ order.Succeeds runner w state) ∧
      (¬ order.Succeeds runner w state → (program runner args w state).1.status.code = 1) ∧
      (order.Blocked w → (program runner args w state).2.1 = w ∧
        (program runner.recorded args w (state, [])).2.2.2 = []) := by
  have hprogram : ∀ {τ : Type} (runner : Runner τ) (state : τ),
      program runner args w state = order.answer runner w state := by
    intro τ runner state
    unfold program
    rw [h]
    rfl
  rw [hprogram, hprogram, ← RunOrder.status_answer_eq_success_iff]
  refine ⟨?_, ?_, fun hblocked => ?_⟩
  · cases (order.answer runner w state).1.status <;> simp [ExitStatus.code]
  · cases (order.answer runner w state).1.status <;> simp [ExitStatus.code]
  · obtain ⟨answer, hanswer⟩ := hblocked.answer_eq runner state
    obtain ⟨answer', hanswer'⟩ := hblocked.answer_eq runner.recorded (state, [])
    rw [hanswer, hanswer']
    exact ⟨rfl, rfl⟩

/-- An order for the trace suite. -/
def traceOrder (tool : String) : RunOrder := { tool, suites := some [.trace] }

/-- A tree with a tool and one trace. -/
def traceTree : Workspace where
  disk := ⟨[(["bin"], .directory), (["bin", "tool"], .file [] true), (["tree"], .directory),
    (["tree", "traces"], .directory), (["tree", "traces", "t.trace"], .file [] false),
    (["tree", "out"], .directory), (["tree", "out", "trace-t.run"], .file [] false)]⟩
  cwd := ["tree"]
  env := []

/-- A runner with which everything succeeds and nothing is written. -/
def contentRunner : Runner Unit := fun _ w memory => (.ok {}, w.disk, memory)

theorem load_traceTree : Catalog.load traceTree "/tree" =
    .ok ⟨"/tree", [], [], [.describe "/tree" .trace "t"]⟩ :=
  Catalog.load_eq_ok_iff.mpr
    ⟨Catalog.scan_of_listed rfl (by decide +kernel), by decide +kernel⟩

theorem program_exits_traceTree :
    Order.read ["/bin/tool", "--suite", "trace"] = .run (traceOrder "/bin/tool") ∧
      (traceOrder "/bin/tool").Succeeds contentRunner traceTree () ∧
      (program contentRunner ["/bin/tool", "--suite", "trace"] traceTree ()).1.status.code = 0 ∧
      (traceOrder "/bin/none").Blocked traceTree ∧
      (program contentRunner ["/bin/none", "--suite", "trace"] traceTree ()).1.status.code = 1 ∧
      (program contentRunner ["/bin/none", "--suite", "trace"] traceTree ()).2.1 = traceTree := by
  have hread : Order.read ["/bin/tool", "--suite", "trace"] = .run (traceOrder "/bin/tool") := by
    decide +kernel
  have hread' : Order.read ["/bin/none", "--suite", "trace"] = .run (traceOrder "/bin/none") := by
    decide +kernel
  have hroot : traceTree.fixturesRoot none = "/tree" := by decide +kernel
  have hsucceeds : (traceOrder "/bin/tool").Succeeds contentRunner traceTree () := by
    rw [RunOrder.Succeeds, traceOrder, hroot]
    exact ⟨Settings.resolve traceTree.home {}, _, ["tree"], ["tree"], 1, _, by decide +kernel,
      by decide +kernel, load_traceTree, by decide +kernel, Prod.ext (by decide +kernel) rfl,
      by decide +kernel⟩
  have hblocked : (traceOrder "/bin/none").Blocked traceTree := .inr (.inl (by decide +kernel))
  have hnot : ¬ (traceOrder "/bin/none").Succeeds contentRunner traceTree () :=
    hblocked.not_succeeds
  obtain ⟨hzero, -, -⟩ := program_exits hread contentRunner traceTree ()
  obtain ⟨-, hone, hstart⟩ := program_exits hread' contentRunner traceTree ()
  exact ⟨hread, hsucceeds, hzero.mpr hsucceeds, hblocked, hone hnot, (hstart hblocked).1⟩

end GoldenRun
