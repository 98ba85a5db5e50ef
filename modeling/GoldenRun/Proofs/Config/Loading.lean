import GoldenRun.Proofs.Config.Grammar
import GoldenRun.Proofs.Disk.Reading

/-!
# The ways in which the loading of a configuration ends

A configuration is found or taken from the defaults, read, parsed, checked against what may be said,
and its build command is filled in on trial.  Each of these stages can refuse it.

* `Config.Declared`: the ways in which loading should end
* `Config.Escapes`: the two ways in which it ends besides
* `Config.load_declared_iff`: which of them it is
* `Config.load_escapes`: a configuration file that is a directory, and one with a tag that asks too
  much
-/

namespace GoldenRun

open GoldenRun.Text

variable {w : Workspace} {home root path text : String} {named : Option String}
  {failure : Failure}

/-- A fault that is none of the document is reported without a place. -/
theorem Yaml.eq_notText_of_load {name : Option String} {error : Yaml.Error}
    (h : Yaml.load name text = .error error) (hfault : error.fault.isOfDocument = false) :
    ∃ question, error = ⟨.notText question, none⟩ := by
  have hflaw : ∀ (text : List Char) (flaw : Yaml.Flaw), error = flaw.toError name text →
      error.mark = none := by
    rintro text flaw rfl
    exact if_neg (by simpa [Yaml.Flaw.toError] using hfault)
  have hmark : error.mark = none := by
    unfold Yaml.load at h
    dsimp only at h
    split at h
    · exact hflaw _ _ (Except.error.inj h).symm
    · split at h
      · exact hflaw _ _ (Except.error.inj h).symm
      · cases h
      · cases h
      · cases h
        rfl
  obtain ⟨fault, mark⟩ := error
  obtain rfl : mark = none := hmark
  cases fault with
  | notText question => exact ⟨question, rfl⟩
  | _ => cases hfault

namespace Config

/-- The ways in which the loading of the configuration at a path should end. -/
inductive Declared (path : String) : Except Failure Config → Prop where
  /-- There is a configuration. -/
  | loaded (config : Config) : Declared path (.ok config)
  /-- The file is refused, with at least one problem. -/
  | refused (problem : String) (problems : List String) :
    Declared path (.error (.defect (.configuration path (problem :: problems))))
  /-- Its document is malformed. -/
  | malformed {error : Yaml.Error} (h : error.fault.isOfDocument = true) :
    Declared path (.error (.document error))

/-- The failures with which the loading of a configuration ends besides. -/
inductive Escapes (w : Workspace) (path : String) : Failure → Prop where
  /-- What stands at the path is a directory; the path is not named. -/
  | directory (hthere : w.disk.hasEntry w.cwd path = true)
    (hleads : w.disk.LeadsToDirectory w.cwd path) :
    Escapes w path (.disk (.failed .isDirectory "read" none none))
  /-- A tag of the document asks of a value what only a text can answer. -/
  | notText {text question : String} (hread : w.disk.readText w.cwd path = .ok text)
    (hload : Yaml.load (some path) text = .error ⟨.notText question, none⟩) :
    Escapes w path (.document ⟨.notText question, none⟩)

theorem Escapes.not_declared (h : Escapes w path failure) : ¬ Declared path (.error failure) := by
  intro hdeclared
  cases h with
  | directory => cases hdeclared
  | notText => cases hdeclared with | malformed hfault => cases hfault

/-- A build command that cannot be filled in is a problem of the configuration. -/
theorem checkCommand_cases (c : Config) (path root : String) :
    c.checkCommand path root = .ok () ∨ ∃ problem problems,
      c.checkCommand path root = .error (.configuration path (problem :: problems)) := by
  unfold checkCommand
  cases commandFaults c.buildCommand (c.checkContext root) with
  | nil => exact .inl rfl
  | cons fault faults => exact .inr ⟨_, _, rfl⟩

/-- Once its document is there, a configuration is refused for its problems alone. -/
theorem parse_declared {document : Option Value} (home root : String)
    (h : Yaml.load (some path) text = .ok document) :
    Declared path (parse home root path text) := by
  obtain ⟨-, hrefused, -⟩ := Settings.parse_accepts_iff h
  unfold parse
  cases hsettings : Settings.parse path text with
  | error failure =>
    obtain ⟨problem, problems, hproblems⟩ := hrefused (by simp [hsettings])
    obtain rfl := Except.error.inj (hsettings.symm.trans hproblems)
    exact .refused problem problems
  | ok settings =>
    dsimp only
    rcases checkCommand_cases (settings.resolve home) path root with hok | ⟨_, _, hproblems⟩
    · rw [hok]
      exact .loaded _
    · rw [hproblems]
      exact .refused _ _

theorem parse_of_load_error {error : Yaml.Error} (home root : String)
    (h : Yaml.load (some path) text = .error error) :
    parse home root path text = .error (.document error) := by
  unfold parse Settings.parse
  rw [h]

/-- A text that cannot be parsed is refused for its document, or a tag in it asks too much. -/
theorem parse_declared_or (home root path text : String) :
    Declared path (parse home root path text) ∨ ∃ question,
      Yaml.load (some path) text = .error ⟨.notText question, none⟩ := by
  cases hload : Yaml.load (some path) text with
  | ok document => exact .inl (parse_declared home root hload)
  | error error =>
    cases hfault : error.fault.isOfDocument with
    | true =>
      rw [parse_of_load_error home root hload]
      exact .inl (.malformed hfault)
    | false =>
      obtain ⟨question, rfl⟩ := Yaml.eq_notText_of_load hload hfault
      exact .inr ⟨question, rfl⟩

/-- A file that is missing is taken for the defaults, unless it was named. -/
theorem load_of_missing (h : w.disk.hasEntry w.cwd (configPath w root named) = false) :
    Declared (configPath w root named) (load w root named) := by
  unfold load
  dsimp only
  rw [if_neg (by simp [h])]
  split
  · exact .refused _ _
  · exact .loaded _

theorem load_of_readText (hread : w.disk.readText w.cwd (configPath w root named) = .ok text) :
    load w root named = parse w.home root (configPath w root named) text := by
  unfold load
  dsimp only
  rw [if_pos (Disk.hasEntry_of_readText hread), hread]

theorem load_of_directory (hthere : w.disk.hasEntry w.cwd (configPath w root named) = true)
    (hleads : w.disk.LeadsToDirectory w.cwd (configPath w root named)) :
    load w root named = .error (.disk (.failed .isDirectory "read" none none)) := by
  unfold load
  dsimp only
  rw [if_pos hthere, Disk.readText_of_directory hthere hleads]

theorem Escapes.load_eq (h : Escapes w (configPath w root named) failure) :
    load w root named = .error failure := by
  cases h with
  | directory hthere hleads => exact load_of_directory hthere hleads
  | notText hread hload => rw [load_of_readText hread, parse_of_load_error w.home root hload]

/-- The loading of a configuration ends as it should, or in one of the two ways besides. -/
theorem declared_or_escapes (w : Workspace) (root : String) (named : Option String) :
    Declared (configPath w root named) (load w root named) ∨
      ∃ failure, Escapes w (configPath w root named) failure := by
  cases hthere : w.disk.hasEntry w.cwd (configPath w root named) with
  | false => exact .inl (load_of_missing hthere)
  | true =>
    rcases Disk.readText_of_hasEntry hthere with ⟨text, hread⟩ | hleads
    · rw [load_of_readText hread]
      rcases parse_declared_or w.home root (configPath w root named) text with
        hdeclared | ⟨question, hload⟩
      · exact .inl hdeclared
      · exact .inr ⟨_, .notText hread hload⟩
    · exact .inr ⟨_, .directory hthere hleads⟩

/--
**The loading of a configuration ends as it should, unless its file is a directory or a tag in it
asks of a value what only a text can answer.**

As it should: with a configuration, with problems of the configuration file, or with a fault of its
document.  In the other two cases it ends with the words of the system, or with those of the failed
question, and nothing tells that they are about the configuration.
-/
theorem load_declared_iff (w : Workspace) (root : String) (named : Option String) :
    (Declared (configPath w root named) (load w root named) ↔
      ¬ ∃ failure, Escapes w (configPath w root named) failure) ∧
    ∀ failure, Escapes w (configPath w root named) failure →
      load w root named = .error failure := by
  refine ⟨⟨?_, fun hnone => ?_⟩, fun failure hescapes => hescapes.load_eq⟩
  · rintro hdeclared ⟨failure, hescapes⟩
    rw [hescapes.load_eq] at hdeclared
    exact hescapes.not_declared hdeclared
  · exact (declared_or_escapes w root named).resolve_right hnone

/-- A tree in which the configuration file is a directory. -/
def directoryConfigTree : Workspace where
  disk := ⟨[(["tree"], .directory), (["tree", "golden-trace.yml"], .directory)]⟩
  cwd := ["tree"]
  env := [("HOME", "/home/dev")]

/-- A configuration file that is a directory is refused in the words of the system; one whose time
limit stands on a line of its own behind its tag, in those of a failed question. -/
theorem load_escapes :
    load directoryConfigTree "/tree" none =
        .error (.disk (.failed .isDirectory "read" none none)) ∧
      ¬ Declared "/tree/golden-trace.yml" (load directoryConfigTree "/tree" none) ∧
      load (configTree "timeoutMs: !!float\n  5\n") "/tree" none =
        .error (.document ⟨.notText "toLowerCase", none⟩) ∧
      ¬ Declared "/tree/golden-trace.yml"
        (load (configTree "timeoutMs: !!float\n  5\n") "/tree" none) := by
  have hdirectory : load directoryConfigTree "/tree" none =
      .error (.disk (.failed .isDirectory "read" none none)) := by decide +kernel
  have hquestion : load (configTree "timeoutMs: !!float\n  5\n") "/tree" none =
      .error (.document ⟨.notText "toLowerCase", none⟩) := by decide +kernel
  rw [hdirectory, hquestion]
  refine ⟨rfl, fun h => ?_, rfl, fun h => ?_⟩
  · cases h
  · cases h with | malformed hfault => cases hfault

end Config

end GoldenRun
