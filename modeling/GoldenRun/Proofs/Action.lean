import GoldenRun.Action
import GoldenRun.Proofs.Disk.Entering

/-!
# Working in another directory

The ways in which an action in another directory can go, as equations.

* `perform_within_untold`, `perform_within_refused`: the action is not begun
* `perform_within_stranded`: the action is over, but the way back is barred
* `perform_within_entered`: the action is over, and one has come back
* `perform_within_eq_ok_iff`: what it takes for such an action to have an answer
-/

namespace GoldenRun

namespace Action

variable {σ α : Type} {action : Action σ α} {outcome : Except Failure α} {s t : Surroundings σ}
  {there back : Location} {directory path : String} {error : DiskError}

theorem perform_within_untold (htold : s.workspace.cwd.workingPath = .error error)
    (directory : String) (action : Action σ α) :
    (action.within directory).perform s = (.error (.disk error), s) := by
  simp [within, htold]

theorem perform_within_refused (htold : s.workspace.cwd.workingPath = .ok path)
    (h : s.workspace.disk.enter s.workspace.cwd directory = .error error) (action : Action σ α) :
    (action.within directory).perform s = (.error (.disk error), s) := by
  simp [within, enter, htold, h]

theorem perform_within_stranded (htold : s.workspace.cwd.workingPath = .ok path)
    (h : s.workspace.disk.enter s.workspace.cwd directory = .ok there)
    (hwork : action.perform { s with workspace := { s.workspace with cwd := there } } =
      (outcome, t))
    (hback : t.workspace.disk.enter t.workspace.cwd path = .error error) :
    (action.within directory).perform s = (.error (.disk error), t) := by
  simp [within, enter, htold, h, hwork, hback]

theorem perform_within_entered (htold : s.workspace.cwd.workingPath = .ok path)
    (h : s.workspace.disk.enter s.workspace.cwd directory = .ok there)
    (hwork : action.perform { s with workspace := { s.workspace with cwd := there } } =
      (outcome, t))
    (hback : t.workspace.disk.enter t.workspace.cwd path = .ok back) :
    (action.within directory).perform s =
      (outcome, { t with workspace := { t.workspace with cwd := back } }) := by
  simp [within, enter, htold, h, hwork, hback]

/-- An action in another directory has an answer if the directory can be entered, the action has
that answer, and the first directory can be entered again. -/
theorem perform_within_eq_ok_iff {a : α} :
    ((action.within directory).perform s).1 = .ok a ↔
      ∃ here back t, s.workspace.disk.enter s.workspace.cwd directory = .ok here ∧
        action.perform { s with workspace := { s.workspace with cwd := here } } = (.ok a, t) ∧
        t.workspace.disk.enter t.workspace.cwd s.workspace.cwd.path = .ok back := by
  constructor
  · intro h
    cases htold : s.workspace.cwd.workingPath with
    | error error =>
      rw [perform_within_untold htold] at h
      cases h
    | ok path =>
      cases hhere : s.workspace.disk.enter s.workspace.cwd directory with
      | error error =>
        rw [perform_within_refused htold hhere] at h
        cases h
      | ok here =>
        rcases haction : action.perform { s with workspace := { s.workspace with cwd := here } }
          with ⟨outcome, t⟩
        cases hback : t.workspace.disk.enter t.workspace.cwd path with
        | error error =>
          rw [perform_within_stranded htold hhere haction hback] at h
          cases h
        | ok back =>
          rw [perform_within_entered htold hhere haction hback] at h
          obtain ⟨rfl, -⟩ := Disk.workingPath_eq_ok_iff.mp htold
          obtain rfl : outcome = .ok a := h
          exact ⟨here, back, t, rfl, haction, (Disk.enter_upToNul ..).symm.trans hback⟩
  · rintro ⟨here, back, t, hhere, haction, hback⟩
    -- What can be entered again could be told.
    have htold := Disk.workingPath_of_enter hback
    rw [← Disk.enter_upToNul] at hback
    rw [perform_within_entered htold hhere haction hback]

end Action

end GoldenRun
