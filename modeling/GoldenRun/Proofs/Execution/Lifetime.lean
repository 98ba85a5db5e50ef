import GoldenRun.Execution.Lifetime

/-!
# A command is answered once

Notices of a command may come in any order and number.  Until one of them ends the watch the watch
waits (`Watch.Waits`), and all that it keeps is what was written; the first that ends it makes the
answer, and whatever comes later leaves the answer alone.

* `isSome_killDelay?_iff`: a timer is armed for a time limit above zero, and for no other
* `Watch.Waits.foldl`: what a watch knows while nothing has ended it
* `Watch.foldl_of_answered`: an answer is kept
* `settle_once`: the first notice that ends the watch alone fixes the answer
-/

namespace GoldenRun

open GoldenRun.Number GoldenRun.Text

/-- Whether a number is above zero. -/
def Number.Binary64.isPositive (x : Binary64) : Bool := x ≠ .nan && !x.isNegative && !x.isZero

/-- Whether a request has a time limit. -/
def Request.isLimited (request : Request) : Bool := request.timeout.any Binary64.isPositive

/-- A timer is armed for a time limit above zero, and for no other. -/
theorem isSome_killDelay?_iff {limit : Option Binary64} :
    (killDelay? limit).isSome = limit.any Binary64.isPositive := by
  unfold killDelay?
  split
  · next m e normal =>
    by_cases hm : m = 0
    · simp [hm, Binary64.isPositive, Binary64.isNegative, Binary64.isZero]
    · simp [hm, Binary64.isPositive, Binary64.isNegative, Binary64.isZero]
  · rfl
  · next hfinite hinfinity =>
    cases limit with
    | none => rfl
    | some x =>
      cases x with
      | nan => rfl
      | infinity negative =>
        cases negative with
        | false => exact absurd rfl hinfinity
        | true => rfl
      | finite negative m e normal =>
        cases negative with
        | false => exact absurd rfl (hfinite m e normal)
        | true => by_cases hm : m = 0 <;>
            simp [hm, Binary64.isPositive, Binary64.isNegative, Binary64.isZero]

namespace Notice

/-- Whether a notice ends the watch over a request; time can be up only if there is a limit. -/
def ends (request : Request) : Notice → Bool
  | .wrote _ => false
  | .failed _ => true
  | .closed _ _ => true
  | .expired => request.isLimited

/-- What a notice adds to the output. -/
def bytes : Notice → Bytes
  | .wrote bytes => bytes
  | _ => []

/-- The line that follows the output of a command that could not be started. -/
def remark (command : String) : Notice → String
  | .failed reason => command ++ ": " ++ reason ++ "\n"
  | _ => ""

/-- The answer that a notice makes when it ends the watch, given the output before it. -/
def outcome (command text : String) : Notice → Captured
  | .failed reason =>
    { text := text ++ (command ++ ": " ++ reason) ++ "\n", exitCode := none
      error := some (command ++ ": " ++ reason) }
  | .closed exitCode signal => { text, exitCode, signal }
  | _ => { text, exitCode := none, signal := some "SIGKILL", timedOut := true }

end Notice

namespace Watch

variable {request : Request} {w : Watch} {notice : Notice} {notices : List Notice} {heard : Bytes}

/-- `w.Waits request heard`: nothing has ended the watch, and `heard` is all the output so far. -/
structure Waits (request : Request) (heard : Bytes) (w : Watch) : Prop where
  /-- The timer is the one that was armed. -/
  timer : w.timer = killDelay? request.timeout
  inTime : w.timedOut = false
  unanswered : w.answer = none
  /-- The pieces are the output, whichever way it was cut. -/
  output : w.pieces.reverse.flatten = heard

theorem Waits.start (request : Request) : (start request).Waits request [] := ⟨rfl, rfl, rfl, rfl⟩

/-! ## One notice -/

/-- A notice that does not end the watch adds to the output at most. -/
theorem Waits.hear (h : w.Waits request heard) (hends : notice.ends request = false) :
    (w.hear request.command notice).Waits request (heard ++ notice.bytes) := by
  cases notice with
  | wrote bytes =>
    refine ⟨h.timer, h.inTime, h.unanswered, ?_⟩
    simp [Watch.hear, Notice.bytes, h.output]
  | failed reason => cases hends
  | closed exitCode signal => cases hends
  | expired =>
    have hnone : w.timer.isSome = false := by
      rw [h.timer, isSome_killDelay?_iff]
      exact hends
    have hsame : w.hear request.command .expired = w := by simp [Watch.hear, hnone]
    rw [hsame]
    simpa [Notice.bytes] using h

/-- A notice that ends the watch makes the answer. -/
theorem Waits.hear_of_ends (h : w.Waits request heard) (hends : notice.ends request = true) :
    (w.hear request.command notice).answer =
      some (notice.outcome request.command (decode heard)) := by
  cases notice with
  | wrote bytes => cases hends
  | failed reason =>
    simp [Watch.hear, finish, text, h.unanswered, h.inTime, h.output, Notice.outcome]
  | closed exitCode signal =>
    simp [Watch.hear, finish, text, h.unanswered, h.inTime, h.output, Notice.outcome]
  | expired =>
    have harmed : w.timer.isSome = true := by
      rw [h.timer, isSome_killDelay?_iff]
      exact hends
    simp [Watch.hear, finish, text, harmed, h.unanswered, h.output, Notice.outcome]

theorem finish_of_answered {answer output : Captured} (h : w.answer = some answer) :
    (w.finish output).answer = some answer := by
  simp [finish, h]

/-- Whatever is heard, an answer is kept. -/
theorem hear_of_answered {answer : Captured} (h : w.answer = some answer) (command : String)
    (notice : Notice) : (w.hear command notice).answer = some answer := by
  cases notice with
  | wrote bytes => exact h
  | failed reason => exact finish_of_answered h
  | closed exitCode signal => exact finish_of_answered h
  | expired =>
    cases harmed : w.timer.isSome with
    | false => simpa [hear, harmed] using h
    | true => simp [hear, harmed, finish, h]

/-! ## Many notices -/

/-- As long as nothing ends the watch, it waits, and has the output of all notices. -/
theorem Waits.foldl (h : w.Waits request heard) (hends : ∀ n ∈ notices, n.ends request = false) :
    (notices.foldl (Watch.hear request.command) w).Waits request
      (heard ++ notices.flatMap Notice.bytes) := by
  induction notices generalizing w heard with
  | nil => simpa using h
  | cons notice notices ih =>
    have hstep := h.hear (hends notice List.mem_cons_self)
    have hrest := ih hstep fun n mem => hends n (List.mem_cons_of_mem notice mem)
    rwa [List.append_assoc] at hrest

theorem foldl_of_answered {answer : Captured} (h : w.answer = some answer) (command : String)
    (notices : List Notice) :
    (notices.foldl (hear command) w).answer = some answer := by
  induction notices generalizing w with
  | nil => exact h
  | cons notice notices ih => exact ih (hear_of_answered h command notice)

end Watch

theorem Captured.succeeded_iff {output : Captured} :
    output.succeeded = true ↔
      output.exitCode = some 0 ∧ output.timedOut = false ∧ output.error = none := by
  rw [succeeded, Bool.and_eq_true, Bool.and_eq_true, decide_eq_true_iff, Bool.not_eq_true',
    Option.isNone_iff_eq_none, and_assoc]

variable {request : Request} {before : List Notice} {last : Notice}

/-- A request is not answered as long as nothing ends the watch. -/
theorem settle_eq_none (hbefore : ∀ n ∈ before, n.ends request = false) :
    settle request before = none :=
  ((Watch.Waits.start request).foldl hbefore).unanswered

/-- The first notice that ends the watch makes the answer, and later ones do not count. -/
theorem settle_eq_some (hbefore : ∀ n ∈ before, n.ends request = false)
    (hlast : last.ends request = true) (after : List Notice) :
    settle request (before ++ last :: after) =
      some (last.outcome request.command (decode (before.flatMap Notice.bytes))) := by
  have hwaits := (Watch.Waits.start request).foldl hbefore
  rw [settle, List.foldl_append, List.foldl_cons]
  exact Watch.foldl_of_answered (hwaits.hear_of_ends hlast) _ after

/--
**A command is answered once, by the first notice that ends the watch.**

Before this notice there is no answer; it alone fixes the answer, and nothing that comes later
changes it.  The text is all output before it, decoded as a whole and in order of arrival, and
followed by a remark only if the command could not be started.
-/
theorem settle_once (hbefore : ∀ n ∈ before, n.ends request = false)
    (hlast : last.ends request = true) :
    (∀ early, early <+: before → settle request early = none) ∧
    ∃ answer, (∀ after, settle request (before ++ last :: after) = some answer) ∧
      answer.text = decode (before.flatMap Notice.bytes) ++ last.remark request.command ∧
      (answer.timedOut = true ↔ last = .expired) ∧
      (last = .expired → answer.exitCode = none ∧ answer.signal = some "SIGKILL") ∧
      (answer.error.isSome = true ↔ ∃ reason, last = .failed reason) ∧
      (∀ exitCode signal, last = .closed exitCode signal →
        answer.exitCode = exitCode ∧ answer.signal = signal) ∧
      (answer.succeeded = true ↔ ∃ signal, last = .closed (some 0) signal) := by
  refine ⟨fun early hearly => settle_eq_none fun n mem => hbefore n (hearly.subset mem), _,
    settle_eq_some hbefore hlast, ?_⟩
  rw [Captured.succeeded_iff]
  cases last with
  | wrote bytes => cases hlast
  | failed reason => simp [Notice.outcome, Notice.remark, String.append_assoc]
  | closed exitCode signal => simp [Notice.outcome, Notice.remark]
  | expired => simp [Notice.outcome, Notice.remark]

/-- A request with a time limit of five milliseconds. -/
def limitedRequest : Request where
  command := "tool"
  args := []
  cwd := "/"
  timeout := some (.ofNat 5)

/-- A character is written in two pieces, the time is up, and the command ends too late. -/
theorem settle_once_limitedRequest :
    (∀ n ∈ [.wrote [0xE2, 0x82], .wrote [0xAC]], Notice.ends limitedRequest n = false) ∧
      Notice.ends limitedRequest .expired = true ∧
      ∃ answer, settle limitedRequest
          [.wrote [0xE2, 0x82], .wrote [0xAC], .expired, .closed (some 0) none] = some answer ∧
        answer.text = "€" ∧ answer.timedOut = true ∧ answer.succeeded = false := by
  have hbefore : ∀ n ∈ [.wrote [0xE2, 0x82], .wrote [0xAC]],
      Notice.ends limitedRequest n = false := by decide
  have hlast : Notice.ends limitedRequest .expired = true := by decide +kernel
  obtain ⟨-, answer, hanswer, htext, htime, -, -, -, hsucceeded⟩ := settle_once hbefore hlast
  refine ⟨hbefore, hlast, answer, hanswer [.closed (some 0) none], ?_, htime.mpr rfl, ?_⟩
  · rw [htext]
    decide +kernel
  · rw [Bool.eq_false_iff]
    intro h
    obtain ⟨signal, hclosed⟩ := hsucceeded.mp h
    cases hclosed

end GoldenRun
