import GoldenRun.Failure.Basic
import GoldenRun.Workspace

/-!
# Actions

An action works on a workspace and on some further state, and ends with an answer or a failure;
what it has changed by then stays changed.

`Action.within` carries out an action in another directory.  It first asks for the path of the
directory before it, which is entered again under this path whether the action succeeds or fails;
if that is no longer possible, this is the failure that remains.  When the path cannot be told, or
the other directory cannot be entered, the action is not begun.
-/

namespace GoldenRun

/-- What an action works on. -/
structure Surroundings (σ : Type) where
  /-- The disk, working directory and environment. -/
  workspace : Workspace
  /-- All else. -/
  state : σ
  deriving Repr

/-- A piece of work with an answer of type `α`. -/
abbrev Action (σ α : Type) := ExceptT Failure (StateM (Surroundings σ)) α

section MapError

variable {ε ε' α : Type}

@[simp] theorem mapError_ok (f : ε → ε') (x : α) : (Except.ok x).mapError f = .ok x := rfl

@[simp] theorem mapError_error (f : ε → ε') (e : ε) :
    (Except.error e : Except ε α).mapError f = .error (f e) := rfl

end MapError

namespace Action

variable {σ α : Type}

/-- Carries out an action: its outcome and what it leaves. -/
def perform (action : Action σ α) (s : Surroundings σ) : Except Failure α × Surroundings σ :=
  action s

/-- The action with the given behaviour. -/
def of (f : Surroundings σ → Except Failure α × Surroundings σ) : Action σ α := f

@[simp] theorem perform_of (f : Surroundings σ → Except Failure α × Surroundings σ)
    (s : Surroundings σ) : (of f).perform s = f s := rfl

@[simp] theorem perform_pure (a : α) (s : Surroundings σ) :
    (pure a : Action σ α).perform s = (.ok a, s) := rfl

/-- An action after another begins where that one ended, unless it failed. -/
theorem perform_bind {β : Type} (action : Action σ α) (next : α → Action σ β)
    (s : Surroundings σ) :
    (action >>= next).perform s =
      match action.perform s with
      | (.ok a, t) => (next a).perform t
      | (.error e, t) => (.error e, t) := by
  show (ExceptT.bind action next) s = _
  unfold ExceptT.bind ExceptT.mk perform
  show (ExceptT.bindCont next (action s).1) (action s).2 = _
  rcases action s with ⟨_ | _, t⟩ <;> rfl

/-- Changes the further state. -/
def update (f : σ → σ) : Action σ Unit :=
  of fun s => (.ok (), { s with state := f s.state })

@[simp] theorem perform_update (f : σ → σ) (s : Surroundings σ) :
    (update f).perform s = (.ok (), { s with state := f s.state }) := rfl

/-- The workspace. -/
def workspace : Action σ Workspace := of fun s => (.ok s.workspace, s)

@[simp] theorem perform_workspace (s : Surroundings σ) :
    (workspace : Action σ Workspace).perform s = (.ok s.workspace, s) := rfl

/-- Ends with an outcome that is already known. -/
def settle (outcome : Except Failure α) : Action σ α := of fun s => (outcome, s)

@[simp] theorem perform_settle (outcome : Except Failure α) (s : Surroundings σ) :
    (settle outcome : Action σ α).perform s = (outcome, s) := rfl

/-- An action and its outcome, failures included. -/
def outcome (action : Action σ α) : Action σ (Except Failure α) :=
  of fun s =>
    let (r, t) := action.perform s
    (.ok r, t)

@[simp] theorem perform_outcome (action : Action σ α) (s : Surroundings σ) :
    action.outcome.perform s = (.ok (action.perform s).1, (action.perform s).2) := rfl

/-- Enters a directory. -/
def enter (directory : String) : Action σ Unit :=
  of fun s =>
    match s.workspace.disk.enter s.workspace.cwd directory with
    | .ok here => (.ok (), { s with workspace := { s.workspace with cwd := here } })
    | .error e => (.error (.disk e), s)

/-- Carries out an action in another directory. -/
def within (directory : String) (action : Action σ α) : Action σ α :=
  of fun s =>
    match s.workspace.cwd.workingPath with
    | .error e => (.error (.disk e), s)
    | .ok previous =>
      match (enter directory).perform s with
      | (.error e, t) => (.error e, t)
      | (.ok (), t) =>
        let (r, u) := action.perform t
        match (enter previous).perform u with
        | (.error e, v) => (.error e, v)
        | (.ok (), v) => (r, v)

end Action

/-- A tree of actions in directories: each enters a directory, works there in order, and comes
back; a leaf gives up with a message. -/
inductive Excursion where
  /-- Works in a directory. -/
  | into (directory : String) (steps : List Excursion)
  /-- Gives up. -/
  | giveUp (message : String)
  deriving Inhabited

namespace Excursion

/-- The line that tells of the return to a directory. -/
def returnLine (here : Location) (outcome : Except Failure Unit) : String :=
  match outcome with
  | .ok () => "back " ++ here.path
  | .error e => "back " ++ here.path ++ ": " ++ e.message

mutual

/-- Goes on an excursion and keeps a log of the directories worked in and returned to.  A failure
ends with the excursion it reached, unless `rethrow` lets it pass on. -/
def go (rethrow : Bool) : Excursion → Action (List String) Unit
  | .giveUp message => Action.settle (.error (.raised message))
  | .into directory steps => do
    let body : Action (List String) Unit := do
      let w ← Action.workspace
      Action.update (· ++ [w.cwd.path])
      goAll rethrow steps
    let r ← (body.within directory).outcome
    let w ← Action.workspace
    Action.update (· ++ [returnLine w.cwd r])
    if rethrow then Action.settle r

/-- Goes on several excursions, one after the other, up to the first that fails. -/
def goAll (rethrow : Bool) : List Excursion → Action (List String) Unit
  | [] => pure ()
  | step :: steps => do
    go rethrow step
    goAll rethrow steps

end

/-- The log of several excursions; a failure that leaves one of them is noted, and the next one
begins. -/
def log (rethrow : Bool) (w : Workspace) (steps : List Excursion) : List String :=
  (steps.foldl (fun s step =>
    match (go rethrow step).perform s with
    | (.ok (), t) => t
    | (.error e, t) => { t with state := t.state ++ ["caught " ++ e.message] })
    (⟨w, []⟩ : Surroundings (List String))).state

end Excursion

end GoldenRun
