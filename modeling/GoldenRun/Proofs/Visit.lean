import GoldenRun.Proofs.Action

/-!
# Work in directories inside each other

A visit is a tree of calls that work in a directory and come back.  While it is carried out there is
one working directory, which every call changes twice.  `Goes` tells the same without one: where a
step is done is where it is written.

* `go_ofExcursion`: an excursion is a visit
* `go_nests`: carrying out a visit comes to what `Goes` says of it
-/

namespace GoldenRun

/-- A tree of calls, each with the work that it does in its directory. -/
inductive Visit where
  /-- Works in a directory, step by step.  A failure of this work is passed on or ends here. -/
  | into (directory : String) (passOn : Bool) (steps : List Visit)
  /-- Fails. -/
  | fail (failure : Failure)
  /-- Finds the disk changed. -/
  | change (f : Disk → Disk)

namespace Visit

/-- What is noted of a visit. -/
inductive Note where
  /-- The work of a call begins here. -/
  | begun (here : Location)
  /-- A call is over; here is where it has come back to. -/
  | over (here : Location) (outcome : Except Failure Unit)

variable {σ : Type}

mutual

/-- Carries out a visit; `tell` says how the notes are kept. -/
def go (tell : σ → Note → σ) : Visit → Action σ Unit
  | .into directory passOn steps => do
    let body : Action σ Unit := do
      let w ← Action.workspace
      Action.update (tell · (.begun w.cwd))
      goAll tell steps
    let r ← (body.within directory).outcome
    let w ← Action.workspace
    Action.update (tell · (.over w.cwd r))
    if passOn then Action.settle r
  | .fail failure => Action.settle (.error failure)
  | .change f =>
    Action.of fun s =>
      (.ok (), { s with workspace := { s.workspace with disk := f s.workspace.disk } })

/-- Carries out several visits, up to the first that fails. -/
def goAll (tell : σ → Note → σ) : List Visit → Action σ Unit
  | [] => pure ()
  | step :: steps => do
    go tell step
    goAll tell steps

end

/-! ## Excursions -/

/-- The line that an excursion writes for a note. -/
def Note.line : Note → String
  | .begun here => here.path
  | .over here outcome => Excursion.returnLine here outcome

mutual

/-- An excursion as a visit: all its calls pass failures on, or none does. -/
def ofExcursion (rethrow : Bool) : Excursion → Visit
  | .into directory steps => .into directory rethrow (ofExcursions rethrow steps)
  | .giveUp message => .fail (.raised message)

/-- Several excursions as visits. -/
def ofExcursions (rethrow : Bool) : List Excursion → List Visit
  | [] => []
  | step :: steps => ofExcursion rethrow step :: ofExcursions rethrow steps

end

mutual

/-- An excursion is a visit. -/
theorem go_ofExcursion (rethrow : Bool) : ∀ e : Excursion,
    (ofExcursion rethrow e).go (fun log note => log ++ [note.line]) = e.go rethrow
  | .into directory steps => by
    rw [Excursion.go, ofExcursion, go, goAll_ofExcursions rethrow steps]
    rfl
  | .giveUp message => by
    rw [Excursion.go, ofExcursion, go]

theorem goAll_ofExcursions (rethrow : Bool) : ∀ steps : List Excursion,
    goAll (fun log note => log ++ [note.line]) (ofExcursions rethrow steps) =
      Excursion.goAll rethrow steps
  | [] => by rw [Excursion.goAll, ofExcursions, goAll]
  | step :: steps => by
    rw [Excursion.goAll, ofExcursions, goAll, go_ofExcursion rethrow step,
      goAll_ofExcursions rethrow steps]

end

/-! ## Visits without a working directory -/

/-- What a visit comes to. -/
structure Course where
  /-- What is noted. -/
  notes : List Note
  /-- How it ends. -/
  outcome : Except Failure Unit
  /-- The disk that it leaves. -/
  disk : Disk
  /-- The disks on which its calls begin and are over, each with the directory of the caller. -/
  stays : List (Disk × Location)

/-- What the caller of a call sees of an outcome. -/
def handed (passOn : Bool) (outcome : Except Failure Unit) : Except Failure Unit :=
  if passOn then outcome else .ok ()

mutual

/-- A visit that is made in a directory comes to a course. -/
inductive Goes : Disk → Location → Visit → Course → Prop where
  /-- A failure is the outcome, as it is. -/
  | fail {disk : Disk} {here : Location} {failure : Failure} :
    Goes disk here (.fail failure) ⟨[], .error failure, disk, []⟩
  /-- The disk changes, and nothing else. -/
  | change {disk : Disk} {here : Location} {f : Disk → Disk} :
    Goes disk here (.change f) ⟨[], .ok (), f disk, []⟩
  /-- The path of the directory to come back to is too long to be told: no step is done. -/
  | untold {disk : Disk} {here : Location} {directory : String} {passOn : Bool}
      {steps : List Visit} {error : DiskError} (htold : here.workingPath = .error error) :
    Goes disk here (.into directory passOn steps)
      ⟨[.over here (.error (.disk error))], handed passOn (.error (.disk error)), disk,
        [(disk, here)]⟩
  /-- A directory that cannot be entered: no step is done. -/
  | refused {disk : Disk} {here : Location} {directory path : String} {passOn : Bool}
      {steps : List Visit} {error : DiskError} (htold : here.workingPath = .ok path)
      (h : disk.enter here directory = .error error) :
    Goes disk here (.into directory passOn steps)
      ⟨[.over here (.error (.disk error))], handed passOn (.error (.disk error)), disk,
        [(disk, here)]⟩
  /-- A directory that can be entered: the steps are done there, and then one is here again. -/
  | entered {disk : Disk} {here there : Location} {directory path : String} {passOn : Bool}
      {steps : List Visit} {course : Course} (htold : here.workingPath = .ok path)
      (h : disk.enter here directory = .ok there) (hsteps : GoesAll disk there steps course) :
    Goes disk here (.into directory passOn steps)
      ⟨.begun there :: course.notes ++ [.over here course.outcome], handed passOn course.outcome,
        course.disk, (disk, here) :: course.stays ++ [(course.disk, here)]⟩

/-- Steps that are done in a directory come to a course. -/
inductive GoesAll : Disk → Location → List Visit → Course → Prop where
  /-- No step is left. -/
  | done {disk : Disk} {here : Location} : GoesAll disk here [] ⟨[], .ok (), disk, []⟩
  /-- A step fails, and no further one is done. -/
  | stopped {disk : Disk} {here : Location} {step : Visit} {steps : List Visit} {course : Course}
      {failure : Failure} (h : Goes disk here step course)
      (hfail : course.outcome = .error failure) :
    GoesAll disk here (step :: steps) course
  /-- A step is done, then the others. -/
  | next {disk : Disk} {here : Location} {step : Visit} {steps : List Visit} {first rest : Course}
      (h : Goes disk here step first) (hok : first.outcome = .ok ())
      (hrest : GoesAll first.disk here steps rest) :
    GoesAll disk here (step :: steps)
      ⟨first.notes ++ rest.notes, rest.outcome, rest.disk, first.stays ++ rest.stays⟩

end

mutual

/-- Every visit comes to something, wherever it is made. -/
theorem exists_goes : ∀ (v : Visit) (disk : Disk) (here : Location), ∃ course,
    Goes disk here v course
  | .fail _, _, _ => ⟨_, .fail⟩
  | .change _, _, _ => ⟨_, .change⟩
  | .into directory _ steps, disk, here => by
    cases htold : here.workingPath with
    | error error => exact ⟨_, .untold htold⟩
    | ok path =>
      cases henter : disk.enter here directory with
      | error error => exact ⟨_, .refused htold henter⟩
      | ok there =>
        obtain ⟨course, hsteps⟩ := exists_goesAll steps disk there
        exact ⟨_, .entered htold henter hsteps⟩

theorem exists_goesAll : ∀ (steps : List Visit) (disk : Disk) (here : Location), ∃ course,
    GoesAll disk here steps course
  | [], _, _ => ⟨_, .done⟩
  | step :: steps, disk, here => by
    obtain ⟨first, hfirst⟩ := exists_goes step disk here
    cases hok : first.outcome with
    | error failure => exact ⟨_, .stopped hfirst hok⟩
    | ok u =>
      obtain ⟨rest, hrest⟩ := exists_goesAll steps first.disk here
      exact ⟨_, .next hfirst hok hrest⟩

end

mutual

/-- A visit whose calls find the directories that they are made in goes as it is written. -/
theorem perform_go (tell : σ → Note → σ) (env : Environment) : ∀ (v : Visit) (disk : Disk)
    (here : Location) (course : Course), Goes disk here v course → here.IsNamed →
    (∀ stay ∈ course.stays, stay.1.Stands stay.2) → ∀ s,
      (go tell v).perform ⟨⟨disk, here, env⟩, s⟩ =
        (course.outcome, ⟨⟨course.disk, here, env⟩, course.notes.foldl tell s⟩)
  | .fail failure, disk, here, course, h, hnamed, hkept, s => by
    cases h
    rw [go]
    rfl
  | .change f, disk, here, course, h, hnamed, hkept, s => by
    cases h
    rw [go]
    rfl
  | .into directory passOn steps, disk, here, course, h, hnamed, hkept, s => by
    cases h with
    | untold htold =>
      rw [go, Action.perform_bind, Action.perform_outcome,
        Action.perform_within_untold (s := ⟨⟨disk, here, env⟩, s⟩) htold]
      cases passOn <;> rfl
    | refused htold h =>
      rw [go, Action.perform_bind, Action.perform_outcome,
        Action.perform_within_refused (s := ⟨⟨disk, here, env⟩, s⟩) htold h]
      cases passOn <;> rfl
    | @entered _ _ there _ _ _ _ course htold h hsteps =>
      have hthere := Disk.isNamed_of_enter hnamed h
      -- The steps are done there, behind the note that they begin.
      have hsteps := perform_goAll tell env steps disk there course hsteps hthere
        (fun stay hstay => hkept stay (by simp [hstay])) (tell s (.begun there))
      have hstands : course.disk.Stands here := hkept (course.disk, here) (by simp)
      have hback := Disk.enter_workingPath hnamed htold hstands there
      rw [go, Action.perform_bind, Action.perform_outcome,
        Action.perform_within_entered (s := ⟨⟨disk, here, env⟩, s⟩)
          (t := ⟨⟨course.disk, there, env⟩, course.notes.foldl tell (tell s (.begun there))⟩)
          htold h (by simpa [Action.perform_bind] using hsteps) hback]
      cases passOn <;> simp [Action.perform_bind, handed]

theorem perform_goAll (tell : σ → Note → σ) (env : Environment) : ∀ (steps : List Visit)
    (disk : Disk) (here : Location) (course : Course), GoesAll disk here steps course →
    here.IsNamed → (∀ stay ∈ course.stays, stay.1.Stands stay.2) → ∀ s,
      (goAll tell steps).perform ⟨⟨disk, here, env⟩, s⟩ =
        (course.outcome, ⟨⟨course.disk, here, env⟩, course.notes.foldl tell s⟩)
  | [], disk, here, course, h, hnamed, hkept, s => by
    cases h
    rw [goAll]
    rfl
  | step :: steps, disk, here, course, h, hnamed, hkept, s => by
    cases h with
    | stopped h hfail =>
      rw [goAll, Action.perform_bind, perform_go tell env step disk here _ h hnamed hkept s,
        hfail]
    | next h hok hrest =>
      have hfirst := perform_go tell env step disk here _ h hnamed
        (fun stay hstay => hkept stay (List.mem_append_left _ hstay)) s
      have hothers := perform_goAll tell env steps _ here _ hrest hnamed
        (fun stay hstay => hkept stay (List.mem_append_right _ hstay))
      rw [goAll, Action.perform_bind, hfirst, hok]
      dsimp only
      rw [hothers, List.foldl_append]

end

/--
**Work in directories nests.**

Whatever tree of calls is carried out, it comes to what the rules of `Goes` say, in which there is
no working directory that could be lost: a call works in the directory that its path leads to from
where the call is written, and when it is over, however it ends, one is there again; a directory
that cannot be entered is reported, and no step of the call is done; a failure reaches the caller as
it was raised, and there it is passed on or ends.  A call that is made so far down that its caller
could not be come back to is reported likewise.  All this holds as long as no directory in which a
call is made is removed before the call is over.
-/
theorem go_nests (tell : σ → Note → σ) (v : Visit) (w : Workspace) (s : σ)
    (hnamed : w.cwd.IsNamed) :
    (∃ course, Goes w.disk w.cwd v course) ∧
      ∀ course, Goes w.disk w.cwd v course →
        (∀ stay ∈ course.stays, stay.1.Stands stay.2) →
          (v.go tell).perform ⟨w, s⟩ =
            (course.outcome, ⟨{ w with disk := course.disk }, course.notes.foldl tell s⟩) :=
  ⟨exists_goes v w.disk w.cwd, fun course hgoes hkept =>
    perform_go tell w.env v w.disk w.cwd course hgoes hnamed hkept s⟩

/-- A tree with a directory inside another one, and a file beside them. -/
def nestedTree : Workspace where
  disk := ⟨[(["srv"], .directory), (["srv", "a"], .directory), (["srv", "a", "b"], .directory),
    (["srv", "f"], .file [] false)]⟩
  cwd := ["srv"]
  env := []

/-- A visit of that tree: a file cannot be entered, and a failure inside is passed on once. -/
def nestedVisit : Visit :=
  .into "a" false
    [.into "../f" false [], .into "b" true [.fail (.raised "lost")], .into "/srv" true []]

/-- What it comes to. -/
def nestedCourse : Course where
  notes :=
    [.begun ["srv", "a"],
      .over ["srv", "a"] (.error (.disk
        (.failed .notDirectory "chdir" (some "/srv/a") (some "../f")))),
      .begun ["srv", "a", "b"], .over ["srv", "a"] (.error (.raised "lost")),
      .over ["srv"] (.error (.raised "lost"))]
  outcome := .ok ()
  disk := nestedTree.disk
  stays :=
    [(nestedTree.disk, ["srv"]), (nestedTree.disk, ["srv", "a"]), (nestedTree.disk, ["srv", "a"]),
      (nestedTree.disk, ["srv", "a"]), (nestedTree.disk, ["srv"])]

theorem go_nests_nestedVisit :
    nestedTree.cwd.IsNamed ∧ Goes nestedTree.disk nestedTree.cwd nestedVisit nestedCourse ∧
      (∀ stay ∈ nestedCourse.stays, stay.1.Stands stay.2) ∧
      (nestedVisit.go fun log note => log ++ [note]).perform ⟨nestedTree, []⟩ =
        (nestedCourse.outcome, ⟨nestedTree, nestedCourse.notes⟩) := by
  have hnamed : nestedTree.cwd.IsNamed := by decide +kernel
  have hkept : ∀ stay ∈ nestedCourse.stays, stay.1.Stands stay.2 := by decide +kernel
  have hsrv : Location.workingPath ["srv"] = .ok "/srv" := by decide +kernel
  have hsrva : Location.workingPath ["srv", "a"] = .ok "/srv/a" := by decide +kernel
  have hfile : nestedTree.disk.enter ["srv", "a"] "../f" =
      .error (.failed .notDirectory "chdir" (some "/srv/a") (some "../f")) := by decide +kernel
  have hb : nestedTree.disk.enter ["srv", "a"] "b" = .ok ["srv", "a", "b"] := by decide +kernel
  have ha : nestedTree.disk.enter ["srv"] "a" = .ok ["srv", "a"] := by decide +kernel
  have hgoes : Goes nestedTree.disk nestedTree.cwd nestedVisit nestedCourse :=
    .entered hsrv ha (.next (.refused hsrva hfile) rfl
      (.stopped (.entered hsrva hb (.stopped .fail rfl)) rfl))
  exact ⟨hnamed, hgoes, hkept, (go_nests _ nestedVisit nestedTree [] hnamed).2 _ hgoes hkept⟩

end Visit

end GoldenRun
