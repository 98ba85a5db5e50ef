import GoldenRun.Proofs.Template.Grammar
import GoldenRun.Proofs.Template.Variable

/-!
# Filling in texts and references

A pattern goes through every stage of a rendering part by part: no blanks are taken away, each part
becomes a step of its own, and the step writes the text or the answer to the name.

* `trimTemplate_parts`, `checkProgram_parts`, `sharedRoutine_parts`: one lemma per stage
* `render_source`: what the template of a pattern comes to
-/

namespace GoldenRun.Template

open GoldenRun.Text

variable {fields : Fields} {p : Pattern} {part : Part} {parts : List Part} {s : Statement}
  {statements : List Statement} {step : Step} {steps : List Step}

/-! ## From statements to steps -/

/-- No part takes blanks away. -/
theorem arrange_parts (isRoot : Bool) (done : List Statement)
    (h : List.Forall₂ Part.IsRead parts statements) :
    arrange isRoot [] done (trimList statements) = done.reverse ++ statements := by
  induction h generalizing done with
  | nil => simp [trimList, arrange]
  | @cons part s parts statements hpart _ ih =>
    have hstep : arrange isRoot [] done (trimList (s :: statements)) =
        arrange isRoot [] (s :: done) (trimList statements) := by
      cases part with
      | text text =>
        obtain rfl := hpart
        rfl
      | name name =>
        obtain ⟨place, rfl⟩ := hpart
        rfl
    rw [hstep, ih]
    simp

theorem trimTemplate_parts (h : List.Forall₂ Part.IsRead parts statements) :
    trimTemplate (.mk statements none false) = .mk statements none false := by
  rw [trimTemplate, Program.mapStatements]
  exact congrArg (Program.mk · none false) (arrange_parts true [] h)

/-- No part is a partial. -/
theorem checkProgram_parts (h : List.Forall₂ Part.IsRead parts statements) :
    checkProgram (.mk statements none false) = .ok () := by
  rw [checkProgram]
  induction h with
  | nil => rfl
  | @cons part s parts statements hpart _ ih =>
    rw [checkAll]
    cases part with
    | text text =>
      obtain rfl := hpart
      exact ih
    | name name =>
      obtain ⟨place, rfl⟩ := hpart
      exact ih

/-- A part is carried out by a step. -/
def Part.IsDone : Part → Step → Prop
  | .text chars, step => step = .text (String.ofList chars)
  | .name x, step => ∃ asking, step = .write asking ∧ asking.isVariable x = true

/-- What a part must be like to have a step of its own. -/
def Part.IsProper : Part → Prop
  | .text chars => chars ≠ []
  | .name x => IsIdentifier x

theorem isProper_textParts {text : List Char} (h : part ∈ Pattern.textParts text) :
    part.IsProper := by
  rw [Pattern.textParts] at h
  split at h
  · cases h
  · next hne =>
    obtain rfl := List.mem_singleton.mp h
    exact hne

theorem Pattern.isProper_parts (p : Pattern) (hnames : ∀ x ∈ p.names, IsIdentifier x) :
    ∀ part ∈ p.parts, part.IsProper := by
  obtain ⟨pairs, last⟩ := p
  induction pairs with
  | nil => exact fun part h => isProper_textParts h
  | cons pair pairs ih =>
    rw [names_cons, List.forall_mem_cons] at hnames
    intro part h
    rw [parts_cons, List.mem_append, List.mem_cons] at h
    rcases h with htext | rfl | hrest
    · exact isProper_textParts htext
    · exact hnames.1
    · exact ih hnames.2 part hrest

/-- No helper has the name of a variable. -/
theorem ofName?_eq_none {name : String} (hname : IsIdentifier name) :
    Helper.ofName? name = none := by
  have hne : ∀ x ∈ reservedNames, name ≠ x := by
    rintro x hx rfl
    exact hname.not_reserved hx
  simp (disch := decide) [Helper.ofName?, hne]

/-- The tag of a name asks for a variable. -/
theorem isVariable_asking {name : String} (hname : IsIdentifier name) (place : Place) :
    (Call.asking [none] ⟨.path ⟨false, 0, [name], name, place⟩, [], []⟩).isVariable name =
      true := by
  have hne : name ≠ "" := fun h => hname.ne_nil (by rw [h]; rfl)
  have hhelper := ofName?_eq_none hname
  generalize hpath : (⟨false, 0, [name], name, place⟩ : NamePath) = path
  have hnames : path.names = [name] := by rw [← hpath]
  have hparam : path.param? [none] = none := by
    simp [NamePath.param?, hnames, Names.find?, Names.find?.go]
  have hvariable : (path.access [none]).isVariable name = true := by
    rw [NamePath.access, hparam, hnames]
    simp [hne, Access.isVariable, ← hpath]
  simp only [Call.asking, headPath, NamePath.isParam, hparam, NamePath.helper?, hnames,
    List.head?_cons, Option.bind_some, hhelper]
  -- A name that ends a word with `this` is never taken for a helper.
  by_cases hsimple : path.isSimple = true
  · simp [hsimple, Asking.isVariable, hvariable]
  · simp [hsimple, Asking.isVariable, hvariable]

theorem step?_parts (hproper : part.IsProper) (hpart : part.IsRead s) :
    ∃ step, s.step? [none] = some step ∧ part.IsDone step := by
  cases part with
  | text text =>
    obtain rfl := hpart
    exact ⟨_, if_neg (show ¬text = [] from hproper), rfl⟩
  | name name =>
    obtain ⟨place, rfl⟩ := hpart
    exact ⟨_, rfl, _, rfl, isVariable_asking hproper place⟩

theorem routineSteps_parts (hproper : ∀ part ∈ parts, part.IsProper)
    (h : List.Forall₂ Part.IsRead parts statements) :
    List.Forall₂ Part.IsDone parts (routineSteps [none] statements) := by
  induction h with
  | nil => exact .nil
  | @cons part s parts statements hpart _ ih =>
    rw [List.forall_mem_cons] at hproper
    obtain ⟨step, hstep, hdone⟩ := step?_parts hproper.1 hpart
    rw [routineSteps, hstep]
    exact .cons hdone (ih hproper.2)

/-- There is nothing to share inside the steps of parts. -/
theorem shareSteps_parts (h : List.Forall₂ Part.IsDone parts steps) (known : Known) :
    (shareSteps steps).run known = (steps, known) := by
  induction h with
  | nil => rfl
  | @cons part step parts steps hpart _ ih =>
    have hstep : step.share.run known = (step, known) := by
      cases part with
      | text text =>
        obtain rfl := hpart
        rfl
      | name name =>
        obtain ⟨asking, rfl, -⟩ := hpart
        rfl
    rw [shareSteps, StateT.run_bind, hstep]
    show StateT.run (shareSteps steps >>= fun rest => pure (step :: rest)) known = _
    rw [StateT.run_bind, ih]
    rfl

theorem sharedRoutine_parts (hproper : ∀ part ∈ parts, part.IsProper)
    (h : List.Forall₂ Part.IsRead parts statements) :
    List.Forall₂ Part.IsDone parts
      (Program.mk statements none false).sharedRoutine.steps := by
  have hsteps := routineSteps_parts hproper h
  have hshare := shareSteps_parts hsteps []
  rw [Program.sharedRoutine, Program.routine, Routine.ofSteps, Routine.shareInner,
    StateT.run_bind, hshare]
  exact hsteps

/-! ## From steps to texts -/

/-- The text of a part. -/
def Part.textIn (value : String → String) : Part → String
  | .text chars => String.ofList chars
  | .name x => value x

/-- Side by side, the texts of the parts are the pattern filled in. -/
theorem join_textIn (p : Pattern) (value : String → String) :
    String.join (p.parts.map (Part.textIn value)) = p.fill value := by
  have htext : ∀ text : List Char,
      ((Pattern.textParts text).map (Part.textIn value)).flatMap String.toList = text := by
    intro text
    rw [Pattern.textParts]
    split
    · next h => simp [h]
    · simp [Part.textIn]
  obtain ⟨pairs, last⟩ := p
  apply String.toList_injective
  rw [String.toList_join, Pattern.fill, String.toList_ofList]
  induction pairs with
  | nil => exact htext last
  | cons pair pairs ih =>
    rw [Pattern.parts_cons, List.map_append, List.flatMap_append, htext, List.map_cons,
      List.flatMap_cons, ih]
    simp [Part.textIn]

theorem writes_part {scope : Scope} {value : String → String} {fuel : Nat}
    (hcontext : scope.context = .object 1 fields)
    (hvalue : ∀ x, part = .name x → ∃ d, fields.answer? x = some d ∧ d.shown = .string (value x))
    (hdone : part.IsDone step) : step.Writes (fuel + 3) scope (part.textIn value) := by
  cases part with
  | text chars =>
    obtain rfl := hdone
    exact writes_text _
  | name x =>
    obtain ⟨asking, rfl, hasking⟩ := hdone
    obtain ⟨d, hanswer, hshown⟩ := hvalue x rfl
    exact writes_variable hcontext hasking hanswer hshown

/-- Every step is that of a part, and every part has a step. -/
theorem mem_of_isDone (h : List.Forall₂ Part.IsDone parts steps) :
    (∀ step ∈ steps, ∃ part ∈ parts, part.IsDone step) ∧
      ∀ part ∈ parts, ∃ step ∈ steps, part.IsDone step := by
  induction h with
  | nil => simp
  | cons hdone _ ih =>
    obtain ⟨hsteps, hparts⟩ := ih
    rw [List.forall_mem_cons, List.forall_mem_cons]
    refine ⟨⟨⟨_, List.mem_cons_self, hdone⟩, fun step hstep => ?_⟩,
      ⟨_, List.mem_cons_self, hdone⟩, fun part hpart => ?_⟩
    · obtain ⟨part, hpart, hdone⟩ := hsteps step hstep
      exact ⟨part, List.mem_cons_of_mem _ hpart, hdone⟩
    · obtain ⟨step, hstep, hdone⟩ := hparts part hpart
      exact ⟨step, List.mem_cons_of_mem _ hstep, hdone⟩

theorem not_declare_of_isDone (h : List.Forall₂ Part.IsDone parts steps) :
    ∀ step ∈ steps, ¬step matches .declare .. := by
  intro step hstep
  obtain ⟨part, -, hdone⟩ := (mem_of_isDone h).1 step hstep
  cases part with
  | text chars =>
    obtain rfl := hdone
    simp
  | name x =>
    obtain ⟨asking, rfl, -⟩ := hdone
    simp

theorem forall₂_writes {scope : Scope} {value : String → String} {fuel : Nat}
    (hcontext : scope.context = .object 1 fields)
    (hvalue : ∀ x, .name x ∈ parts →
      ∃ d, fields.answer? x = some d ∧ d.shown = .string (value x))
    (h : List.Forall₂ Part.IsDone parts steps) :
    List.Forall₂ (Step.Writes (fuel + 3) scope) steps (parts.map (Part.textIn value)) := by
  induction h with
  | nil => exact .nil
  | cons hdone _ ih =>
    refine .cons (writes_part hcontext (fun x hx => hvalue x (hx ▸ List.mem_cons_self)) hdone) ?_
    exact ih fun x hx => hvalue x (List.mem_cons_of_mem _ hx)

/-- **A pattern whose names are all answered by the context yields its text.** -/
theorem render_source {value : String → String} (hwell : p.IsWellFormed)
    (hnames : ∀ x ∈ p.names, IsIdentifier x)
    (hvalue : ∀ x ∈ p.names, isElse x.toList = false ∧
      ∃ d, fields.answer? x = some d ∧ d.shown = .string (value x)) :
    render p.source fields = .ok (p.fill value) := by
  rcases read_source p hwell hnames with ⟨-, statements, hparts, hread⟩ | ⟨⟨x, hx, helse⟩, -⟩
  · have hdone := sharedRoutine_parts (p.isProper_parts hnames) hparts
    refine render_of_yields hread (checkProgram_parts hparts) ?_
    rw [trimTemplate_parts hparts, ← join_textIn]
    refine yields_runTemplate (not_declare_of_isDone hdone) fun scope hcontext => ?_
    refine forall₂_writes hcontext (fun x hx => ?_) hdone
    exact (hvalue x (Pattern.name_mem_parts_iff.mp hx)).2
  · rw [(hvalue x hx).1] at helse
    cases helse

/-- **A pattern with a name that the context does not answer, or that opens a further branch,
yields nothing.** -/
theorem render_source_fails (hwell : p.IsWellFormed) (hnames : ∀ x ∈ p.names, IsIdentifier x)
    (hshown : ∀ x ∈ p.names, ∀ d, fields.answer? x = some d → ∃ text, d.shown = .string text)
    (hmissing : ∃ x ∈ p.names, isElse x.toList = true ∨ fields.answer? x = none) :
    ∃ fault, render p.source fields = .error fault := by
  rcases read_source p hwell hnames with ⟨hnone, statements, hparts, hread⟩ | ⟨-, fault, hfault⟩
  · obtain ⟨x, hx, hmissing⟩ := hmissing
    have hanswer : fields.answer? x = none := hmissing.resolve_left (by simp [hnone x hx])
    have hdone := sharedRoutine_parts (p.isProper_parts hnames) hparts
    refine render_of_fails hread (checkProgram_parts hparts) ?_
    rw [trimTemplate_parts hparts]
    refine fails_runTemplate (not_declare_of_isDone hdone) fun scope hcontext => ⟨?_, ?_⟩
    -- Every step either writes a text or fails, and that of the missing name fails.
    · intro step hstep
      obtain ⟨part, hpart, hstep⟩ := (mem_of_isDone hdone).1 step hstep
      cases part with
      | text chars =>
        obtain rfl := hstep
        exact .inl ⟨_, writes_text _⟩
      | name y =>
        obtain ⟨asking, rfl, hasking⟩ := hstep
        cases hy : fields.answer? y with
        | none => exact .inr (fails_variable hcontext hasking hy)
        | some d =>
          obtain ⟨text, htext⟩ := hshown y (Pattern.name_mem_parts_iff.mp hpart) d hy
          exact .inl ⟨text, writes_variable hcontext hasking hy htext⟩
    · obtain ⟨step, hstep, asking, rfl, hasking⟩ :=
        (mem_of_isDone hdone).2 (.name x) (Pattern.name_mem_parts_iff.mpr hx)
      exact ⟨_, hstep, fails_variable hcontext hasking hanswer⟩
  · exact ⟨fault, by rw [render, rendering, hfault]⟩

end GoldenRun.Template
