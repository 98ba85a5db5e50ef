import GoldenRun.Template.Evaluation
import Mathlib.Data.List.Forall2

/-!
# Templates of texts and variables

* `Filling.Yields`, `Filling.Fails`: a part of a rendering that cannot fail, and one that must
* `Fields.answer?`: what a context answers to a name
* `yields_run`, `fails_run`: a routine yields what its steps write, or fails with one of them
* `render_of_isPlain`: a template of texts and variables can be filled in
-/

namespace GoldenRun.Template

open Filling

variable {α β : Type} {fields : Fields} {fuel : Nat} {steps : List Step} {texts : List String}
  {s : Scope} {r : Routine}

/-! ## Parts that cannot fail -/

namespace Filling

/-- A part of a rendering yields a value, whatever the rendering remembers. -/
def Yields (m : Filling α) (a : α) : Prop := ∀ s : Session, ∃ t, m.run.run s = (.ok a, t)

namespace Yields

theorem pure (a : α) : Yields (Pure.pure a) a := fun s => ⟨s, rfl⟩

theorem bind {m : Filling α} {f : α → Filling β} {a : α} {b : β} (hm : m.Yields a)
    (hf : (f a).Yields b) : (m >>= f).Yields b := by
  intro s
  obtain ⟨t, ht⟩ := hm s
  obtain ⟨u, hu⟩ := hf t
  refine ⟨u, ?_⟩
  show (ExceptT.bindCont f (m.run.run s).1).run (m.run.run s).2 = _
  rw [ht]
  exact hu

/-- The mark of a new object is of no matter. -/
theorem newObject_bind {f : Datum → Filling β} {b : β}
    (h : ∀ mark, (f (.object mark fields)).Yields b) :
    (newObject fields >>= f).Yields b := by
  intro s
  obtain ⟨t, ht⟩ := h s.mark { s with mark := s.mark + 1 }
  exact ⟨t, ht⟩

theorem ok (a : α) : (liftM (Except.ok a : Except Fault α) : Filling α).Yields a :=
  fun s => ⟨s, rfl⟩

theorem tell (n : Notice) : (tell n).Yields () := fun _ => ⟨_, rfl⟩

theorem missName (name : String) : (missName name).Yields () := by
  unfold Template.missName
  split
  · exact tell _
  · exact pure ()

end Yields

/-- A part of a rendering fails, whatever the rendering remembers. -/
def Fails (m : Filling α) : Prop := ∀ s : Session, ∃ fault t, m.run.run s = (.error fault, t)

namespace Fails

theorem bind {m : Filling α} {f : α → Filling β} (hm : m.Fails) : (m >>= f).Fails := by
  intro s
  obtain ⟨fault, t, ht⟩ := hm s
  refine ⟨fault, t, ?_⟩
  show (ExceptT.bindCont f (m.run.run s).1).run (m.run.run s).2 = _
  rw [ht]
  rfl

theorem bind_of_yields {m : Filling α} {f : α → Filling β} {a : α} (hm : m.Yields a)
    (hf : (f a).Fails) : (m >>= f).Fails := by
  intro s
  obtain ⟨t, ht⟩ := hm s
  obtain ⟨fault, u, hu⟩ := hf t
  refine ⟨fault, u, ?_⟩
  show (ExceptT.bindCont f (m.run.run s).1).run (m.run.run s).2 = _
  rw [ht]
  exact hu

theorem newObject_bind {f : Datum → Filling β} (h : ∀ mark, (f (.object mark fields)).Fails) :
    (newObject fields >>= f).Fails := by
  intro s
  obtain ⟨fault, t, ht⟩ := h s.mark { s with mark := s.mark + 1 }
  exact ⟨fault, t, ht⟩

theorem error (fault : Fault) : (liftM (Except.error fault : Except Fault α) : Filling α).Fails :=
  fun s => ⟨fault, s, rfl⟩

end Fails

end Filling

/-! ## Variables -/

/-- What a context answers to a name: the value of its field, or no value to a name to which
everything answers. -/
def Fields.answer? (fields : Fields) (name : String) : Option Datum :=
  match fields.get? name with
  | some value => some value
  | none => if name ∈ commonNames ∨ name ∈ silentNames then some .undefined else none

theorem strictProperty_object (mark : Nat) (fields : Fields) (name : String) (place : Place) :
    (Datum.object mark fields).strictProperty name place =
      match fields.answer? name with
      | some value => .ok value
      | none => .error (.notDefined name "[object Object]" place) := by
  have hown : (Datum.object mark fields).own? name = fields.get? name := rfl
  cases hget : fields.get? name with
  | some value => simp only [Datum.strictProperty, Fields.answer?, hown, hget]
  | none =>
    simp only [Datum.strictProperty, Datum.isDenied, Fields.answer?, hown, hget]
    by_cases hname : name ∈ commonNames ∨ name ∈ silentNames
    · simp [hname]
    · simp [hname, Datum.text]

/-- Whether a value is read as a variable of the template. -/
def Access.isVariable (a : Access) (name : String) : Bool :=
  a.origin = .context 0 && a.names = [name]

/-- Whether a tag asks for a variable of the template. -/
def Asking.isVariable (name : String) : Asking → Bool
  | .either _ access | .value access => access.isVariable name
  | .call .. => false

theorem readLast_variable {mark : Nat} {name : String} {access : Access}
    (hcontext : s.context = .object mark fields) (haccess : access.isVariable name = true) :
    s.readLast access = readStrictly (.object mark fields) name access.place := by
  rw [Access.isVariable, Bool.and_eq_true, decide_eq_true_eq, decide_eq_true_eq] at haccess
  obtain ⟨horigin, hnames⟩ := haccess
  have hsearches : access.searches = true := by
    rw [Access.searches, hnames, horigin]
    rfl
  rw [Scope.readLast, if_pos hsearches, hnames, horigin]
  simp [Scope.start, hcontext]

/-- The value of a variable. -/
theorem yields_readLast {mark : Nat} {name : String} {access : Access} {value : Datum}
    (hcontext : s.context = .object mark fields) (haccess : access.isVariable name = true)
    (hvalue : fields.answer? name = some value) : (s.readLast access).Yields value := by
  rw [readLast_variable hcontext haccess, readStrictly, strictProperty_object, hvalue]
  refine .bind (.ok value) ?_
  split
  · exact .bind (.tell _) (.pure _)
  · exact .pure _

/-- A variable to which the context does not answer. -/
theorem fails_readLast {mark : Nat} {name : String} {access : Access}
    (hcontext : s.context = .object mark fields) (haccess : access.isVariable name = true)
    (hvalue : fields.answer? name = none) : (s.readLast access).Fails := by
  rw [readLast_variable hcontext haccess, readStrictly, strictProperty_object, hvalue]
  exact .bind (.error _)

theorem yields_ask {mark : Nat} {name text : String} {asking : Asking} {value : Datum}
    (passes : Bool) (hcontext : s.context = .object mark fields)
    (hasking : asking.isVariable name = true) (hvalue : fields.answer? name = some value)
    (hshown : value.shown = .string text) :
    (ask (fuel + 2) s passes asking none).Yields value := by
  cases asking with
  | call => cases hasking
  | either name access =>
    rw [ask]
    refine .bind (.missName name) (.bind (yields_readLast hcontext hasking hvalue) ?_)
    refine .bind (.pure _) ?_
    cases value with
    | block => cases hshown
    | _ => exact .bind (.pure _) (.pure _)
  | value access =>
    rw [ask]
    refine .bind (yields_readLast hcontext hasking hvalue) ?_
    cases value with
    | block => cases hshown
    | _ => exact .bind (.pure _) (.pure _)

theorem fails_ask {mark : Nat} {name : String} {asking : Asking} (passes : Bool)
    (hcontext : s.context = .object mark fields) (hasking : asking.isVariable name = true)
    (hvalue : fields.answer? name = none) : (ask (fuel + 2) s passes asking none).Fails := by
  cases asking with
  | call => cases hasking
  | either name access =>
    rw [ask]
    exact .bind_of_yields (.missName name) (.bind (fails_readLast hcontext hasking hvalue))
  | value access =>
    rw [ask]
    exact .bind (fails_readLast hcontext hasking hvalue)

/-! ## Steps -/

/-- A step writes a text, whatever is passed on. -/
def Step.Writes (fuel : Nat) (s : Scope) (step : Step) (text : String) : Prop :=
  ∀ passes, (runStep fuel s passes step).Yields [.inline (.string text)]

/-- A step fails, whatever is passed on. -/
def Step.Fails (fuel : Nat) (s : Scope) (step : Step) : Prop :=
  ∀ passes, (runStep fuel s passes step).Fails

theorem writes_text (text : String) : (Step.text text).Writes (fuel + 1) s text := fun _ => .pure _

theorem writes_variable {mark : Nat} {name text : String} {asking : Asking} {value : Datum}
    (hcontext : s.context = .object mark fields) (hasking : asking.isVariable name = true)
    (hvalue : fields.answer? name = some value) (hshown : value.shown = .string text) :
    (Step.write asking).Writes (fuel + 3) s text := by
  intro passes
  rw [runStep, ← hshown]
  exact .bind (yields_ask passes hcontext hasking hvalue hshown) (.pure _)

theorem fails_variable {mark : Nat} {name : String} {asking : Asking}
    (hcontext : s.context = .object mark fields) (hasking : asking.isVariable name = true)
    (hvalue : fields.answer? name = none) : (Step.write asking).Fails (fuel + 3) s := by
  intro passes
  rw [runStep]
  exact .bind (fails_ask passes hcontext hasking hvalue)

/-! ## Routines -/

/-- What steps write that write texts. -/
def written (texts : List String) : List Written := texts.map fun text => .inline (.string text)

/-- The steps write their texts one after the other. -/
theorem yields_steps (hsteps : List.Forall₂ (Step.Writes fuel s) steps texts)
    (before : List Written) (passes : Bool) :
    ∃ passes', Filling.Yields (steps.foldlM (fun (before, passes) step => do
        let passes := passes || step.usesParams
        let more ← runStep fuel s passes step
        return (before ++ more, passes)) (before, passes))
      (before ++ written texts, passes') := by
  induction hsteps generalizing before passes with
  | nil => exact ⟨passes, by simpa [written] using Yields.pure (before, passes)⟩
  | @cons step text steps texts hstep hsteps ih =>
    obtain ⟨passes', hyields⟩ := ih (before ++ [.inline (.string text)])
      (passes || step.usesParams)
    refine ⟨passes', ?_⟩
    rw [List.foldlM_cons]
    refine .bind (.bind (hstep _) (.pure _)) ?_
    simpa [written] using hyields

/-- Steps fail of which one fails and the others write texts. -/
theorem fails_steps (hsteps : ∀ step ∈ steps, (∃ text, step.Writes fuel s text) ∨ step.Fails fuel s)
    (hfails : ∃ step ∈ steps, step.Fails fuel s) (before : List Written) (passes : Bool) :
    Filling.Fails (steps.foldlM (fun (before, passes) step => do
        let passes := passes || step.usesParams
        let more ← runStep fuel s passes step
        return (before ++ more, passes)) (before, passes)) := by
  induction steps generalizing before passes with
  | nil =>
    obtain ⟨step, hstep, -⟩ := hfails
    cases hstep
  | cons step steps ih =>
    rw [List.forall_mem_cons] at hsteps
    rw [List.foldlM_cons]
    by_cases hfail : step.Fails fuel s
    · exact .bind (.bind (hfail _))
    · obtain ⟨text, hwrites⟩ := hsteps.1.resolve_right hfail
      obtain ⟨other, hother, hothers⟩ := hfails
      have hmem : other ∈ steps := (List.mem_cons.mp hother).resolve_left fun h =>
        hfail (h ▸ hothers)
      exact .bind_of_yields (.bind (hwrites _) (.pure _)) (ih hsteps.2 ⟨other, hmem, hothers⟩ _ _)

theorem besideAll_strings (texts : List String) :
    besideAll (texts.map .string) = .string (String.join texts) := by
  have hfold : ∀ (texts : List String) (text : String),
      (texts.map Datum.string).foldl Datum.beside (.string text) =
        .string (texts.foldl (· ++ ·) text) := by
    intro texts
    induction texts with
    | nil => exact fun _ => rfl
    | cons more texts ih => exact fun text => ih (text ++ more)
  cases texts with
  | nil => rfl
  | cons text texts =>
    rw [List.map_cons, besideAll, hfold, String.join, List.foldl_cons, String.empty_append]

/-- What texts come to. -/
theorem assemble_written (single : Bool) (texts : List String) :
    assemble single (written texts) = .string (String.join texts) := by
  have htake : takeInline (written texts) = (texts.map .string, []) := by
    induction texts with
    | nil => rfl
    | cons text texts ih =>
      rw [written] at ih
      rw [written, List.map_cons, takeInline, ih]
      rfl
  have hmany : continueWith ((written texts).length + 1)
      (besideAll (takeInline (written texts)).1) (takeInline (written texts)).2 =
        .string (String.join texts) := by
    rw [htake]
    exact besideAll_strings texts
  unfold assemble
  split
  · next d hwritten =>
    obtain ⟨text, rfl, hd⟩ := List.map_eq_singleton_iff.mp hwritten
    obtain rfl : Datum.string text = d := Written.inline.inj hd
    simp [String.join, Datum.shown]
  · next d hwritten =>
    obtain ⟨text, rfl, hd⟩ := List.map_eq_singleton_iff.mp hwritten
    cases hd
  · exact hmany

/-- **A routine whose steps write texts yields them one behind the other.** -/
theorem yields_run (hsteps : List.Forall₂ (Step.Writes fuel s) r.steps texts) :
    (run (fuel + 1) r s).Yields (.string (String.join texts)) := by
  -- Whether a routine is single decides how its result is put together, not what it is.
  obtain ⟨passes, hyields⟩ := yields_steps hsteps [] (r.steps.any Step.innerUsesParams)
  rw [run]
  refine .bind hyields ?_
  rw [List.nil_append, ← assemble_written r.single]
  exact .pure _

/-- Where nothing is declared, there are no declarations. -/
theorem yields_declarations (hsteps : ∀ step ∈ steps, ¬step matches .declare ..) :
    (declarations (fuel + 1) s steps).Yields [] := by
  rw [declarations]
  induction steps with
  | nil => exact .pure _
  | cons step steps ih =>
    rw [List.forall_mem_cons] at hsteps
    rw [List.foldlM_cons]
    refine .bind (a := []) ?_ (ih hsteps.2)
    cases step with
    | declare => exact absurd rfl hsteps.1
    | _ => exact .pure _

theorem yields_runTemplate (hdeclare : ∀ step ∈ r.steps, ¬step matches .declare ..)
    (hsteps : ∀ s : Scope, s.context = .object 1 fields →
      List.Forall₂ (Step.Writes fuel s) r.steps texts) :
    (runTemplate (fuel + 1) r fields).Yields (String.join texts) := by
  rw [runTemplate]
  refine .newObject_bind fun mark => .bind (yields_declarations hdeclare) ?_
  exact .bind (yields_run (hsteps _ rfl)) (.pure _)

theorem fails_runTemplate (hdeclare : ∀ step ∈ r.steps, ¬step matches .declare ..)
    (hsteps : ∀ s : Scope, s.context = .object 1 fields →
      (∀ step ∈ r.steps, (∃ text, step.Writes fuel s text) ∨ step.Fails fuel s) ∧
        ∃ step ∈ r.steps, step.Fails fuel s) :
    (runTemplate (fuel + 1) r fields).Fails := by
  rw [runTemplate]
  refine .newObject_bind fun mark => .bind_of_yields (yields_declarations hdeclare) ?_
  refine .bind ?_
  rw [run]
  exact .bind (fails_steps (hsteps _ rfl).1 (hsteps _ rfl).2 [] _)

/-! ## Templates -/

/-- What a template comes to is what its routine comes to. -/
theorem render_of_yields {template text : String} {p : Program} (hread : read template = .ok p)
    (hcheck : checkProgram p = .ok ())
    (hyields : (runTemplate (16 * template.length + 2000) (trimTemplate p).sharedRoutine
      fields).Yields text) : render template fields = .ok text := by
  obtain ⟨t, ht⟩ := hyields {}
  rw [render, rendering, hread]
  simp only [hcheck]
  exact congrArg Prod.fst ht

theorem render_of_fails {template : String} {p : Program} (hread : read template = .ok p)
    (hcheck : checkProgram p = .ok ())
    (hfails : (runTemplate (16 * template.length + 2000) (trimTemplate p).sharedRoutine
      fields).Fails) : ∃ fault, render template fields = .error fault := by
  obtain ⟨fault, t, ht⟩ := hfails {}
  refine ⟨fault, ?_⟩
  rw [render, rendering, hread]
  simp only [hcheck]
  exact congrArg Prod.fst ht

/-- Whether a step is a text or one of some variables. -/
def Step.isPlain (names : List String) : Step → Bool
  | .text _ => true
  | .write (.either name access) => access.isVariable name && names.contains name
  | _ => false

/-- Whether a template consists of texts and of some variables. -/
def isPlain (names : List String) (template : String) : Bool :=
  match read template with
  | .ok p =>
    (checkProgram p matches .ok ()) && (trimTemplate p).sharedRoutine.steps.all (Step.isPlain names)
  | .error _ => false

/-- A plain step writes a text that depends on the values of the variables alone. -/
theorem writes_of_isPlain {names : List String} {step : Step} (h : step.isPlain names = true)
    (hnames : ∀ name ∈ names, ∃ text, fields.get? name = some (.string text)) :
    ∃ text, ∀ s : Scope, s.context = .object 1 fields → step.Writes (fuel + 3) s text := by
  unfold Step.isPlain at h
  split at h
  · exact ⟨_, fun s _ => writes_text _⟩
  · next name access =>
    rw [Bool.and_eq_true, List.contains_eq_mem, decide_eq_true_eq] at h
    obtain ⟨text, htext⟩ := hnames name h.2
    have hanswer : fields.answer? name = some (.string text) := by simp [Fields.answer?, htext]
    exact ⟨text, fun s hcontext => writes_variable hcontext h.1 hanswer rfl⟩
  · cases h

/-- A template of texts and variables can be filled in. -/
theorem render_of_isPlain {names : List String} {template : String}
    (h : isPlain names template = true)
    (hnames : ∀ name ∈ names, ∃ text, fields.get? name = some (.string text)) :
    ∃ text, render template fields = .ok text := by
  unfold isPlain at h
  split at h
  · next p hread =>
    rw [Bool.and_eq_true] at h
    obtain ⟨hcheck, hall⟩ := h
    have hprogram : checkProgram p = .ok () := by
      cases hprogram : checkProgram p with
      | ok u => rfl
      | error fault =>
        rw [hprogram] at hcheck
        cases hcheck
    have hsteps : ∃ texts, ∀ s : Scope, s.context = .object 1 fields →
        List.Forall₂ (Step.Writes (16 * template.length + 1999) s)
          (trimTemplate p).sharedRoutine.steps texts := by
      generalize (trimTemplate p).sharedRoutine.steps = steps at hall
      induction steps with
      | nil => exact ⟨[], fun s _ => .nil⟩
      | cons step steps ih =>
        rw [List.all_cons, Bool.and_eq_true] at hall
        obtain ⟨text, htext⟩ := writes_of_isPlain hall.1 hnames
        obtain ⟨texts, htexts⟩ := ih hall.2
        exact ⟨text :: texts, fun s hcontext => .cons (htext s hcontext) (htexts s hcontext)⟩
    have hdeclare : ∀ step ∈ (trimTemplate p).sharedRoutine.steps, ¬step matches .declare .. := by
      intro step hmem hstep
      have hplain := List.all_eq_true.mp hall step hmem
      cases step with
      | declare => cases hplain
      | _ => cases hstep
    obtain ⟨texts, htexts⟩ := hsteps
    exact ⟨_, render_of_yields hread hprogram (yields_runTemplate hdeclare htexts)⟩
  · cases h

end GoldenRun.Template
