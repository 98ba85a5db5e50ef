import GoldenRun.Failure.Basic

/-!
# Reports about a path

Two reports say something of a path: that nothing is there, or that it is a directory.  A report in
these words can come of nothing but a failed operation on the disk that names this path.

* `Report.machineText_eq_missing_iff`, `Report.machineText_eq_directory_iff`: when the report of a
  machine fault has these words
* `Failure.report_eq_missing_iff`, `Failure.report_eq_directory_iff`: when that of any failure has
  them, unless it is in the words of someone else
-/

namespace GoldenRun

open GoldenRun.Text

namespace Text

variable {front other text more : String}

/-- Whether a text begins so. -/
def Opens (front text : String) : Prop := front.toList <+: text.toList

theorem Opens.refl (text : String) : Opens text text := List.prefix_rfl

theorem Opens.append (h : Opens front text) (more : String) : Opens front (text ++ more) := by
  rw [Opens, String.toList_append]
  exact h.trans (List.prefix_append _ _)

/-- Of two texts with which a text begins one begins with the other. -/
theorem Opens.or (h : Opens front text) (h' : Opens other text) :
    Opens front other ∨ Opens other front :=
  List.prefix_or_prefix_of_prefix h h'

instance (front text : String) : Decidable (Opens front text) :=
  inferInstanceAs (Decidable (front.toList <+: text.toList))

/-- Neither of two texts begins with the other. -/
def Apart (front other : String) : Prop := ¬ Opens front other ∧ ¬ Opens other front

instance (front other : String) : Decidable (Apart front other) :=
  inferInstanceAs (Decidable (_ ∧ _))

theorem Apart.not_opens (h : Apart front other) (hopens : Opens front text) :
    ¬ Opens other text :=
  fun hother => (hopens.or hother).elim h.1 h.2

/-- The last character of a text. -/
def lastOf (text : String) : Option Char := text.toList.getLast?

theorem lastOf_append {c : Char} (h : lastOf more = some c) (text : String) :
    lastOf (text ++ more) = some c := by
  unfold lastOf at h ⊢
  rw [String.toList_append, List.getLast?_append, h]
  rfl

/-- A number ends with a digit. -/
theorem lastOf_toString (n : Nat) : ∃ c, lastOf (toString n) = some c ∧ c.isDigit = true := by
  have hne : Nat.toDigits 10 n ≠ [] := Nat.toDigits_ne_nil
  refine ⟨(Nat.toDigits 10 n).getLast hne, ?_, ?_⟩
  · rw [lastOf, Nat.toString_eq_ofList_toDigits, String.toList_ofList,
      List.getLast?_eq_some_getLast hne]
  · exact Nat.isDigit_of_mem_toDigits (by decide) (by decide) (List.getLast_mem hne)

end Text

namespace Report

variable {code message path text : String} {named : Option String}

/-! ## The two sentences -/

/-- The report that nothing is at a path. -/
def missingText (path : String) : String :=
  "File not found:" ++ (" \"" ++ path ++ "\"") ++
    ". Check that the path exists and --root points at the fixture tree."

/-- The report that a directory is at a path. -/
def directoryText (path : String) : String :=
  "Expected a file but found a directory:" ++ (" \"" ++ path ++ "\"") ++ "."

/-- How the two begin. -/
def openings : List String := ["File ", "Expected a "]

/-- A text that begins and ends like one of the two. -/
structure IsAboutPath (text : String) : Prop where
  opens : ∃ opening ∈ openings, Opens opening text
  closes : lastOf text = some '.'

theorem isAboutPath_missingText (path : String) : IsAboutPath (missingText path) where
  opens := ⟨"File ", by decide,
    ((by decide : Opens "File " "File not found:").append _).append _⟩
  closes := lastOf_append (by decide) _

theorem isAboutPath_directoryText (path : String) : IsAboutPath (directoryText path) where
  opens := ⟨"Expected a ", by decide,
    ((by decide : Opens "Expected a " "Expected a file but found a directory:").append _).append _⟩
  closes := lastOf_append (by decide) _

theorem not_isAboutPath_of_opens {front : String} (h : Opens front text)
    (hother : ∀ opening ∈ openings, Apart front opening) : ¬ IsAboutPath text := by
  rintro ⟨⟨opening, hmem, hopens⟩, -⟩
  exact (hother opening hmem).not_opens h hopens

theorem not_isAboutPath_of_last {c : Char} (h : lastOf text = some c) (hc : c ≠ '.') :
    ¬ IsAboutPath text :=
  fun habout => hc (Option.some.inj (h.symm.trans habout.closes))

/-! ## Machine faults -/

/-- A path as it stands in the report of a machine fault; one that is empty is not shown. -/
def shownPath : Option String → String
  | some p => if p = "" then "" else " \"" ++ p ++ "\""
  | none => ""

theorem shownPath_eq_iff :
    shownPath named = " \"" ++ path ++ "\"" ↔ named = some path ∧ path ≠ "" := by
  have hquoted : "" ≠ " \"" ++ path ++ "\"" := by
    rw [ne_comm, Ne, String.append_eq_empty_iff]
    exact fun h => absurd h.2 (by decide)
  cases named with
  | none => simp [shownPath, hquoted]
  | some p =>
    by_cases hp : p = ""
    · simp only [shownPath, hp, if_true, hquoted, false_iff, Option.some.injEq]
      exact fun h => h.2 h.1.symm
    · simp only [shownPath, hp, if_false, String.append_left_inj, String.append_right_inj,
        Option.some.injEq]
      exact ⟨fun h => ⟨h, h ▸ hp⟩, And.left⟩

/-- A sentence about a path is the same for no other path. -/
theorem sentence_eq_iff {front rest : String} :
    front ++ shownPath named ++ rest = front ++ (" \"" ++ path ++ "\"") ++ rest ↔
      named = some path ∧ path ≠ "" := by
  rw [String.append_left_inj, String.append_right_inj, shownPath_eq_iff]

/-- How the report of a machine fault begins. -/
def machineOpening (code : String) : String :=
  if code = "ENOENT" then "File not found:"
  else if code = "EACCES" ∨ code = "EPERM" then "Permission denied:"
  else if code = "EISDIR" then "Expected a file but found a directory:"
  else "System error ("

theorem opens_machineText (code message : String) (named : Option String) :
    Opens (machineOpening code) (machineText code message named) := by
  unfold machineOpening machineText
  dsimp only
  split
  · exact ((Opens.refl _).append _).append _
  split
  · exact ((Opens.refl _).append _).append _
  split
  · exact ((Opens.refl _).append _).append _
  · exact (((((Opens.refl _).append _).append _).append _).append _).append _

/-- A sentence that stands for one code, and begins as no other report does, is told of no other
code and no other path. -/
theorem machineText_eq_iff {goal front rest : String}
    (hgoal : ∀ message named, machineText goal message named = front ++ shownPath named ++ rest)
    (hother : code ≠ goal → Apart (machineOpening code) front) :
    machineText code message named = front ++ (" \"" ++ path ++ "\"") ++ rest ↔
      code = goal ∧ named = some path ∧ path ≠ "" := by
  by_cases hcode : code = goal
  · obtain rfl := hcode
    rw [hgoal, sentence_eq_iff]
    exact ⟨fun h => ⟨rfl, h⟩, And.right⟩
  · refine ⟨fun h => absurd ?_ ((hother hcode).not_opens (opens_machineText code message named)),
      fun h => absurd h.1 hcode⟩
    rw [h]
    exact ((Opens.refl front).append _).append _

theorem machineText_eq_missing_iff :
    machineText code message named = missingText path ↔
      code = "ENOENT" ∧ named = some path ∧ path ≠ "" := by
  refine machineText_eq_iff (fun message named => by cases named <;> rfl) fun hcode => ?_
  rw [machineOpening, if_neg hcode]
  split
  · decide
  split <;> decide

theorem machineText_eq_directory_iff :
    machineText code message named = directoryText path ↔
      code = "EISDIR" ∧ named = some path ∧ path ≠ "" := by
  refine machineText_eq_iff (fun message named => by cases named <;> rfl) fun hcode => ?_
  rw [machineOpening, if_neg hcode]
  split
  · decide
  split <;> decide

/-! ## Other texts -/

theorem not_isAboutPath_documentText (reason : Option String) (mark : Option Mark) :
    ¬ IsAboutPath (documentText reason mark) := by
  have hopens : Opens "Failed to parse YAML: " (documentText reason mark) := by
    unfold documentText
    dsimp only
    split
    · exact (((((((Opens.refl _).append _).append _).append _).append _).append _).append _)
    · exact (Opens.refl _).append _
  exact not_isAboutPath_of_opens hopens (by decide)

end Report

open Report

/-- Each fault has a code of its own. -/
theorem DiskFault.code_inj {fault fault' : DiskFault} :
    fault.code = fault'.code ↔ fault = fault' := by
  cases fault <;> cases fault' <;> decide

/-- The message of a template's fault is no report about a path. -/
theorem Template.Fault.not_isAboutPath (fault : Template.Fault) :
    ¬ IsAboutPath fault.message := by
  cases fault with
  | unrecognized line s =>
    exact not_isAboutPath_of_opens ((((Opens.refl _).append _).append _).append _) (by decide)
  | unexpected line s expected got =>
    exact not_isAboutPath_of_opens
      (((((((((Opens.refl _).append _).append _).append _).append _).append _).append _).append
        _).append _) (by decide)
  | unmatched opened closed place =>
    obtain ⟨c, hc, hdigit⟩ := lastOf_toString place.column
    refine not_isAboutPath_of_last (lastOf_append (lastOf_append hc _) _) ?_
    rintro rfl
    cases hdigit
  | invalidPath path place =>
    exact not_isAboutPath_of_opens (((Opens.refl _).append _).append _) (by decide)
  | decoratorInverse => exact not_isAboutPath_of_opens (Opens.refl _) (by decide)
  | partialArguments count place =>
    exact not_isAboutPath_of_opens (((Opens.refl _).append _).append _) (by decide)
  | notDefined name holder place =>
    exact not_isAboutPath_of_opens (((((Opens.refl _).append _).append _).append _).append _)
      (by decide)
  | notSearchable name holder =>
    exact not_isAboutPath_of_opens ((((Opens.refl _).append _).append _).append _) (by decide)
  | noHolder holder property =>
    exact not_isAboutPath_of_opens (((((Opens.refl _).append _).append _).append _).append _)
      (by decide)
  | notCallable what => exact not_isAboutPath_of_last (lastOf_append rfl _) (by decide)
  | oneArgument helper =>
    exact not_isAboutPath_of_opens (((Opens.refl _).append _).append _) (by decide)
  | noIterator => exact not_isAboutPath_of_opens (Opens.refl _) (by decide)
  | noPartial name =>
    exact not_isAboutPath_of_opens (((Opens.refl _).append _).append _) (by decide)
  | noDecorator name =>
    exact not_isAboutPath_of_opens (((Opens.refl _).append _).append _) (by decide)
  | outOfReach name => exact not_isAboutPath_of_last (lastOf_append rfl _) (by decide)
  | tooDeep => exact not_isAboutPath_of_opens (Opens.refl _) (by decide)

/-- The report of a malformed document is no report about a path. -/
theorem Yaml.Error.not_isAboutPath (error : Yaml.Error) :
    ¬ IsAboutPath (Failure.document error).report := by
  obtain ⟨fault, mark⟩ := error
  cases fault with
  | notText question =>
    -- The document is well-formed; the message stands by itself.
    have hreason : Opens "data." (Yaml.Fault.notText question).reason :=
      ((Opens.refl _).append _).append _
    have hopens : Opens "data." (Yaml.Error.message ⟨.notText question, mark⟩) := by
      cases mark with
      | none => exact hreason
      | some mark => exact (((hreason.append _).append _).append _).append _
    exact not_isAboutPath_of_opens hopens (by decide)
  | _ => exact not_isAboutPath_documentText _ _

namespace Defect

/-- Whether a defect is in words that are not the harness's own. -/
def IsForeign : Defect → Prop
  | .stated _ => True
  | _ => False

/-- The message of a defect is no report about a path. -/
theorem not_isAboutPath {defect : Defect} (hown : ¬ defect.IsForeign) :
    ¬ IsAboutPath defect.message := by
  cases defect with
  | noGeneralManifest name =>
    exact not_isAboutPath_of_opens (((Opens.refl _).append _).append _) (by decide)
  | noTool path => exact not_isAboutPath_of_opens ((Opens.refl _).append _) (by decide)
  | missingFixture kind name expectedPath =>
    exact not_isAboutPath_of_opens
      ((((((Opens.refl _).append _).append _).append _).append _).append _) (by decide)
  | invalidFixture path lineNumber reason =>
    exact not_isAboutPath_of_opens
      ((((((Opens.refl _).append _).append _).append _).append _).append _) (by decide)
  | replayFailed trace output =>
    exact not_isAboutPath_of_opens (((((Opens.refl _).append _).append _).append _).append _)
      (by decide)
  | mismatch fixture missing output =>
    exact not_isAboutPath_of_opens
      ((((((((((Opens.refl _).append _).append _).append _).append _).append _).append _).append
        _).append _).append _) (by decide)
  | configuration path problems =>
    exact not_isAboutPath_of_opens ((((Opens.refl _).append _).append _).append _) (by decide)
  | stated message => exact absurd trivial hown

end Defect

namespace Failure

/-- Whether a failure is in words that are not the harness's own. -/
def IsForeign : Failure → Prop
  | .defect d => d.IsForeign
  | .raised _ => True
  | _ => False

variable {failure : Failure} {path : String}

theorem report_disk (error : DiskError) :
    (Failure.disk error).report = machineText error.code error.message error.path? := rfl

/-- A report about a path is that of a machine fault. -/
theorem report_of_isAboutPath (hown : ¬ failure.IsForeign) (h : IsAboutPath failure.report) :
    ∃ code, failure.subject.code = some code ∧
      failure.report = machineText code failure.message failure.subject.path := by
  cases failure with
  | defect d => exact absurd h (Defect.not_isAboutPath hown)
  | disk error => exact ⟨error.code, rfl, rfl⟩
  | document error => exact absurd h error.not_isAboutPath
  | template fault => exact absurd h fault.not_isAboutPath
  | emptyBuildCommand => exact absurd h (not_isAboutPath_of_opens (Opens.refl _) (by decide))
  | request fault => exact ⟨fault.code, rfl, rfl⟩
  | raised message => exact absurd trivial hown

/-- Nothing but an operation on the disk names a path. -/
theorem eq_disk_of_subject (fault : DiskFault) (hcode : failure.subject.code = some fault.code)
    (hpath : failure.subject.path = some path) :
    ∃ call destination, failure = .disk (.failed fault call (some path) destination) := by
  cases failure with
  | disk error =>
    cases error with
    | failed fault' call named destination =>
      obtain rfl : fault' = fault := DiskFault.code_inj.mp (Option.some.inj hcode)
      obtain rfl : named = some path := hpath
      exact ⟨call, destination, rfl⟩
    | nulInPath argument path => cases hpath
  | _ => cases hpath

/-- A text about a path that stands for one fault of the disk is told of no other failure. -/
theorem report_eq_iff {fault : DiskFault} {text : String} (hown : ¬ failure.IsForeign)
    (habout : IsAboutPath text)
    (htext : ∀ code message named, machineText code message named = text ↔
      code = fault.code ∧ named = some path ∧ path ≠ "") :
    failure.report = text ↔ path ≠ "" ∧
      ∃ call destination, failure = .disk (.failed fault call (some path) destination) := by
  constructor
  · rintro rfl
    obtain ⟨code, hcode, hmachine⟩ := report_of_isAboutPath hown habout
    obtain ⟨rfl, hnamed, hpath⟩ := (htext _ _ _).mp hmachine.symm
    exact ⟨hpath, eq_disk_of_subject fault hcode hnamed⟩
  · rintro ⟨hpath, call, destination, rfl⟩
    rw [report_disk]
    exact (htext _ _ _).mpr ⟨rfl, rfl, hpath⟩

/-- **Only a failed operation on the disk is reported as missing a path, and it names the path.** -/
theorem report_eq_missing_iff (hown : ¬ failure.IsForeign) :
    failure.report = missingText path ↔ path ≠ "" ∧
      ∃ call destination, failure = .disk (.failed .notFound call (some path) destination) :=
  report_eq_iff hown (isAboutPath_missingText path) fun _ _ _ => machineText_eq_missing_iff

/-- **Only a failed operation on the disk is reported as finding a directory at a path, and it names
the path.** -/
theorem report_eq_directory_iff (hown : ¬ failure.IsForeign) :
    failure.report = directoryText path ↔ path ≠ "" ∧
      ∃ call destination, failure = .disk (.failed .isDirectory call (some path) destination) :=
  report_eq_iff hown (isAboutPath_directoryText path) fun _ _ _ => machineText_eq_directory_iff

end Failure

end GoldenRun
