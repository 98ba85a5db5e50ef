import GoldenRun.Template.Scan
import Mathlib.Data.List.Infix

/-!
# Texts and references in turn

A pattern is what a template of texts and references is written from: some texts, each with the
reference behind it, and a last text.

* `Pattern.source`, `Pattern.fill`: the template, and what it stands for
* `Pattern.IsWellFormed`: no text runs into a tag
* `IsIdentifier`: the names of variables
-/

namespace GoldenRun.Template

open GoldenRun.Text

/-! ## Identifiers -/

/-- The marks that no plain name holds. -/
def nameMarks : List Char := "!\"#%&'()*+,./;<=>@[\\]^\x60\x7b|\x7d~".toList

/-- The names that mean something of their own: the helpers, the context itself, the literals. -/
def reservedNames : List String :=
  ["if", "unless", "with", "each", "lookup", "log", "helperMissing", "blockHelperMissing", "this",
    "true", "false", "null", "undefined"]

/-- Whether a text spells a whole number. -/
def isNumeral (text : List Char) : Bool :=
  let digits := match text with
    | '-' :: rest => rest
    | rest => rest
  digits ≠ [] && digits.all Char.isDigit

/-- A plain name that spells no number and means nothing of its own. -/
structure IsIdentifier (name : String) : Prop where
  ne_nil : name.toList ≠ []
  plain : ∀ c ∈ name.toList, isBlank c = false ∧ c ∉ nameMarks
  not_numeral : isNumeral name.toList = false
  not_reserved : name ∉ reservedNames

instance (name : String) : Decidable (IsIdentifier name) :=
  decidable_of_iff
    (name.toList ≠ [] ∧ (name.toList.all fun c => !isBlank c && !nameMarks.contains c) = true ∧
      isNumeral name.toList = false ∧ name ∉ reservedNames)
    ⟨fun h => ⟨h.1, by simpa using h.2.1, h.2.2.1, h.2.2.2⟩,
      fun h => ⟨h.1, by simpa using h.2, h.3, h.4⟩⟩

/-! ## Patterns -/

/-- A reference to a variable, with the blanks on its two sides. -/
structure Reference where
  /-- The blanks before the name. -/
  lead : List Char := []
  /-- The name. -/
  name : String
  /-- The blanks behind the name. -/
  trail : List Char := []
  deriving DecidableEq, Repr

/-- The tag of a reference. -/
def Reference.chars (x : Reference) : List Char :=
  '\x7b' :: '\x7b' :: (x.lead ++ (x.name.toList ++ (x.trail ++ ['\x7d', '\x7d'])))

/-- Texts and references in turn. -/
structure Pattern where
  /-- Each text that stands before a reference, with the reference. -/
  pairs : List (List Char × Reference)
  /-- The text at the end. -/
  last : List Char
  deriving DecidableEq, Repr

/-- A part of a pattern: a text that is not empty, or a name that is referred to. -/
inductive Part where
  /-- A text. -/
  | text (chars : List Char)
  /-- A name. -/
  | name (name : String)
  deriving DecidableEq, Repr

namespace Pattern

/-- The template as it is written. -/
def chars (p : Pattern) : List Char :=
  p.pairs.flatMap (fun (text, x) => text ++ x.chars) ++ p.last

/-- The template. -/
def source (p : Pattern) : String := String.ofList p.chars

/-- The pattern with a text in the place of every reference. -/
def fill (value : String → String) (p : Pattern) : String :=
  String.ofList (p.pairs.flatMap (fun (text, x) => text ++ (value x.name).toList) ++ p.last)

/-- The texts. -/
def texts (p : Pattern) : List (List Char) := p.pairs.map (·.1) ++ [p.last]

/-- The names that are referred to. -/
def names (p : Pattern) : List String := p.pairs.map (·.2.name)

/-- What an empty text or another one adds to the parts. -/
def textParts (text : List Char) : List Part := if text = [] then [] else [.text text]

/-- The parts, without the empty texts. -/
def parts (p : Pattern) : List Part :=
  p.pairs.flatMap (fun (text, x) => textParts text ++ [.name x.name]) ++ textParts p.last

/-- No text holds a tag or NUL or runs into the tag on either side. -/
structure IsWellFormed (p : Pattern) : Prop where
  plain : ∀ text ∈ p.texts, '\x00' ∉ text ∧ ¬['\x7b', '\x7b'] <:+: text
  ends : ∀ pair ∈ p.pairs, pair.1.getLast? ≠ some '\x7b' ∧ pair.1.getLast? ≠ some '\\'
  starts : ∀ text ∈ p.texts.tail, text.head? ≠ some '\x7d'
  blanks : ∀ pair ∈ p.pairs, allBlank pair.2.lead = true ∧ allBlank pair.2.trail = true

instance (p : Pattern) : Decidable p.IsWellFormed :=
  decidable_of_iff
    ((∀ text ∈ p.texts, '\x00' ∉ text ∧ ¬['\x7b', '\x7b'] <:+: text) ∧
      (∀ pair ∈ p.pairs, pair.1.getLast? ≠ some '\x7b' ∧ pair.1.getLast? ≠ some '\\') ∧
      (∀ text ∈ p.texts.tail, text.head? ≠ some '\x7d') ∧
      ∀ pair ∈ p.pairs, allBlank pair.2.lead = true ∧ allBlank pair.2.trail = true)
    ⟨fun h => ⟨h.1, h.2.1, h.2.2.1, h.2.2.2⟩, fun h => ⟨h.1, h.2, h.3, h.4⟩⟩

variable {pair : List Char × Reference} {pairs : List (List Char × Reference)} {last : List Char}

@[simp] theorem chars_cons : (Pattern.mk (pair :: pairs) last).chars =
    pair.1 ++ (pair.2.chars ++ (Pattern.mk pairs last).chars) := by
  simp [chars]

@[simp] theorem names_cons :
    (Pattern.mk (pair :: pairs) last).names = pair.2.name :: (Pattern.mk pairs last).names := rfl

@[simp] theorem parts_cons : (Pattern.mk (pair :: pairs) last).parts =
    textParts pair.1 ++ .name pair.2.name :: (Pattern.mk pairs last).parts := by
  simp [parts]

theorem name_mem_parts_iff {p : Pattern} {x : String} :
    .name x ∈ p.parts ↔ x ∈ p.names := by
  have htext : ∀ text, Part.name x ∉ textParts text := by
    intro text
    rw [textParts]
    split
    · simp
    · simp
  obtain ⟨pairs, last⟩ := p
  induction pairs with
  | nil => simpa [parts, names] using htext last
  | cons pair pairs ih => simp [htext, ih]

/-- What is behind a reference is well-formed, and none of its texts runs into the tag. -/
theorem IsWellFormed.tail (h : (Pattern.mk (pair :: pairs) last).IsWellFormed) :
    (Pattern.mk pairs last).IsWellFormed ∧
      ∀ text ∈ (Pattern.mk pairs last).texts, text.head? ≠ some '\x7d' :=
  ⟨{  plain := fun text ht => h.plain text (List.mem_cons_of_mem _ ht)
      ends := fun pair hp => h.ends pair (List.mem_cons_of_mem _ hp)
      starts := fun text ht => h.starts text (List.mem_of_mem_tail ht)
      blanks := fun pair hp => h.blanks pair (List.mem_cons_of_mem _ hp) }, h.starts⟩

/-- What begins with no closing brace text by text does not begin with one. -/
theorem head?_chars {p : Pattern} (h : ∀ text ∈ p.texts, text.head? ≠ some '\x7d') :
    p.chars.head? ≠ some '\x7d' := by
  obtain ⟨pairs, last⟩ := p
  cases pairs with
  | nil => exact h last (List.mem_singleton_self last)
  | cons pair pairs =>
    have hfirst := h pair.1 List.mem_cons_self
    rw [chars_cons, List.head?_append]
    cases hhead : pair.1.head? with
    | none => simp [Reference.chars]
    | some c => rwa [hhead] at hfirst

/-- Every reference takes at least the four braces of its tag. -/
theorem length_chars (p : Pattern) : 4 * p.pairs.length ≤ p.chars.length := by
  obtain ⟨pairs, last⟩ := p
  induction pairs with
  | nil => simp
  | cons pair pairs ih =>
    rw [chars_cons, List.length_append, List.length_append, List.length_cons]
    change 4 * pairs.length ≤ _ at ih
    simp only [Reference.chars, List.length_append, List.length_cons, List.length_nil]
    omega

end Pattern

end GoldenRun.Template
