import GoldenRun.Text.Units

/-!
# The order by sixteen-bit units

* `ofUnits_flatMap_units`: the units of a text tell the text
* `stringLe_antisymm`: no two texts come at the same place of the order
* `mergeSort_stringLe_congr`: what is sorted comes out in one order, whatever the order it comes in
* `pairwise_mergeSort_stringLe`: what holds nothing twice is sorted strictly
-/

namespace GoldenRun.Text

/-! ## Texts and their units -/

/-- A character that is read from its units. -/
theorem ofUnits_units_append (x : Char) (more : List Nat) :
    ofUnits (units x ++ more) = x :: ofUnits more := by
  have hvalid : x.toNat < 0xD800 ∨ 0xDFFF < x.toNat ∧ x.toNat < 0x110000 := x.valid
  unfold units
  split
  · have hlow : ¬ (0xD800 ≤ x.toNat ∧ x.toNat < 0xE000) := by omega
    have hpair : ∀ b, ¬ (0xD800 ≤ x.toNat ∧ x.toNat < 0xDC00 ∧ 0xDC00 ≤ b ∧ b < 0xE000) := by
      omega
    cases more with
    | nil => simp [ofUnits, hlow, Char.ofNat_toNat]
    | cons b more => simp [ofUnits, hlow, hpair, Char.ofNat_toNat]
  · have hpair : 0xD800 ≤ 0xD800 + (x.toNat - 0x10000) / 0x400 ∧
        0xD800 + (x.toNat - 0x10000) / 0x400 < 0xDC00 ∧
        0xDC00 ≤ 0xDC00 + (x.toNat - 0x10000) % 0x400 ∧
        0xDC00 + (x.toNat - 0x10000) % 0x400 < 0xE000 := by omega
    have hback : 0x10000 + (0xD800 + (x.toNat - 0x10000) / 0x400 - 0xD800) * 0x400 +
        (0xDC00 + (x.toNat - 0x10000) % 0x400 - 0xDC00) = x.toNat := by omega
    rw [List.cons_append, List.cons_append, List.nil_append, ofUnits, if_pos hpair, hback,
      Char.ofNat_toNat]

theorem ofUnits_flatMap_units (text : List Char) : ofUnits (text.flatMap units) = text := by
  induction text with
  | nil => rfl
  | cons x text ih => rw [List.flatMap_cons, ofUnits_units_append, ih]

theorem flatMap_units_inj {a b : List Char} : a.flatMap units = b.flatMap units ↔ a = b := by
  constructor
  · intro h
    rw [← ofUnits_flatMap_units a, h, ofUnits_flatMap_units]
  · exact congrArg _

/-! ## The order -/

/-- One string stands before another: at the first place where their units differ its own is the
smaller one, or its units end first. -/
def PrecedesByUnits (a b : String) : Prop :=
  List.Lex (· < ·) (a.toList.flatMap units) (b.toList.flatMap units)

/-- Of two lists of units that differ, the one that comes no later precedes. -/
theorem lex_of_unitsLe {as bs : List Nat} (h : unitsLe as bs = true) (hne : as ≠ bs) :
    List.Lex (· < ·) as bs := by
  induction as generalizing bs with
  | nil =>
    cases bs with
    | nil => exact absurd rfl hne
    | cons b bs => exact .nil
  | cons a as ih =>
    cases bs with
    | nil => simp [unitsLe] at h
    | cons b bs =>
      simp only [unitsLe, Bool.or_eq_true, Bool.and_eq_true, decide_eq_true_eq, beq_iff_eq] at h
      rcases h with hless | ⟨rfl, hrest⟩
      · exact .rel hless
      · exact .cons (ih hrest fun hsame => hne (congrArg _ hsame))

theorem precedesByUnits_of_stringLe {a b : String} (h : stringLe a b = true) (hne : a ≠ b) :
    PrecedesByUnits a b :=
  lex_of_unitsLe h fun hsame => hne (String.toList_inj.mp (flatMap_units_inj.mp hsame))

theorem unitsLe_antisymm {as bs : List Nat} (h : unitsLe as bs = true)
    (h' : unitsLe bs as = true) : as = bs := by
  induction as generalizing bs with
  | nil =>
    cases bs with
    | nil => rfl
    | cons b bs => simp [unitsLe] at h'
  | cons a as ih =>
    cases bs with
    | nil => simp [unitsLe] at h
    | cons b bs =>
      simp only [unitsLe, Bool.or_eq_true, Bool.and_eq_true, decide_eq_true_eq, beq_iff_eq] at h h'
      rcases h with hless | ⟨rfl, hrest⟩
      · omega
      · rw [ih hrest (h'.resolve_left (Nat.lt_irrefl a)).2]

/-- No two strings come at the same place of the order. -/
theorem stringLe_antisymm {a b : String} (h : stringLe a b = true) (h' : stringLe b a = true) :
    a = b :=
  String.toList_inj.mp (flatMap_units_inj.mp (unitsLe_antisymm h h'))

theorem stringLe_trans {a b c : String} (h : stringLe a b = true) (h' : stringLe b c = true) :
    stringLe a c = true :=
  unitsLe_trans h h'

theorem stringLe_total (a b : String) : (stringLe a b || stringLe b a) = true :=
  unitsLe_total _ _

/-! ## Sorting -/

theorem sorted_mergeSort_stringLe (texts : List String) :
    (texts.mergeSort stringLe).Pairwise fun a b => stringLe a b = true :=
  @List.pairwise_mergeSort String stringLe (fun _ _ _ => stringLe_trans) stringLe_total texts

/-- What is sorted comes out in one order, whatever the order it comes in. -/
theorem mergeSort_stringLe_congr {texts texts' : List String} (h : texts.Perm texts') :
    texts.mergeSort stringLe = texts'.mergeSort stringLe := by
  have hperm : (texts.mergeSort stringLe).Perm (texts'.mergeSort stringLe) :=
    ((List.mergeSort_perm texts stringLe).trans h).trans (List.mergeSort_perm texts' stringLe).symm
  exact hperm.eq_of_pairwise (fun a b _ _ => stringLe_antisymm) (sorted_mergeSort_stringLe texts)
    (sorted_mergeSort_stringLe texts')

/-- What holds nothing twice is sorted strictly. -/
theorem pairwise_mergeSort_stringLe {texts : List String} (h : texts.Nodup) :
    (texts.mergeSort stringLe).Pairwise PrecedesByUnits := by
  have hnodup : (texts.mergeSort stringLe).Nodup :=
    (List.mergeSort_perm texts stringLe).nodup_iff.mpr h
  exact (sorted_mergeSort_stringLe texts).imp₂ (fun a b => precedesByUnits_of_stringLe) hnodup

/-- A minus comes before the point that begins an extension, and a character above U+FFFF before
one of U+E000..U+FFFF. -/
example : PrecedesByUnits "a-b.rs" "a.rs" ∧ PrecedesByUnits "😀.rs" "ﬁ.rs" :=
  ⟨precedesByUnits_of_stringLe (by decide) (by decide),
    precedesByUnits_of_stringLe (by decide) (by decide)⟩

end GoldenRun.Text
