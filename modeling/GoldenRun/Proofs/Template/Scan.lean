import GoldenRun.Proofs.Template.Pattern
import Mathlib.Data.List.TakeWhile

/-!
# Reading texts and references

* `textPiece_append`, `textPiece_last`: a text before a tag, and one at the end
* `tagPiece_braces`, `tagPiece_blank`, `tagPiece_name`, `tagPiece_close`: the pieces of a reference
* `tagPiece_else`: a name that the reader takes for the mark of a last branch
-/

namespace GoldenRun.Template

open GoldenRun.Text

variable {c d : Char} {x text lead trail rest : List Char}

/-! ## Texts -/

theorem begins_braces_cons :
    begins "\x7b\x7b" (c :: rest) = true ↔ c = '\x7b' ∧ rest.head? = some '\x7b' := by
  cases rest with
  | nil => simp [begins]
  | cons d rest => simp [begins, @eq_comm Char '\x7b']

/-- A text without braces of its own goes up to the first ones behind it. -/
theorem shortest_append (hnul : '\x00' ∉ text) (hbraces : ¬['\x7b', '\x7b'] <:+: text)
    (hends : text.getLast? ≠ some '\x7b') :
    shortest (begins "\x7b\x7b") 0 (text ++ '\x7b' :: '\x7b' :: rest) = some text := by
  induction text with
  | nil => rfl
  | cons c text ih =>
    have hstop : ¬begins "\x7b\x7b" (c :: (text ++ '\x7b' :: '\x7b' :: rest)) = true := by
      rw [begins_braces_cons]
      rintro ⟨rfl, hnext⟩
      cases text with
      | nil => exact hends rfl
      | cons d text =>
        obtain rfl : d = '\x7b' := Option.some.inj hnext
        exact hbraces ⟨[], text, rfl⟩
    have hc : c ≠ '\x00' := fun h => hnul (h ▸ List.mem_cons_self)
    have hrest := ih (fun h => hnul (List.mem_cons_of_mem _ h))
      (fun h => hbraces (h.trans (List.suffix_cons c text).isInfix))
      (fun h => hends (by rw [List.getLast?_cons, h]; rfl))
    rw [List.cons_append, shortest, if_neg hstop, if_neg hc, hrest]
    rfl

/-- There are no braces to be found in a text that has none. -/
theorem shortest_eq_none (hbraces : ¬['\x7b', '\x7b'] <:+: text) :
    shortest (begins "\x7b\x7b") 0 text = none := by
  induction text with
  | nil => rfl
  | cons c text ih =>
    have hstop : ¬begins "\x7b\x7b" (c :: text) = true := by
      rw [begins_braces_cons]
      rintro ⟨rfl, hnext⟩
      obtain ⟨rest, rfl⟩ := List.head?_eq_some_iff.mp hnext
      exact hbraces ⟨[], rest, rfl⟩
    rw [shortest, if_neg hstop]
    split
    · rfl
    · rw [ih fun h => hbraces (h.trans (List.suffix_cons c text).isInfix)]
      rfl

/-- A text before a tag is read as it is, and the tag comes next. -/
theorem textPiece_append (rest : List Char) (hnul : '\x00' ∉ text)
    (hbraces : ¬['\x7b', '\x7b'] <:+: text)
    (hends : text.getLast? ≠ some '\x7b') (hescape : text.getLast? ≠ some '\\') :
    textPiece (text ++ '\x7b' :: '\x7b' :: rest) =
      some ⟨text, if text = [] then none else some (.content, text), .tag, false⟩ := by
  rw [← List.head?_reverse] at hescape
  simp only [textPiece, shortest_append hnul hbraces hends]
  -- A backslash at the end would be dropped and would escape the braces.
  split
  · next hreverse => exact absurd (by rw [hreverse]; rfl) hescape
  · next hreverse => exact absurd (by rw [hreverse]; rfl) hescape
  · rfl

/-- The text at the end is read as it is, and the end itself behind it. -/
theorem textPiece_last (hnul : '\x00' ∉ text) (hbraces : ¬['\x7b', '\x7b'] <:+: text) :
    textPiece text = some (if text = [] then ⟨[], some (.eof, []), .text, false⟩
      else ⟨text, some (.content, text), .text, false⟩) := by
  have hall : text.takeWhile (· ≠ '\x00') = text := by
    rw [List.takeWhile_eq_self_iff]
    intro c hc
    rw [decide_eq_true_eq]
    rintro rfl
    exact hnul hc
  simp only [textPiece, shortest_eq_none hbraces, hall]
  split <;> rfl

/-! ## Tags -/

theorem ne_of_isBlank (hc : isBlank c = true) (hd : isBlank d = false) : d ≠ c := by
  rintro rfl
  rw [hc] at hd
  cases hd

theorem ne_of_isNameChar (hc : isNameChar c = true) (hd : isNameChar d = false) : d ≠ c := by
  rintro rfl
  rw [hc] at hd
  cases hd

/-- Blanks in a tag are passed over. -/
theorem tagPiece_blank (hne : lead ≠ []) (hlead : allBlank lead = true) (hd : isBlank d = false) :
    tagPiece (lead ++ d :: rest) = some ⟨lead, none, .tag, false⟩ := by
  obtain ⟨c, lead', rfl⟩ := List.exists_cons_of_ne_nil hne
  have hc : isBlank c = true := by
    rw [allBlank, List.all_cons, Bool.and_eq_true] at hlead
    exact hlead.1
  have htake := takeWhile_isBlank rest hlead hd
  have hother : ∀ {e : Char}, isBlank e = false → e ≠ c := ne_of_isBlank hc
  have hother' : ∀ {e : Char}, isBlank e = false → c ≠ e := fun h => (hother h).symm
  rw [List.cons_append] at htake ⊢
  simp (disch := decide) [tagPiece, fixed, begins, tagStart, hother, hother', hc, htake]

/-! ### Names in a tag -/

/-- A character that is neither blank nor a mark may stand in a plain name. -/
theorem isNameChar_of_notMem (hblank : isBlank c = false) (hmark : c ∉ nameMarks) :
    isNameChar c = true := by
  have hascii : ∀ n < 0x7F, isBlank (Char.ofNat n) = false → Char.ofNat n ∉ nameMarks →
      isNameChar (Char.ofNat n) = true := by decide +kernel
  by_cases hsmall : c.toNat < 0x7F
  · rw [← Char.ofNat_toNat c] at hblank hmark ⊢
    exact hascii _ hsmall hblank hmark
  · have hne : ∀ d : Char, d.toNat < 0x7F → c ≠ d := by
      rintro d hd rfl
      exact hsmall hd
    simp [isNameChar, hblank, hne]
    omega

theorem IsIdentifier.isNameChar {name : String} (h : IsIdentifier name) :
    ∀ c ∈ name.toList, isNameChar c = true := fun c hc =>
  isNameChar_of_notMem (h.plain c hc).1 (h.plain c hc).2

theorem isBlank_of_isNameChar (hc : isNameChar c = true) : isBlank c = false := by
  cases hblank : isBlank c with
  | false => rfl
  | true => simp [isNameChar, hblank] at hc

theorem isNameChar_of_isAlphanum (hc : c.isAlphanum = true) : isNameChar c = true := by
  have hascii : ∀ n < 0x7B, (Char.ofNat n).isAlphanum = true →
      isNameChar (Char.ofNat n) = true := by decide +kernel
  have hsmall : c.toNat < 0x7B := by
    delta Char.isAlphanum Char.isAlpha Char.isUpper Char.isLower Char.isDigit at hc
    simp only [Bool.or_eq_true, Bool.and_eq_true, decide_eq_true_eq, UInt32.le_iff_toNat_le] at hc
    have htoNat : c.toNat = c.val.toNat := rfl
    have hbounds : 'Z'.val.toNat = 0x5A ∧ 'z'.val.toNat = 0x7A ∧ '9'.val.toNat = 0x39 := by
      decide
    omega
  rw [← Char.ofNat_toNat c] at hc ⊢
  exact hascii _ hsmall hc

/-- A word that stands before a character of no name stands in the name before it. -/
theorem prefix_of_prefix_append {word : List Char} (hword : word.all isNameChar = true)
    (hd : isNameChar d = false) (h : word <+: x ++ d :: rest) : word <+: x := by
  rcases List.prefix_or_prefix_of_prefix h (List.prefix_append x (d :: rest)) with hx | ⟨y, rfl⟩
  · exact hx
  · cases y with
    | nil => simp
    | cons e y =>
      obtain ⟨rfl, -⟩ := List.cons_prefix_cons.mp ((List.prefix_append_right_inj x).mp h)
      rw [List.all_eq_true.mp hword e (by simp)] at hd
      cases hd

/-- A name is read as no other word. -/
theorem wordPiece_eq_none {word : String} {kind : TokenKind}
    (hx : ∀ c ∈ x, isNameChar c = true) (hword : word.toList.all isNameChar = true)
    (hne : x ≠ word.toList) (hd : isNameChar d = false) :
    wordPiece word kind (x ++ d :: rest) = none := by
  rw [wordPiece, if_neg]
  intro h
  rw [Bool.and_eq_true, begins, List.isPrefixOf_iff_prefix] at h
  obtain ⟨hbegins, hends⟩ := h
  -- The name goes on behind the word, so the word does not end there.
  obtain ⟨y, rfl⟩ := prefix_of_prefix_append hword hd hbegins
  cases y with
  | nil => exact hne (List.append_nil _)
  | cons e y =>
    have he : isNameChar e = true := hx e (by simp)
    rw [← String.length_toList, List.append_assoc, List.drop_left, List.cons_append, literalEnds,
      isBlank_of_isNameChar he, Bool.false_or, List.contains_eq_mem, decide_eq_true_eq] at hends
    have hnone : ("~\x7d)".toList.all fun f => !isNameChar f) = true := by decide
    simpa [he] using List.all_eq_true.mp hnone e hends

/-- A name ends before the blanks and braces behind it. -/
theorem exists_cons_tail (rest : List Char) (htrail : allBlank trail = true) :
    ∃ d rest', trail ++ '\x7d' :: rest = d :: rest' ∧ isNameChar d = false ∧
      nameEnds (d :: rest') = true := by
  cases trail with
  | nil => exact ⟨_, _, rfl, by decide, by simp [nameEnds]⟩
  | cons d trail =>
    rw [allBlank, List.all_cons, Bool.and_eq_true] at htrail
    exact ⟨_, _, rfl, by simp [isNameChar, htrail.1], by simp [nameEnds, htrail.1]⟩

/-- Where a name is not all digits, no number ends behind its digits. -/
theorem digits_stop (rest : List Char) (hx : ∀ c ∈ x, isNameChar c = true)
    (hdigits : x.all Char.isDigit = true → x = []) (hd : isNameChar d = false) :
    (x ++ d :: rest).takeWhile Char.isDigit = [] ∨
      ∃ e z, (x ++ d :: rest).dropWhile Char.isDigit = e :: z ∧ e ≠ '.' ∧
        literalEnds (e :: z) = false := by
  by_cases hall : x.all Char.isDigit = true
  · left
    rw [hdigits hall, List.nil_append, List.takeWhile_cons_of_neg]
    intro h
    rw [isNameChar_of_isAlphanum (by simp [Char.isAlphanum, h])] at hd
    cases hd
  · right
    have hmore : x.dropWhile Char.isDigit ≠ [] := by
      rwa [Ne, List.dropWhile_eq_nil_iff, ← List.all_eq_true]
    obtain ⟨e, z, hrest⟩ := List.exists_cons_of_ne_nil hmore
    have he : isNameChar e = true :=
      hx e ((List.dropWhile_suffix _).subset (hrest ▸ List.mem_cons_self))
    have hother : ∀ {f : Char}, isNameChar f = false → e ≠ f := fun hf =>
      (ne_of_isNameChar he hf).symm
    refine ⟨e, z ++ d :: rest, ?_, hother (by decide), ?_⟩
    · rw [List.dropWhile_append, hrest]
      rfl
    · simp (disch := decide) [literalEnds, isBlank_of_isNameChar he, hother]

/-- A name that spells no number is not read as one. -/
theorem numberText_eq_none (rest : List Char) (hx : ∀ c ∈ x, isNameChar c = true)
    (hnumeral : isNumeral x = false) (hd : isNameChar d = false) :
    numberText (x ++ d :: rest) = none := by
  unfold isNumeral at hnumeral
  -- A numeral may have a minus before its digits.
  split at hnumeral
  · next y =>
    have hy := digits_stop rest (fun c hc => hx c (List.mem_cons_of_mem _ hc))
      (fun h => by simpa [h] using hnumeral) hd
    rw [List.cons_append]
    rcases hy with hnone | ⟨e, z, hdrop, hdot, hends⟩
    · simp only [numberText, hnone, if_true]
    · simp [numberText, hdrop, hdot, hends]
  · next hminus =>
    have hy := digits_stop rest hx (fun h => by simpa [h] using hnumeral) hd
    generalize htext : x ++ d :: rest = text at hy
    have hsign : ∀ y, text ≠ '-' :: y := by
      rintro y rfl
      cases x with
      | nil =>
        obtain rfl : d = '-' := (List.cons.inj htext).1
        cases hd
      | cons e x => exact hminus x (by rw [(List.cons.inj htext).1])
    cases text with
    | nil => rfl
    | cons c text =>
      have hc : c ≠ '-' := fun h => hsign text (h ▸ rfl)
      rcases hy with hnone | ⟨e, z, hdrop, hdot, hends⟩
      · simp [numberText, hnone]
      · simp [numberText, hdrop, hdot, hends]

/-- A name before the end of a tag opens no block parameters. -/
theorem blockParamsPiece_eq_none (rest : List Char) (hx : ∀ c ∈ x, isNameChar c = true)
    (htrail : allBlank trail = true) :
    blockParamsPiece (x ++ (trail ++ '\x7d' :: rest)) = none := by
  obtain ⟨d, rest', htail, hd, -⟩ := exists_cons_tail rest htrail
  rw [blockParamsPiece]
  split
  · next hbegins =>
    rw [begins, List.isPrefixOf_iff_prefix, htail] at hbegins
    obtain ⟨y, rfl⟩ := prefix_of_prefix_append (by decide) hd hbegins
    have hdrop : ("as".toList ++ y ++ (trail ++ '\x7d' :: rest)).drop 2 =
        y ++ (trail ++ '\x7d' :: rest) := rfl
    rw [hdrop]
    cases y with
    | nil =>
      rw [List.nil_append, dropWhile_isBlank _ htrail (by decide), if_neg]
      rintro ⟨-, hbar⟩
      simp [begins] at hbar
    | cons e y =>
      have he : isBlank e = false := isBlank_of_isNameChar (hx e (by simp))
      rw [if_neg]
      rintro ⟨hblanks, -⟩
      simp [he] at hblanks
  · rfl

/-- A name in a tag is read as a name. -/
theorem tagPiece_name {name : String} (hname : IsIdentifier name) (htrail : allBlank trail = true) :
    tagPiece (name.toList ++ (trail ++ '\x7d' :: rest)) =
      some ⟨name.toList, some (.id, name.toList), .tag, false⟩ := by
  have hx : ∀ c ∈ name.toList, isNameChar c = true := hname.isNameChar
  obtain ⟨d, rest', htail, hd, hends⟩ := exists_cons_tail rest htrail
  obtain ⟨c, x, hcons⟩ := List.exists_cons_of_ne_nil hname.ne_nil
  have hc : isNameChar c = true := hx c (hcons ▸ List.mem_cons_self)
  have hother : ∀ {e : Char}, isNameChar e = false → e ≠ c := ne_of_isNameChar hc
  have hother' : ∀ {e : Char}, isNameChar e = false → c ≠ e := fun he => (hother he).symm
  have hliteral : ∀ word ∈ ["true", "false", "undefined", "null"], ∀ kind,
      wordPiece word kind (name.toList ++ d :: rest') = none := by
    intro word hmem kind
    have hreserved : ∀ word ∈ ["true", "false", "undefined", "null"],
        word ∈ reservedNames := by decide
    have hplain : ∀ word ∈ ["true", "false", "undefined", "null"],
        word.toList.all isNameChar = true := by decide
    refine wordPiece_eq_none hx (hplain word hmem) (fun h => ?_) hd
    exact hname.not_reserved (String.toList_injective h ▸ hreserved word hmem)
  have hnumber := numberText_eq_none rest' hx hname.not_numeral hd
  have hparams := blockParamsPiece_eq_none rest hx htrail
  have hfound : namePiece (name.toList ++ d :: rest') =
      some ⟨name.toList, some (.id, name.toList), .tag, false⟩ := by
    rw [namePiece, List.takeWhile_append_of_pos hx, List.dropWhile_append_of_pos hx,
      List.takeWhile_cons_of_neg (by simp [hd]), List.dropWhile_cons_of_neg (by simp [hd]),
      List.append_nil, if_pos ⟨hname.ne_nil, hends⟩]
  rw [htail] at hparams ⊢
  -- No other rule of the scanner fits: the first character is no mark, and no longer token stands
  -- here.
  simp only [hcons, List.cons_append] at hliteral hnumber hparams hfound ⊢
  simp (disch := decide) [tagPiece, fixed, begins, tagStart, tagEnd, stringPiece, hother, hother',
    isBlank_of_isNameChar hc, hliteral, hnumber, hparams, hfound]

/-- A tag ends with two braces if no third one follows. -/
theorem tagPiece_close (hrest : rest.head? ≠ some '\x7d') :
    tagPiece ('\x7d' :: '\x7d' :: rest) =
      some ⟨['\x7d', '\x7d'], some (.close, ['\x7d', '\x7d']), .text, false⟩ := by
  cases rest with
  | nil => rfl
  | cons c s =>
    have hc : '\x7d' ≠ c := fun h => hrest (h ▸ rfl)
    simp [tagPiece, fixed, begins, tagStart, tagEnd, isBlank, hc]

/-! ### The opener of a tag -/

/-- What starts a name but is not to be read as one: the mark of a last branch. -/
def isElse (x : List Char) : Bool := begins "else" x && wordEnds (x.drop 4)

/-- Blanks and a name begin with no mark. -/
theorem exists_cons_lead {name : String} (rest : List Char) (hname : IsIdentifier name)
    (hlead : allBlank lead = true) : ∃ e body, lead ++ (name.toList ++ rest) = e :: body ∧
      ∀ f : Char, isBlank f = false → isNameChar f = false → f ≠ e := by
  obtain ⟨c, x, hcons⟩ := List.exists_cons_of_ne_nil hname.ne_nil
  have hc : isNameChar c = true := hname.isNameChar c (hcons ▸ List.mem_cons_self)
  cases lead with
  | nil => exact ⟨c, x ++ rest, by rw [hcons]; rfl, fun f _ hf => ne_of_isNameChar hc hf⟩
  | cons e lead =>
    rw [allBlank, List.all_cons, Bool.and_eq_true] at hlead
    exact ⟨e, _, rfl, fun f hf _ => ne_of_isBlank hlead.1 hf⟩

theorem takeWhile_lead {name : String} (hname : IsIdentifier name) (hlead : allBlank lead = true) :
    (lead ++ (name.toList ++ rest)).takeWhile isBlank = lead := by
  obtain ⟨c, x, hcons⟩ := List.exists_cons_of_ne_nil hname.ne_nil
  rw [hcons]
  exact takeWhile_isBlank _ hlead (hname.plain c (hcons ▸ List.mem_cons_self)).1

theorem dropWhile_lead {name : String} (hname : IsIdentifier name) (hlead : allBlank lead = true) :
    (lead ++ (name.toList ++ rest)).dropWhile isBlank = name.toList ++ rest := by
  obtain ⟨c, x, hcons⟩ := List.exists_cons_of_ne_nil hname.ne_nil
  rw [hcons]
  exact dropWhile_isBlank _ hlead (hname.plain c (hcons ▸ List.mem_cons_self)).1

/-- Behind the braces of a tag there are blanks or a name: only the mark of a last branch can be
meant by more than the braces. -/
theorem openerPiece_name {name : String} {start : List Char} (hname : IsIdentifier name)
    (hlead : allBlank lead = true) :
    openerPiece start (lead ++ (name.toList ++ rest)) =
      ((inverseTag true "else" start (lead ++ (name.toList ++ rest))).or
        (if begins "else" (name.toList ++ rest) && wordEnds ((name.toList ++ rest).drop 4) then
          some ⟨start ++ lead ++ "else".toList,
            some (.openInverseChain, start ++ lead ++ "else".toList), .tag, false⟩
        else none)).getD ⟨start, some (.opener, start), .tag, false⟩ := by
  have hnone : ∀ mark ∈ [">", "#>", "#*", "#", "/", "^", "\x7b", "&", "!--", "!", "*"],
      begins mark (lead ++ (name.toList ++ rest)) = false := by
    obtain ⟨e, body, hbody, hother⟩ := exists_cons_lead rest hname hlead
    rw [hbody]
    simp (disch := decide) [begins, List.isPrefixOf, hother]
  have hinverse : inverseTag false "^" start (lead ++ (name.toList ++ rest)) = none := by
    simp (disch := decide) [inverseTag, hnone]
  simp (disch := decide) [openerPiece, takeWhile_lead hname hlead, dropWhile_lead hname hlead,
    hnone, hinverse]

/-- Two braces before blanks and a name open a tag. -/
theorem tagPiece_opener {name : String} (hname : IsIdentifier name) (hlead : allBlank lead = true) :
    tagPiece ('\x7b' :: '\x7b' :: (lead ++ (name.toList ++ rest))) =
      some (openerPiece ['\x7b', '\x7b'] (lead ++ (name.toList ++ rest))) := by
  obtain ⟨e, body, hbody, hother⟩ := exists_cons_lead rest hname hlead
  rw [hbody]
  simp (disch := decide) [tagPiece, fixed, begins, tagStart, hother]

/-- Whether a name is the mark of a last branch does not depend on what is behind it. -/
theorem isElse_append (htrail : allBlank trail = true) :
    isElse (x ++ (trail ++ '\x7d' :: rest)) = isElse x := by
  obtain ⟨d, rest', htail, hd, -⟩ := exists_cons_tail rest htrail
  rw [htail]
  by_cases hbegins : "else".toList <+: x
  · obtain ⟨y, hy⟩ := hbegins
    rw [← hy]
    cases y with
    | nil =>
      have hword : d.isAlphanum = false := by
        rw [← Bool.not_eq_true]
        intro h
        rw [isNameChar_of_isAlphanum h] at hd
        cases hd
      have hscore : d ≠ '_' := by
        rintro rfl
        cases hd
      simp [isElse, begins, wordEnds, hword, hscore]
    | cons e y => simp [isElse, begins, wordEnds]
  · have hnot : ¬"else".toList <+: x ++ d :: rest' := fun h =>
      hbegins (prefix_of_prefix_append (by decide) hd h)
    rw [← List.isPrefixOf_iff_prefix, Bool.not_eq_true] at hbegins hnot
    rw [isElse, isElse, begins, begins, hbegins, hnot]
    rfl

/-- What marks a last branch is read as that mark. -/
theorem token_of_inverseTag {blanks : Bool} {mark : String} {start : List Char} {p : Piece}
    (h : inverseTag blanks mark start text = some p) : ∃ t, p.token = some (.inverse, t) := by
  simp only [inverseTag] at h
  generalize (if blanks = true then text.takeWhile isBlank else []) = lead at h
  split at h
  · obtain ⟨e, -, rfl⟩ := Option.map_eq_some_iff.mp h
    exact ⟨_, rfl⟩
  · cases h

/-- A name that goes on behind the word for a last branch marks none. -/
theorem inverseTag_eq_none {name : String} (start : List Char) (hname : IsIdentifier name)
    (hlead : allBlank lead = true) (helse : isElse (name.toList ++ rest) = false) :
    inverseTag true "else" start (lead ++ (name.toList ++ rest)) = none := by
  simp only [inverseTag, if_true, takeWhile_lead hname hlead, List.drop_left]
  rw [ite_eq_right_iff]
  intro hbegins
  rw [isElse, hbegins, Bool.true_and] at helse
  rw [← String.length_toList]
  change wordEnds ((name.toList ++ rest).drop "else".toList.length) = false at helse
  cases hbehind : (name.toList ++ rest).drop "else".toList.length with
  | nil =>
    rw [hbehind] at helse
    cases helse
  | cons e z =>
    have he : isNameChar e = true := by
      rw [hbehind, wordEnds, Bool.not_eq_false', Bool.or_eq_true, decide_eq_true_eq] at helse
      rcases helse with hword | rfl
      · exact isNameChar_of_isAlphanum hword
      · decide
    have hother : ∀ {f : Char}, isNameChar f = false → f ≠ e := ne_of_isNameChar he
    rw [List.dropWhile_cons_of_neg (by simp [isBlank_of_isNameChar he])]
    simp (disch := decide) [tagEnd, begins, hother]

/-- The two braces of a reference open a plain tag. -/
theorem tagPiece_braces {name : String} (hname : IsIdentifier name) (hlead : allBlank lead = true)
    (htrail : allBlank trail = true) (helse : isElse name.toList = false) :
    tagPiece ('\x7b' :: '\x7b' :: (lead ++ (name.toList ++ (trail ++ '\x7d' :: rest)))) =
      some ⟨['\x7b', '\x7b'], some (.opener, ['\x7b', '\x7b']), .tag, false⟩ := by
  have hchain : isElse (name.toList ++ (trail ++ '\x7d' :: rest)) = false := by
    rw [isElse_append htrail, helse]
  have hinverse := inverseTag_eq_none ['\x7b', '\x7b'] hname hlead hchain
  rw [isElse] at hchain
  rw [tagPiece_opener hname hlead, openerPiece_name hname hlead, hchain, hinverse]
  rfl

/-- A name that begins with the word for a last branch opens such a branch instead. -/
theorem tagPiece_else {name : String} (rest : List Char) (hname : IsIdentifier name)
    (hlead : allBlank lead = true)
    (htrail : allBlank trail = true) (helse : isElse name.toList = true) :
    ∃ p kind t,
      tagPiece ('\x7b' :: '\x7b' :: (lead ++ (name.toList ++ (trail ++ '\x7d' :: rest)))) =
        some p ∧ p.token = some (kind, t) ∧ (kind = .inverse ∨ kind = .openInverseChain) := by
  have hchain : isElse (name.toList ++ (trail ++ '\x7d' :: rest)) = true := by
    rw [isElse_append htrail, helse]
  rw [isElse] at hchain
  rw [tagPiece_opener hname hlead, openerPiece_name hname hlead, if_pos hchain]
  cases hinverse : inverseTag true "else" ['\x7b', '\x7b']
      (lead ++ (name.toList ++ (trail ++ '\x7d' :: rest))) with
  | none => exact ⟨_, _, _, rfl, rfl, .inr rfl⟩
  | some p =>
    obtain ⟨t, ht⟩ := token_of_inverseTag hinverse
    exact ⟨p, _, t, rfl, ht, .inl rfl⟩

end GoldenRun.Template
