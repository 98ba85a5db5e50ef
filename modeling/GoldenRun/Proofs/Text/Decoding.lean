import GoldenRun.Proofs.Text.Utf8

/-!
# Where the text of some bytes comes from

The decoder reads bytes of any kind.  What it makes of them can be told piece by piece: a byte with
which a character can begin ends whatever was unfinished before it, and a character other than
U+FFFD comes from its own bytes.

* `decodeFrom_append`: bytes that begin afresh are decoded by themselves
* `decodeFrom_eq_cons`: the first character comes from the first bytes, and unless it is U+FFFD
  these are its bytes
* `infix_of_wellFormed`: well-formed bytes that stand in others are found in their text
* `infix_of_not_mem`, `infix_of_wellFormed_output`: the other way round, if the text has no U+FFFD
  or the others are well-formed as well
-/

namespace GoldenRun.Text

variable {s : Option Unfinished} {u : Unfinished} {b : UInt8} {bytes more rest : Bytes}
  {c : Char} {text before tail : List Char}

/-! ## Bytes that begin afresh -/

/-- The bytes that an unfinished character can go on with are no lead bytes. -/
def Unfinished.Sound (u : Unfinished) : Prop := 0x80 ≤ u.low ∧ u.high ≤ 0xBF

/-- A byte between two characters: a lead byte, or one with which nothing begins. -/
def IsFresh (b : UInt8) : Prop := b.toNat < 0x80 ∨ 0xC0 ≤ b.toNat

theorem sound_of_lead (h : lead b = .begins u) : u.Sound := by
  unfold lead at h
  dsimp only at h
  split at h
  · cases h
  split at h
  · cases h
  split at h
  · cases h
    exact ⟨Nat.le_refl _, Nat.le_refl _⟩
  split at h
  · cases h
    exact ⟨by dsimp only; split <;> omega, by dsimp only; split <;> omega⟩
  split at h
  · cases h
    exact ⟨by dsimp only; split <;> omega, by dsimp only; split <;> omega⟩
  · cases h

/-- A byte that cannot go on with a character ends it, and is read afresh. -/
theorem decodeFrom_refused (h : ¬ (u.low ≤ b.toNat ∧ b.toNat ≤ u.high)) (rest : Bytes) :
    decodeFrom (some u) (b :: rest) = replacement :: decodeFrom none (b :: rest) := by
  rw [decodeFrom, decodeFrom]
  simp only [h, if_false]
  cases lead b <;> rfl

theorem decodeFrom_fresh (hu : u.Sound) (h : IsFresh b) (rest : Bytes) :
    decodeFrom (some u) (b :: rest) = replacement :: decodeFrom none (b :: rest) := by
  refine decodeFrom_refused (fun hrange => ?_) rest
  obtain ⟨hlow, hhigh⟩ := hu
  rcases h with h | h <;> omega

/-- **Bytes that begin afresh are decoded by themselves**, whatever is before them. -/
theorem decodeFrom_append (hsound : ∀ u, s = some u → u.Sound)
    (hmore : ∀ b ∈ more.head?, IsFresh b) :
    decodeFrom s (bytes ++ more) = decodeFrom s bytes ++ decodeFrom none more := by
  induction bytes generalizing s with
  | nil =>
    cases s with
    | none => rfl
    | some u =>
      cases more with
      | nil => rfl
      | cons b more => exact decodeFrom_fresh (hsound u rfl) (hmore b rfl) more
  | cons b bytes ih =>
    -- A byte that ends an unfinished character is read like a first one.
    have hnone : decodeFrom none (b :: bytes ++ more) =
        decodeFrom none (b :: bytes) ++ decodeFrom none more := by
      have hrest := ih (s := none) (by simp)
      rw [List.cons_append, decodeFrom, decodeFrom]
      cases hlead : lead b with
      | whole c => simp [hrest]
      | begins u => exact ih fun v hv => Option.some.inj hv ▸ sound_of_lead hlead
      | stray => simp [hrest]
    cases s with
    | none => exact hnone
    | some u =>
      by_cases hrange : u.low ≤ b.toNat ∧ b.toNat ≤ u.high
      · rw [List.cons_append, decodeFrom, decodeFrom]
        simp only [hrange, and_self, if_true]
        split
        · rw [ih (s := none) (by simp)]
          rfl
        · refine ih fun v hv => ?_
          obtain rfl := Option.some.inj hv
          exact ⟨Nat.le_refl _, Nat.le_refl _⟩
      · rw [List.cons_append, decodeFrom_refused hrange, decodeFrom_refused hrange,
          ← List.cons_append, hnone, List.cons_append]

/-! ## Where a character comes from -/

/-- `u.Ends bytes c`: the bytes are what was owed, and with them the character is `c`. -/
inductive Unfinished.Ends : Unfinished → Bytes → Char → Prop where
  /-- One more byte is owed. -/
  | last {u : Unfinished} {b : UInt8} (howed : u.owed ≤ 1) (hlow : u.low ≤ b.toNat)
    (hhigh : b.toNat ≤ u.high) : Ends u [b] (Char.ofNat (u.bits * 64 + (b.toNat - 0x80)))
  /-- Some more are owed behind the next. -/
  | more {u : Unfinished} {b : UInt8} {bytes : Bytes} {c : Char} (howed : ¬ u.owed ≤ 1)
    (hlow : u.low ≤ b.toNat) (hhigh : b.toNat ≤ u.high)
    (hrest : Ends ⟨u.owed - 1, 0x80, 0xBF, u.bits * 64 + (b.toNat - 0x80)⟩ bytes c) :
    Ends u (b :: bytes) c

/-- An unfinished character is finished by the first bytes, or becomes U+FFFD. -/
theorem decodeFrom_some_eq_cons (h : decodeFrom (some u) bytes = c :: tail) :
    ∃ piece rest, bytes = piece ++ rest ∧ decodeFrom none rest = tail ∧
      (c = replacement ∨ u.Ends piece c) := by
  induction bytes generalizing u with
  | nil =>
    obtain ⟨rfl, rfl⟩ := List.cons_eq_cons.mp h
    exact ⟨[], [], rfl, rfl, .inl rfl⟩
  | cons b bytes ih =>
    by_cases hrange : u.low ≤ b.toNat ∧ b.toNat ≤ u.high
    · rw [decodeFrom] at h
      simp only [hrange, and_self, if_true] at h
      by_cases howed : u.owed ≤ 1
      · rw [if_pos howed] at h
        obtain ⟨rfl, rfl⟩ := List.cons_eq_cons.mp h
        exact ⟨[b], bytes, rfl, rfl, .inr (.last howed hrange.1 hrange.2)⟩
      · rw [if_neg howed] at h
        obtain ⟨piece, rest, rfl, htail, hc⟩ := ih h
        exact ⟨b :: piece, rest, rfl, htail, hc.imp_right (.more howed hrange.1 hrange.2)⟩
    · rw [decodeFrom_refused hrange] at h
      obtain ⟨rfl, rfl⟩ := List.cons_eq_cons.mp h
      exact ⟨[], b :: bytes, rfl, rfl, .inl rfl⟩

/-- The last byte of a character. -/
theorem Unfinished.Ends.of_last {low high bits : Nat}
    (h : Unfinished.Ends ⟨1, low, high, bits⟩ bytes c) :
    ∃ b : UInt8, bytes = [b] ∧ low ≤ b.toNat ∧ b.toNat ≤ high ∧
      c = Char.ofNat (bits * 64 + (b.toNat - 0x80)) := by
  rcases h with ⟨-, hlow, hhigh⟩ | ⟨howed, -, -, -⟩
  · exact ⟨_, rfl, hlow, hhigh, rfl⟩
  · exact absurd (Nat.le_refl 1) howed

/-- A byte of a character behind which more are owed. -/
theorem Unfinished.Ends.of_more {owed low high bits : Nat}
    (h : Unfinished.Ends ⟨owed + 2, low, high, bits⟩ bytes c) :
    ∃ (b : UInt8) (rest : Bytes), bytes = b :: rest ∧ low ≤ b.toNat ∧ b.toNat ≤ high ∧
      Ends ⟨owed + 1, 0x80, 0xBF, bits * 64 + (b.toNat - 0x80)⟩ rest c := by
  rcases h with ⟨howed, -, -⟩ | ⟨-, hlow, hhigh, hrest⟩
  · exact absurd howed (by dsimp only; omega)
  · exact ⟨_, _, rfl, hlow, hhigh, hrest⟩

theorem ofNat_eq_byte {n : Nat} (h : n = b.toNat) : UInt8.ofNat n = b := by
  rw [h, UInt8.ofNat_toNat]

theorem toNat_charOfNat {n : Nat} (h : n < 0xD800 ∨ 0xDFFF < n ∧ n < 0x110000) :
    (Char.ofNat n).toNat = n := by
  rw [Char.ofNat, dif_pos h]
  rfl

/-- A lead byte and what it asks for are the bytes of the character. -/
theorem utf8EncodeChar_of_lead (hlead : lead b = .begins u) (h : u.Ends bytes c) :
    String.utf8EncodeChar c = b :: bytes := by
  rw [utf8EncodeChar_eq]
  unfold lead at hlead
  dsimp only at hlead
  split at hlead
  · cases hlead
  split at hlead
  · cases hlead
  split at hlead
  · -- Two bytes.
    cases hlead
    obtain ⟨b₁, rfl, hlow, hhigh, hc⟩ := h.of_last
    rw [hc, toNat_charOfNat (.inl (by omega)), if_neg (by omega), if_pos (by omega),
      ofNat_eq_byte (b := b) (by omega), ofNat_eq_byte (b := b₁) (by omega)]
  split at hlead
  · -- Three bytes.
    cases hlead
    obtain ⟨b₁, rest, rfl, hlow₁, hhigh₁, h⟩ := h.of_more
    obtain ⟨b₂, rfl, hlow₂, hhigh₂, hc⟩ := h.of_last
    have hlow : 0x80 ≤ b₁.toNat ∧ (b.toNat = 0xE0 → 0xA0 ≤ b₁.toNat) := by
      split at hlow₁ <;> omega
    have hhigh : b₁.toNat ≤ 0xBF ∧ (b.toNat = 0xED → b₁.toNat ≤ 0x9F) := by
      split at hhigh₁ <;> omega
    rw [hc, toNat_charOfNat (by omega), if_neg (by omega), if_neg (by omega), if_pos (by omega),
      ofNat_eq_byte (b := b) (by omega), ofNat_eq_byte (b := b₁) (by omega),
      ofNat_eq_byte (b := b₂) (by omega)]
  split at hlead
  · -- Four bytes.
    cases hlead
    obtain ⟨b₁, rest, rfl, hlow₁, hhigh₁, h⟩ := h.of_more
    obtain ⟨b₂, rest, rfl, hlow₂, hhigh₂, h⟩ := h.of_more
    obtain ⟨b₃, rfl, hlow₃, hhigh₃, hc⟩ := h.of_last
    have hlow : 0x80 ≤ b₁.toNat ∧ (b.toNat = 0xF0 → 0x90 ≤ b₁.toNat) := by
      split at hlow₁ <;> omega
    have hhigh : b₁.toNat ≤ 0xBF ∧ (b.toNat = 0xF4 → b₁.toNat ≤ 0x8F) := by
      split at hhigh₁ <;> omega
    rw [hc, toNat_charOfNat (by omega), if_neg (by omega), if_neg (by omega), if_neg (by omega),
      ofNat_eq_byte (b := b) (by omega), ofNat_eq_byte (b := b₁) (by omega),
      ofNat_eq_byte (b := b₂) (by omega), ofNat_eq_byte (b := b₃) (by omega)]
  · cases hlead

theorem utf8EncodeChar_of_whole (hlead : lead b = .whole c) : String.utf8EncodeChar c = [b] := by
  unfold lead at hlead
  dsimp only at hlead
  split at hlead
  · cases hlead
    rw [utf8EncodeChar_eq, toNat_charOfNat (.inl (by omega)), if_pos (by omega), UInt8.ofNat_toNat]
  split at hlead
  · cases hlead
  split at hlead
  · cases hlead
  split at hlead
  · cases hlead
  split at hlead <;> cases hlead

/-- **The first character comes from the first bytes**, and unless it is U+FFFD these are its
bytes. -/
theorem decodeFrom_eq_cons (h : decodeFrom none bytes = c :: tail) :
    ∃ piece rest, piece ≠ [] ∧ bytes = piece ++ rest ∧ decodeFrom none rest = tail ∧
      (c = replacement ∨ piece = String.utf8EncodeChar c) := by
  cases bytes with
  | nil => cases h
  | cons b bytes =>
    rw [decodeFrom] at h
    cases hlead : lead b with
    | whole d =>
      rw [hlead] at h
      obtain ⟨rfl, rfl⟩ := List.cons_eq_cons.mp h
      exact ⟨[b], bytes, by simp, rfl, rfl, .inr (utf8EncodeChar_of_whole hlead).symm⟩
    | begins u =>
      rw [hlead] at h
      obtain ⟨piece, rest, rfl, htail, hc⟩ := decodeFrom_some_eq_cons h
      exact ⟨b :: piece, rest, by simp, rfl, htail,
        hc.imp_right fun hends => (utf8EncodeChar_of_lead hlead hends).symm⟩
    | stray =>
      rw [hlead] at h
      obtain ⟨rfl, rfl⟩ := List.cons_eq_cons.mp h
      exact ⟨[b], bytes, by simp, rfl, rfl, .inl rfl⟩

/-- A block of the text comes from a block of the bytes, and unless it has a U+FFFD from its own
bytes. -/
theorem decodeFrom_eq_append (h : decodeFrom none bytes = before ++ tail) :
    ∃ front rest, bytes = front ++ rest ∧ decodeFrom none rest = tail ∧
      (replacement ∉ before → front = before.flatMap String.utf8EncodeChar) := by
  induction before generalizing bytes with
  | nil => exact ⟨[], bytes, rfl, h, fun _ => rfl⟩
  | cons c before ih =>
    obtain ⟨piece, rest, -, rfl, hrest, hc⟩ := decodeFrom_eq_cons h
    obtain ⟨front, rest, rfl, htail, hfront⟩ := ih hrest
    refine ⟨piece ++ front, rest, (List.append_assoc _ _ _).symm, htail, fun hnot => ?_⟩
    rw [List.mem_cons, not_or] at hnot
    rw [hfront hnot.2, hc.resolve_left fun same => hnot.1 same.symm, List.flatMap_cons]

theorem decodeFrom_some_ne_nil (u : Unfinished) (bytes : Bytes) :
    decodeFrom (some u) bytes ≠ [] := by
  induction bytes generalizing u with
  | nil => exact List.cons_ne_nil _ _
  | cons b bytes ih =>
    by_cases hrange : u.low ≤ b.toNat ∧ b.toNat ≤ u.high
    · rw [decodeFrom]
      simp only [hrange, and_self, if_true]
      split
      · exact List.cons_ne_nil _ _
      · exact ih _
    · rw [decodeFrom_refused hrange]
      exact List.cons_ne_nil _ _

/-- Only no bytes are read as no text. -/
theorem decodeFrom_eq_nil_iff : decodeFrom none bytes = [] ↔ bytes = [] := by
  constructor
  · intro h
    cases bytes with
    | nil => rfl
    | cons b bytes =>
      rw [decodeFrom] at h
      cases hlead : lead b with
      | whole c => rw [hlead] at h; cases h
      | begins u => rw [hlead] at h; exact absurd h (decodeFrom_some_ne_nil u bytes)
      | stray => rw [hlead] at h; cases h
  · rintro rfl
    rfl

/-! ## Blocks of bytes and blocks of text -/

/-- Bytes that are those of their own text. -/
def WellFormed (bytes : Bytes) : Prop :=
  (decodeFrom none bytes).flatMap String.utf8EncodeChar = bytes

/-- Bytes that are not well-formed leave a U+FFFD. -/
theorem wellFormed_of_not_mem (h : replacement ∉ decodeFrom none bytes) : WellFormed bytes := by
  obtain ⟨front, rest, hbytes, hrest, hfront⟩ :=
    decodeFrom_eq_append (List.append_nil (decodeFrom none bytes)).symm
  rw [decodeFrom_eq_nil_iff.mp hrest, List.append_nil, hfront h] at hbytes
  exact hbytes.symm

/-- The bytes of a character begin afresh. -/
theorem exists_utf8EncodeChar_eq (c : Char) :
    ∃ b bytes, String.utf8EncodeChar c = b :: bytes ∧ IsFresh b := by
  have hvalid : c.toNat < 0xD800 ∨ 0xDFFF < c.toNat ∧ c.toNat < 0x110000 := c.valid
  rw [utf8EncodeChar_eq]
  by_cases hone : c.toNat ≤ 127
  · rw [if_pos hone]
    exact ⟨_, _, rfl, .inl (by rw [toNat_ofNat (by omega)]; omega)⟩
  by_cases htwo : c.toNat ≤ 2047
  · rw [if_neg hone, if_pos htwo]
    exact ⟨_, _, rfl, .inr (by rw [toNat_ofNat (by omega)]; omega)⟩
  by_cases hthree : c.toNat ≤ 65535
  · rw [if_neg hone, if_neg htwo, if_pos hthree]
    exact ⟨_, _, rfl, .inr (by rw [toNat_ofNat (by omega)]; omega)⟩
  · rw [if_neg hone, if_neg htwo, if_neg hthree]
    exact ⟨_, _, rfl, .inr (by rw [toNat_ofNat (by omega)]; omega)⟩

variable {line output : Bytes}

/-- **Well-formed bytes that stand in others are found in their text.** -/
theorem infix_of_wellFormed (hline : WellFormed line) (h : line <:+: output) :
    decodeFrom none line <:+: decodeFrom none output := by
  obtain ⟨front, rest, rfl⟩ := h
  cases htext : decodeFrom none line with
  | nil => exact List.nil_infix
  | cons c text =>
    have hfresh : ∀ b ∈ (line ++ rest).head?, IsFresh b := by
      obtain ⟨b, bytes, hc, hb⟩ := exists_utf8EncodeChar_eq c
      rw [← hline, htext, List.flatMap_cons, hc]
      intro b' hb'
      rwa [← Option.some.inj hb']
    rw [List.append_assoc, decodeFrom_append (by simp) hfresh, ← hline, htext, decodeFrom_flatMap]
    exact ⟨decodeFrom none front, decodeFrom none rest, List.append_assoc _ _ _⟩

/-- **A text without U+FFFD that is found in that of others has its bytes there.** -/
theorem infix_of_not_mem (hline : replacement ∉ decodeFrom none line)
    (h : decodeFrom none line <:+: decodeFrom none output) : line <:+: output := by
  obtain ⟨before, tail, htext⟩ := h
  rw [List.append_assoc] at htext
  obtain ⟨front, rest, rfl, hrest, -⟩ := decodeFrom_eq_append htext.symm
  obtain ⟨middle, rest, rfl, -, hmiddle⟩ := decodeFrom_eq_append hrest
  rw [hmiddle hline, wellFormed_of_not_mem hline]
  exact ⟨front, rest, List.append_assoc _ _ _⟩

/-- Between well-formed bytes, blocks of the text are blocks of the bytes. -/
theorem infix_of_wellFormed_output (hline : WellFormed line) (houtput : WellFormed output)
    (h : decodeFrom none line <:+: decodeFrom none output) : line <:+: output := by
  obtain ⟨before, tail, htext⟩ := h
  rw [← hline, ← houtput, ← htext, List.flatMap_append, List.flatMap_append]
  exact List.infix_append _ _ _

end GoldenRun.Text
