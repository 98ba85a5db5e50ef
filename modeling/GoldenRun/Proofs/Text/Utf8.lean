import GoldenRun.Text.Utf8

/-!
# A text is decoded as it was encoded

* `decodeFrom_lead`, `decodeFrom_more`, `decodeFrom_last`: one byte of a character is read
* `decode_encode`: the bytes of a text are read as the text
-/

namespace GoldenRun.Text

variable {n low high bits : Nat} {rest : Bytes}

theorem toNat_ofNat (h : n < 256) : (UInt8.ofNat n).toNat = n := by
  rw [UInt8.toNat_ofNat']
  exact Nat.mod_eq_of_lt h

/-- A byte with which a longer character begins. -/
theorem decodeFrom_lead (hlow : 0xC2 ≤ n) (hhigh : n < 0xF5) :
    decodeFrom none (UInt8.ofNat n :: rest) =
      decodeFrom (some <|
        if n < 0xE0 then ⟨1, 0x80, 0xBF, n - 0xC0⟩
        else if n < 0xF0 then
          ⟨2, if n = 0xE0 then 0xA0 else 0x80, if n = 0xED then 0x9F else 0xBF, n - 0xE0⟩
        else ⟨3, if n = 0xF0 then 0x90 else 0x80, if n = 0xF4 then 0x8F else 0xBF, n - 0xF0⟩)
        rest := by
  have hfirst : ¬ n < 0x80 := by omega
  have hsecond : ¬ n < 0xC2 := by omega
  rw [decodeFrom, lead, toNat_ofNat (by omega)]
  simp only [hfirst, hsecond, hhigh, if_false, if_true]
  by_cases htwo : n < 0xE0
  · simp only [htwo, if_true]
  · by_cases hthree : n < 0xF0
    · simp only [htwo, hthree, if_false, if_true]
    · simp only [htwo, hthree, if_false]

/-- The last byte of a character. -/
theorem decodeFrom_last (hn : n < 256) (hlow : low ≤ n) (hhigh : n ≤ high) :
    decodeFrom (some ⟨1, low, high, bits⟩) (UInt8.ofNat n :: rest) =
      Char.ofNat (bits * 64 + (n - 0x80)) :: decodeFrom none rest := by
  rw [decodeFrom, toNat_ofNat hn]
  simp only [hlow, hhigh, and_self, if_true, Nat.le_refl]

/-- A byte of a character behind which more are owed. -/
theorem decodeFrom_more (owed : Nat) (hn : n < 256) (hlow : low ≤ n) (hhigh : n ≤ high) :
    decodeFrom (some ⟨owed + 2, low, high, bits⟩) (UInt8.ofNat n :: rest) =
      decodeFrom (some ⟨owed + 1, 0x80, 0xBF, bits * 64 + (n - 0x80)⟩) rest := by
  have howed : ¬ owed + 2 ≤ 1 := by omega
  rw [decodeFrom, toNat_ofNat hn]
  simp only [hlow, hhigh, and_self, if_true, howed, if_false]
  rfl

theorem ofNat_eq {c : Char} (h : n = c.toNat) : Char.ofNat n = c := by rw [h, Char.ofNat_toNat]

/-- The bytes of a character. -/
theorem utf8EncodeChar_eq (c : Char) :
    String.utf8EncodeChar c =
      if c.toNat ≤ 127 then [UInt8.ofNat c.toNat]
      else if c.toNat ≤ 2047 then
        [UInt8.ofNat (c.toNat / 64 % 32 + 192), UInt8.ofNat (c.toNat % 64 + 128)]
      else if c.toNat ≤ 65535 then
        [UInt8.ofNat (c.toNat / 4096 % 16 + 224), UInt8.ofNat (c.toNat / 64 % 64 + 128),
          UInt8.ofNat (c.toNat % 64 + 128)]
      else
        [UInt8.ofNat (c.toNat / 262144 % 8 + 240), UInt8.ofNat (c.toNat / 4096 % 64 + 128),
          UInt8.ofNat (c.toNat / 64 % 64 + 128), UInt8.ofNat (c.toNat % 64 + 128)] :=
  rfl

/-- The bytes of a character are read as the character. -/
theorem decodeFrom_utf8EncodeChar (c : Char) (rest : Bytes) :
    decodeFrom none (String.utf8EncodeChar c ++ rest) = c :: decodeFrom none rest := by
  have hvalid : c.toNat < 0xD800 ∨ 0xDFFF < c.toNat ∧ c.toNat < 0x110000 := c.valid
  rw [utf8EncodeChar_eq]
  -- One case for each length; the lead byte says how many bytes are owed.
  by_cases hone : c.toNat ≤ 127
  · rw [if_pos hone, List.singleton_append,
      decodeFrom_ascii _ (by rw [toNat_ofNat (by omega)]; omega), toNat_ofNat (by omega),
      Char.ofNat_toNat]
  by_cases htwo : c.toNat ≤ 2047
  · rw [if_neg hone, if_pos htwo, List.cons_append, List.singleton_append,
      decodeFrom_lead (by omega) (by omega), if_pos (by omega),
      decodeFrom_last (by omega) (by omega) (by omega), ofNat_eq (c := c) (by omega)]
  by_cases hthree : c.toNat ≤ 65535
  · rw [if_neg hone, if_neg htwo, if_pos hthree, List.cons_append, List.cons_append,
      List.singleton_append, decodeFrom_lead (by omega) (by omega), if_neg (by omega),
      if_pos (by omega), decodeFrom_more 0 (by omega) (by split <;> omega) (by split <;> omega),
      decodeFrom_last (by omega) (by omega) (by omega), ofNat_eq (c := c) (by omega)]
  · rw [if_neg hone, if_neg htwo, if_neg hthree, List.cons_append, List.cons_append,
      List.cons_append, List.singleton_append, decodeFrom_lead (by omega) (by omega),
      if_neg (by omega), if_neg (by omega),
      decodeFrom_more 1 (by omega) (by split <;> omega) (by split <;> omega),
      decodeFrom_more 0 (by omega) (by omega) (by omega),
      decodeFrom_last (by omega) (by omega) (by omega), ofNat_eq (c := c) (by omega)]

/-- The bytes of characters are read as the characters. -/
theorem decodeFrom_flatMap (chars : List Char) (rest : Bytes) :
    decodeFrom none (chars.flatMap String.utf8EncodeChar ++ rest) =
      chars ++ decodeFrom none rest := by
  induction chars with
  | nil => rfl
  | cons c chars ih =>
    rw [List.flatMap_cons, List.append_assoc, decodeFrom_utf8EncodeChar, ih, List.cons_append]

/-- **The bytes of a text are read as the text.** -/
theorem decode_encode (text : String) : decode (encode text) = text := by
  have hchars := decodeFrom_flatMap text.toList []
  rw [List.append_nil] at hchars
  rw [decode, encode, hchars, decodeFrom, List.append_nil, String.ofList_toList]

end GoldenRun.Text
