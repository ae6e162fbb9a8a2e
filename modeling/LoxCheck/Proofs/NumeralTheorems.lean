import LoxCheck.Number.Numeral

/-!
# Plain numerals are numbers

Digits, with a point and further digits or without, are read as the number they stand for: nothing
in the general grammar of numbers gets in the way of the form that source text has.
-/

namespace LoxCheck

/-- Items with a property in front of one without it are cut off as a whole. -/
theorem span_append {α : Type} {p : α → Bool} {items : List α} (rest : List α)
    (h : ∀ a ∈ items, p a = true) (ends : ∀ a ∈ rest.head?, p a = false) :
    (items ++ rest).takeWhile p = items ∧ (items ++ rest).dropWhile p = rest := by
  rw [List.takeWhile_append_of_pos h, List.dropWhile_append_of_pos h]
  cases rest with
  | nil => exact ⟨List.append_nil items, rfl⟩
  | cons a rest =>
    have other : p a = false := ends a rfl
    rw [List.takeWhile_cons, List.dropWhile_cons, other]
    exact ⟨List.append_nil items, rfl⟩

namespace Numeral

/-- The text of a plain numeral. -/
def plainText (whole fraction : List Char) : List Char :=
  if fraction = [] then whole else whole ++ '.' :: fraction

/-- The characters of plain numerals. -/
def isPlainChar (c : Char) : Bool := c.isDigit || c = '.'

theorem isDigit_bounds {c : Char} (h : c.isDigit = true) : 48 ≤ c.toNat ∧ c.toNat ≤ 57 := by
  simp only [Char.isDigit, Bool.and_eq_true, decide_eq_true_eq] at h
  exact h

theorem isPlainChar_of_isDigit {c : Char} (h : c.isDigit = true) : isPlainChar c = true := by
  rw [isPlainChar, h, Bool.true_or]

theorem toNat_of_isPlainChar {c : Char} (h : isPlainChar c = true) :
    46 ≤ c.toNat ∧ c.toNat ≤ 57 := by
  rcases Bool.or_eq_true_iff.1 h with digit | point
  · have := isDigit_bounds digit
    omega
  · have := of_decide_eq_true point
    subst this
    decide

/-! ## What is left out changes nothing -/

theorem toAscii_of_isPlainChar {c : Char} (h : isPlainChar c = true) : toAscii c = c := by
  have := toNat_of_isPlainChar h
  rw [toAscii, if_pos (by omega)]

theorem map_toAscii {text : List Char} (h : ∀ c ∈ text, isPlainChar c = true) :
    text.map toAscii = text := by
  calc text.map toAscii = text.map id := List.map_congr_left fun c hc => toAscii_of_isPlainChar (h c hc)
    _ = text := List.map_id text

theorem dropUnderscores?_of_isPlainChar (afterDigit : Bool) {text : List Char}
    (h : ∀ c ∈ text, isPlainChar c = true) : dropUnderscores? afterDigit text = some text := by
  induction text generalizing afterDigit with
  | nil => rfl
  | cons c rest ih =>
    obtain ⟨plain, others⟩ := List.forall_mem_cons.1 h
    have bounds := toNat_of_isPlainChar plain
    have other : c ≠ '_' := by
      intro same
      subst same
      exact absurd bounds.2 (by decide)
    rw [dropUnderscores?, if_neg other, ih _ others]
    · rfl
    · intro c' rest' hc
      exact absurd hc other

theorem isAsciiBlank_of_isPlainChar {c : Char} (h : isPlainChar c = true) :
    isAsciiBlank c = false := by
  have bounds := toNat_of_isPlainChar h
  have other : c ≠ ' ' := by
    intro same
    subst same
    exact absurd bounds.1 (by decide)
  have high : ¬c.toNat ≤ 13 := by omega
  simp [isAsciiBlank, other, high]

/-- Nothing is trimmed from a text without blanks. -/
theorem dropWhile_isAsciiBlank {text : List Char} (h : ∀ c ∈ text, isPlainChar c = true) :
    text.dropWhile isAsciiBlank = text := by
  cases text with
  | nil => rfl
  | cons c rest =>
    have kept := isAsciiBlank_of_isPlainChar (h c List.mem_cons_self)
    rw [List.dropWhile_cons, kept]
    rfl

theorem trimBlanks_of_isPlainChar {text : List Char} (h : ∀ c ∈ text, isPlainChar c = true) :
    trimBlanks text = text := by
  have reversed : ∀ c ∈ text.reverse, isPlainChar c = true := by
    intro c hc
    exact h c (List.mem_reverse.1 hc)
  rw [trimBlanks, dropWhile_isAsciiBlank h, dropWhile_isAsciiBlank reversed, List.reverse_reverse]

/-! ## The digits -/

theorem sign_of_isDigit {c : Char} (h : c.isDigit = true) (rest : List Char) :
    sign (c :: rest) = (false, c :: rest) := by
  have bounds := isDigit_bounds h
  have not_minus : c ≠ '-' := by
    intro same
    subst same
    exact absurd bounds.1 (by decide)
  have not_plus : c ≠ '+' := by
    intro same
    subst same
    exact absurd bounds.1 (by decide)
  rw [sign]
  · intro tail hc
    exact not_minus (List.cons.inj hc).1
  · intro tail hc
    exact not_plus (List.cons.inj hc).1

theorem toLower_of_isDigit {c : Char} (h : c.isDigit = true) : c.toLower = c := by
  have bounds := isDigit_bounds h
  apply dif_neg
  intro upper
  -- upper case letters come after the digits
  have : 65 ≤ c.toNat := UInt32.le_iff_toNat_le.1 upper.1
  omega

/-- A text that begins with a digit is no word. -/
theorem map_toLower_ne {c : Char} (h : c.isDigit = true) (rest word : List Char)
    (hw : word.head? = some 'i') : (c :: rest).map Char.toLower ≠ word := by
  have bounds := isDigit_bounds h
  intro same
  have head : some c.toLower = some 'i' := by rw [← hw, ← same, List.map_cons, List.head?_cons]
  rw [toLower_of_isDigit h] at head
  obtain rfl := Option.some.inj head
  exact absurd bounds.2 (by decide)

theorem isPlainChar_plainText {whole fraction : List Char}
    (hw : ∀ c ∈ whole, c.isDigit = true) (hf : ∀ c ∈ fraction, c.isDigit = true) :
    ∀ c ∈ plainText whole fraction, isPlainChar c = true := by
  have whole_plain : ∀ c ∈ whole, isPlainChar c = true :=
    fun c hc => isPlainChar_of_isDigit (hw c hc)
  unfold plainText
  split
  · exact whole_plain
  · have point : isPlainChar '.' = true := by decide
    have fraction_plain : ∀ c ∈ fraction, isPlainChar c = true :=
      fun c hc => isPlainChar_of_isDigit (hf c hc)
    exact List.forall_mem_append.2 ⟨whole_plain, List.forall_mem_cons.2 ⟨point, fraction_plain⟩⟩

theorem magnitude?_plainText {c : Char} {digits fraction : List Char}
    (hw : ∀ d ∈ c :: digits, d.isDigit = true) (hf : ∀ d ∈ fraction, d.isDigit = true) :
    magnitude? false (plainText (c :: digits) fraction) = some (plain (c :: digits) fraction) := by
  have first : c.isDigit = true := hw c List.mem_cons_self
  by_cases empty : fraction = []
  · subst empty
    have text : plainText (c :: digits) [] = c :: digits := rfl
    have cut := span_append [] hw (by simp)
    rw [List.append_nil] at cut
    have inf := map_toLower_ne first digits "inf".toList rfl
    have infinity := map_toLower_ne first digits "infinity".toList rfl
    rw [text, magnitude?]
    simp only [inf, infinity, decide_false, Bool.or_self, Bool.false_eq_true, if_false, cut.1,
      cut.2, List.isEmpty_cons, Bool.false_and, exponent?, Option.map_some]
    rfl
  · -- the digits before the point and those behind it are cut off one after the other
    have text : plainText (c :: digits) fraction = c :: (digits ++ '.' :: fraction) := by
      rw [plainText, if_neg empty]
      rfl
    have cut := span_append ('.' :: fraction) hw (by simp)
    have cut' := span_append [] hf (by simp)
    rw [List.append_nil] at cut'
    rw [List.cons_append] at cut
    have inf := map_toLower_ne first (digits ++ '.' :: fraction) "inf".toList rfl
    have infinity := map_toLower_ne first (digits ++ '.' :: fraction) "infinity".toList rfl
    rw [text, magnitude?]
    simp only [inf, infinity, decide_false, Bool.or_self, Bool.false_eq_true, if_false, cut.1,
      cut.2, cut'.1, cut'.2, List.isEmpty_cons, Bool.false_and, exponent?, Option.map_some]
    rfl

/-- The text of a plain numeral is read as its value. -/
theorem read?_plainText {whole fraction : List Char} (nonempty : whole ≠ [])
    (hw : ∀ c ∈ whole, c.isDigit = true) (hf : ∀ c ∈ fraction, c.isDigit = true) :
    read? (plainText whole fraction) = some (plain whole fraction) := by
  have plain_chars := isPlainChar_plainText hw hf
  obtain ⟨c, digits, rfl⟩ := List.exists_cons_of_ne_nil nonempty
  have first : ∃ rest, plainText (c :: digits) fraction = c :: rest := by
    unfold plainText
    split
    · exact ⟨digits, rfl⟩
    · exact ⟨digits ++ '.' :: fraction, rfl⟩
  obtain ⟨rest, split⟩ := first
  have unsigned : sign (plainText (c :: digits) fraction) =
      (false, plainText (c :: digits) fraction) := by
    rw [split]
    exact sign_of_isDigit (hw c List.mem_cons_self) rest
  rw [read?, map_toAscii plain_chars, dropUnderscores?_of_isPlainChar false plain_chars]
  show magnitude? (sign (trimBlanks _)).1 (sign (trimBlanks _)).2 = _
  rw [trimBlanks_of_isPlainChar plain_chars, unsigned, magnitude?_plainText hw hf]

end Numeral

end LoxCheck
