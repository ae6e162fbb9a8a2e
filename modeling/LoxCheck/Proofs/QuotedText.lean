import LoxCheck.Text.Quoted
import Mathlib.Algebra.Group.Nat.Defs
import Mathlib.Tactic.SplitIfs

/-!
# Quoted text reads back

Every escape can be read back, and so can a text in quotes, whatever stands behind it: an escape is
told from the others by its first characters and has a fixed number of digits, and the mark that
opens a text is not met again before it closes. So two texts with the same quoted form are the same,
even where the quoted forms are only the beginnings of longer texts.
-/

namespace LoxCheck.Text

/-! ## Hexadecimal digits -/

/-- The number below sixteen that a digit stands for. -/
def hexValue (c : Char) : Nat := if c.toNat < 58 then c.toNat - 48 else c.toNat - 87

theorem hexValue_hexDigit : ∀ n < 16, hexValue (hexDigit n) = n := by decide

/-- The number that some digits stand for. -/
def readHex (digits : List Char) : Nat := digits.foldl (fun n c => 16 * n + hexValue c) 0

theorem length_hexDigits (width n : Nat) : (hexDigits width n).length = width := by
  induction width generalizing n with
  | zero => rfl
  | succ width ih => rw [hexDigits, List.length_append, ih, List.length_singleton]

/-- A number that the digits have room for is read back from them. -/
theorem readHex_hexDigits {width n : Nat} (h : n < 16 ^ width) :
    readHex (hexDigits width n) = n := by
  induction width generalizing n with
  | zero =>
    obtain rfl : n = 0 := by simpa using h
    rfl
  | succ width ih =>
    have higher : n / 16 < 16 ^ width := by
      rw [pow_succ] at h
      omega
    have read : readHex (hexDigits (width + 1) n) =
        16 * readHex (hexDigits width (n / 16)) + hexValue (hexDigit (n % 16)) := by
      rw [readHex, hexDigits, List.foldl_append]
      rfl
    rw [read, ih higher, hexValue_hexDigit _ (Nat.mod_lt n (by omega))]
    omega

/-! ## Escapes -/

/-- The character with a number of digits at the head of a text, and the text behind them. -/
def readDigits (width : Nat) (text : List Char) : Option (Char × List Char) :=
  some (.ofNat (readHex (text.take width)), text.drop width)

/-- A character is read back from its digits, if they have room for it. -/
theorem readDigits_hexDigits {width : Nat} {c : Char} (h : c.toNat < 16 ^ width)
    (rest : List Char) : readDigits width (hexDigits width c.toNat ++ rest) = some (c, rest) := by
  have length := length_hexDigits width c.toNat
  rw [readDigits, List.take_left' length, List.drop_left' length, readHex_hexDigits h,
    Char.ofNat_toNat]

/-- The character that is escaped by the backslash before a text, and the text behind it. -/
def readLetter : List Char → Option (Char × List Char)
  | [] => none
  | letter :: rest =>
    if letter = 't' then some ('\t', rest)
    else if letter = 'n' then some ('\n', rest)
    else if letter = 'r' then some ('\r', rest)
    else if letter = 'x' then readDigits 2 rest
    else if letter = 'u' then readDigits 4 rest
    else if letter = 'U' then readDigits 8 rest
    else some (letter, rest)

/-- The first character that a text between quotes stands for, and the text behind it. -/
def readEscape : List Char → Option (Char × List Char)
  | [] => none
  | c :: rest => if c = '\\' then readLetter rest else some (c, rest)

/-- The marks that texts are quoted with. -/
def marks : List Char := ['\'', '"']

theorem quoteMark_mem_marks (text : List Char) : quoteMark text ∈ marks := by
  unfold quoteMark
  split <;> decide

/-- Every escape is read back, whatever stands behind it. -/
theorem readEscape_escape {mark : Char} (hm : mark ∈ marks) (c : Char) (rest : List Char) :
    readEscape (escape mark c ++ rest) = some (c, rest) := by
  unfold escape
  split_ifs with special tab feed return' printable narrow wide
  · -- neither the marks nor the backslash are letters of escapes
    have listed : c ∈ '\\' :: marks := by
      rcases Bool.or_eq_true_iff.1 special with same | backslash
      · exact List.mem_cons_of_mem _ (of_decide_eq_true same ▸ hm)
      · exact of_decide_eq_true backslash ▸ List.mem_cons_self
    rw [marks, List.mem_cons, List.mem_cons, List.mem_singleton] at listed
    obtain rfl | rfl | rfl := listed <;> rfl
  · rw [tab]
    rfl
  · rw [feed]
    rfl
  · rw [return']
    rfl
  · have plain : c ≠ '\\' := fun backslash => special (by simp [backslash])
    exact if_neg plain
  · exact readDigits_hexDigits narrow rest
  · exact readDigits_hexDigits wide rest
  · exact readDigits_hexDigits c.val.toNat_lt rest

/-- No escape begins with the mark around it: it begins with a backslash, or is a character that
stands for itself. -/
theorem head?_escape_ne {mark : Char} (hm : mark ∈ marks) (c : Char) (rest : List Char) :
    (escape mark c ++ rest).head? ≠ some mark := by
  have backslash (others : List Char) : ('\\' :: others).head? ≠ some mark := by
    rintro h
    obtain rfl := Option.some.inj h
    exact absurd hm (by decide)
  unfold escape
  split_ifs with special
  · exact backslash _
  · exact backslash _
  · exact backslash _
  · exact backslash _
  · intro same
    exact special (by simpa using Or.inl (Option.some.inj same))
  · exact backslash _
  · exact backslash _
  · exact backslash _

/-! ## Quoted text -/

/-- What stands between two marks is told by its escapes, up to the closing mark. -/
theorem escapes_inj {mark : Char} (hm : mark ∈ marks) {text text' rest rest' : List Char}
    (h : text.flatMap (escape mark) ++ mark :: rest =
      text'.flatMap (escape mark) ++ mark :: rest') : text = text' ∧ rest = rest' := by
  induction text generalizing text' with
  | nil =>
    cases text' with
    | nil => exact ⟨rfl, (List.cons.inj h).2⟩
    | cons c text' =>
      rw [List.flatMap_cons, List.append_assoc] at h
      exact absurd (congrArg List.head? h).symm (head?_escape_ne hm c _)
  | cons c text ih =>
    rw [List.flatMap_cons, List.append_assoc] at h
    cases text' with
    | nil => exact absurd (congrArg List.head? h) (head?_escape_ne hm c _)
    | cons c' text' =>
      rw [List.flatMap_cons, List.append_assoc] at h
      -- the first escapes are read back, and what is behind them is the same
      have read := congrArg readEscape h
      rw [readEscape_escape hm, readEscape_escape hm] at read
      obtain ⟨rfl, others⟩ := Prod.mk.inj (Option.some.inj read)
      obtain ⟨rfl, same⟩ := ih others
      exact ⟨rfl, same⟩

/-- A quoted text is told by the beginning of what it stands in. -/
theorem quotedChars_inj {text text' rest rest' : List Char}
    (h : quotedChars text ++ rest = quotedChars text' ++ rest') : text = text' ∧ rest = rest' := by
  unfold quotedChars at h
  rw [List.cons_append, List.cons_append, List.append_assoc, List.append_assoc] at h
  obtain ⟨mark, inside⟩ := List.cons.inj h
  rw [← mark] at inside
  exact escapes_inj (quoteMark_mem_marks text) inside

end LoxCheck.Text
