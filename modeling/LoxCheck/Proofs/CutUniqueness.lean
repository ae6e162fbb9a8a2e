import LoxCheck.Proofs.CutTheorems
import LoxCheck.Proofs.NumeralTheorems

/-!
# A source text has one cut

A piece that is well formed and cannot go on into the text after it is the piece that is cut off
there. So the conditions on pieces leave no choice: the pieces of a text are its only cut.
-/

namespace LoxCheck

namespace Piece

/-! ## Characters that begin no symbol -/

theorem head?_spelling_of_symbolKinds :
    ∀ kind ∈ symbolKinds, ∀ d ∈ kind.spelling.head?,
      isBlank d = false ∧ d ≠ '"' ∧ d.isDigit = false ∧ isWordStart d = false := by
  -- as one check for each symbol, which takes the character from the spelling
  have checked : ∀ kind ∈ symbolKinds, kind.spelling.head?.all
      (fun d => !isBlank d && d != '"' && !d.isDigit && !isWordStart d) = true := by
    decide
  intro kind listed d head
  have := checked kind listed
  rw [head] at this
  simpa [and_assoc] using this

theorem apart_of_isBlank {c : Char} (h : isBlank c = true) :
    c.isDigit = false ∧ isWordStart c = false := by
  have listed : c = ' ' ∨ c = '\r' ∨ c = '\t' ∨ c = '\n' := by
    simpa [isBlank, or_assoc] using h
  rcases listed with rfl | rfl | rfl | rfl <;> exact ⟨rfl, rfl⟩

theorem isDigit_of_isWordStart {c : Char} (h : isWordStart c = true) : c.isDigit = false := by
  rw [Bool.eq_false_iff]
  intro digit
  have bounds := Numeral.isDigit_bounds digit
  rcases Bool.or_eq_true_iff.1 h with letter | underscore
  · -- The letters of both cases come after the digits.
    have high : 65 ≤ c.toNat := by
      rcases Bool.or_eq_true_iff.1 letter with upper | lower
      · exact UInt32.le_iff_toNat_le.1 (of_decide_eq_true upper).1
      · have low := of_decide_eq_true (Bool.and_eq_true_iff.1 lower).1
        have : 97 ≤ c.toNat := UInt32.le_iff_toNat_le.1 low
        omega
    omega
  · obtain rfl := of_decide_eq_true underscore
    exact absurd bounds.2 (by decide)

/-- A character that begins no symbol is looked at further. -/
theorem next_of_not_symbol {c : Char} (h : ∀ kind ∈ symbolKinds, kind.spelling.head? ≠ some c)
    (rest : List Char) :
    next c rest =
      if isBlank c then (.blank c, rest)
      else if c = '"' then afterQuote rest
      else if c.isDigit then
        (.number (c :: (numberTail rest).1) (numberTail rest).2.1, (numberTail rest).2.2)
      else if isWordStart c then
        (.word (c :: rest.takeWhile isWordChar), rest.dropWhile isWordChar)
      else (.stray c, rest) := by
  have punctuation_symbols : ∀ kind ∈ TokenKind.punctuation, kind ∈ symbolKinds := by decide
  have operator_symbols : ∀ forms ∈ TokenKind.growingOperators, forms.1 ∈ symbolKinds := by decide
  -- nothing in the tables is spelled by that character
  have no_punctuation : TokenKind.punctuation? c = none := by
    apply List.find?_eq_none.2
    intro kind listed spelled
    exact h kind (punctuation_symbols kind listed) (by simp [eq_of_beq spelled])
  have no_operator : TokenKind.growingOperator? c = none := by
    apply List.find?_eq_none.2
    intro forms listed spelled
    exact h forms.1 (operator_symbols forms listed) (by simp [eq_of_beq spelled])
  have not_slash : c ≠ '/' := by
    intro same
    subst same
    exact h .slash (by decide) rfl
  rw [next, no_punctuation, no_operator]
  simp only [not_slash, if_false]

/-! ## Each form of piece -/

theorem next_of_blank {c : Char} (h : isBlank c = true) (rest : List Char) :
    next c rest = (.blank c, rest) := by
  have not_symbol : ∀ kind ∈ symbolKinds, kind.spelling.head? ≠ some c := by
    intro kind listed head
    exact absurd h (by simp [(head?_spelling_of_symbolKinds kind listed c head).1])
  rw [next_of_not_symbol not_symbol, if_pos h]

theorem next_of_quote (rest : List Char) : next '"' rest = afterQuote rest := rfl

theorem next_of_slash (rest : List Char) : next '/' rest = afterSlash rest := rfl

theorem afterQuote_closed {content : List Char} (h : '"' ∉ content) (after : List Char) :
    afterQuote (content ++ '"' :: after) = (.string content, after) := by
  have unquoted : ∀ c ∈ content, decide (c ≠ '"') = true := by
    intro c hc
    exact decide_eq_true fun quote => h (quote ▸ hc)
  have cut := span_append ('"' :: after) unquoted (by simp)
  rw [afterQuote, cut.1, cut.2]
  rfl

theorem afterQuote_open {body : List Char} (h : '"' ∉ body) :
    afterQuote body = (.openString body, []) := by
  have unquoted : ∀ c ∈ body, decide (c ≠ '"') = true := by
    intro c hc
    exact decide_eq_true fun quote => h (quote ▸ hc)
  have cut := span_append [] unquoted (by simp)
  rw [List.append_nil] at cut
  rw [afterQuote, cut.2]

theorem afterSlash_line {body after : List Char} (h : '\n' ∉ body)
    (ends : ∀ c ∈ after.head?, c = '\n') :
    afterSlash ('/' :: (body ++ after)) = (.lineComment body, after) := by
  have inside : ∀ c ∈ body, decide (c ≠ '\n') = true := by
    intro c hc
    exact decide_eq_true fun newline => h (newline ▸ hc)
  have cut := span_append after inside fun c hc => by simp [ends c hc]
  rw [afterSlash, cut.1, cut.2]

theorem afterSlash_block {body : List Char} (h : CommentBody body) (after : List Char) :
    afterSlash ('*' :: (body ++ after)) = (.blockComment body, after) := by
  rw [afterSlash, closeComment_eq_some_iff.2 ⟨rfl, h⟩]

theorem afterSlash_open {body : List Char}
    (h : ∀ inside more, body = inside ++ more → ¬CommentBody inside) :
    afterSlash ('*' :: body) = (.openComment body, []) := by
  rw [afterSlash, closeComment_eq_none_iff.2 h]

theorem afterSlash_symbol {after : List Char} (not_slash : after.head? ≠ some '/')
    (not_star : after.head? ≠ some '*') : afterSlash after = (.symbol .slash, after) := by
  rw [afterSlash]
  · intro tail same
    exact not_slash (by rw [same, List.head?_cons])
  · intro tail same
    exact not_star (by rw [same, List.head?_cons])

theorem afterOperator_short {forms : TokenKind × TokenKind} {after : List Char}
    (h : after.head? ≠ some '=') : afterOperator forms after = (.symbol forms.1, after) := by
  rw [afterOperator]
  intro tail same
  exact h (by rw [same, List.head?_cons])

theorem numberTail_append {digits fraction after : List Char}
    (hd : ∀ c ∈ digits, c.isDigit = true) (hf : ∀ c ∈ fraction, c.isDigit = true)
    (ends : ∀ c ∈ after.head?, c.isDigit = false)
    (whole : fraction = [] → ∀ d tail, after = '.' :: d :: tail → d.isDigit = false) :
    numberTail (digits ++ ((if fraction = [] then [] else '.' :: fraction) ++ after)) =
      (digits, fraction, after) := by
  cases fraction with
  | nil =>
    have cut := span_append after hd ends
    rw [if_pos rfl, List.nil_append, numberTail, cut.1, cut.2]
    split
    · next d tail =>
      rw [whole rfl d tail rfl]
      rfl
    · rfl
  | cons d fraction =>
    obtain ⟨digit, others⟩ := List.forall_mem_cons.1 hf
    have cut := span_append ('.' :: d :: (fraction ++ after)) hd (by simp)
    have cut' := span_append after others ends
    have text : (if d :: fraction = [] then [] else '.' :: d :: fraction) ++ after =
        '.' :: d :: (fraction ++ after) := by
      rw [if_neg (List.cons_ne_nil _ _)]
      rfl
    rw [text, numberTail, cut.1, cut.2]
    simp only [digit, if_true, cut'.1, cut'.2]

theorem next_of_digit {c : Char} (h : c.isDigit = true) (rest : List Char) :
    next c rest =
      (.number (c :: (numberTail rest).1) (numberTail rest).2.1, (numberTail rest).2.2) := by
  have bounds := Numeral.isDigit_bounds h
  have not_symbol : ∀ kind ∈ symbolKinds, kind.spelling.head? ≠ some c := by
    intro kind listed head
    exact absurd h (by simp [(head?_spelling_of_symbolKinds kind listed c head).2.2.1])
  have not_blank : ¬isBlank c = true := by
    intro blank
    exact absurd h (by simp [(apart_of_isBlank blank).1])
  have not_quote : c ≠ '"' := by
    intro same
    subst same
    exact absurd bounds.1 (by decide)
  rw [next_of_not_symbol not_symbol, if_neg not_blank, if_neg not_quote, if_pos h]

theorem next_of_wordStart {c : Char} (h : isWordStart c = true) (rest : List Char) :
    next c rest = (.word (c :: rest.takeWhile isWordChar), rest.dropWhile isWordChar) := by
  have not_symbol : ∀ kind ∈ symbolKinds, kind.spelling.head? ≠ some c := by
    intro kind listed head
    exact absurd h (by simp [(head?_spelling_of_symbolKinds kind listed c head).2.2.2])
  have not_blank : ¬isBlank c = true := by
    intro blank
    exact absurd h (by simp [(apart_of_isBlank blank).2])
  have not_quote : c ≠ '"' := by
    intro same
    subst same
    exact absurd h (by decide)
  have not_digit : ¬c.isDigit = true := by simp [isDigit_of_isWordStart h]
  rw [next_of_not_symbol not_symbol, if_neg not_blank, if_neg not_quote, if_neg not_digit, if_pos h]

theorem next_of_unexpected {c : Char} (h : Unexpected c) (rest : List Char) :
    next c rest = (.stray c, rest) := by
  have not_blank : ¬isBlank c = true := by simpa [isBlank, and_assoc] using h.not_blank
  have not_start : ¬isWordStart c = true := by simp [isWordStart, h.not_letter, h.not_underscore]
  have not_digit : ¬c.isDigit = true := by simp [h.not_digit]
  rw [next_of_not_symbol h.not_symbol, if_neg not_blank, if_neg h.not_quote, if_neg not_digit,
    if_neg not_start]

/-- A symbol is the one that its first character begins, unless it would be longer. -/
theorem next_of_symbol {kind : TokenKind} {after : List Char} (h : (Piece.symbol kind).Stands after)
    {c : Char} {rest : List Char} (ht : kind.spelling ++ after = c :: rest) :
    next c rest = (.symbol kind, after) := by
  obtain ⟨listed, grows, slash⟩ := h
  cases kind with
  | slash =>
    obtain ⟨rfl, rfl⟩ := List.cons.inj ht
    exact afterSlash_symbol (slash rfl).1 (slash rfl).2
  | bang | equal | greater | less =>
    -- without an equals sign behind it the operator stays short
    obtain ⟨rfl, rfl⟩ := List.cons.inj ht
    exact afterOperator_short (grows (by decide))
  | leftParen | rightParen | leftBrace | rightBrace | comma | dot | minus | plus | semicolon | star
  | bangEqual | equalEqual | greaterEqual | lessEqual =>
    obtain ⟨rfl, rfl⟩ := List.cons.inj ht
    rfl
  | _ => exact absurd listed (by decide)

/-- A well-formed piece is cut off the text that it stands in. -/
theorem next_of_stands {piece : Piece} {after : List Char} (h : piece.Stands after) {c : Char}
    {rest : List Char} (ht : piece.text ++ after = c :: rest) : next c rest = (piece, after) := by
  cases piece with
  | symbol kind => exact next_of_symbol h ht
  | word text =>
    obtain ⟨⟨first, others, rfl, start, inside⟩, ends⟩ := h
    have ht : first :: (others ++ after) = c :: rest := ht
    obtain ⟨rfl, rfl⟩ := List.cons.inj ht
    have cut := span_append after inside ends
    rw [next_of_wordStart start, cut.1, cut.2]
  | number whole fraction =>
    obtain ⟨nonempty, hw, hf, ends, no_point⟩ := h
    obtain ⟨first, digits, rfl⟩ := List.exists_cons_of_ne_nil nonempty
    obtain ⟨digit, others⟩ := List.forall_mem_cons.1 hw
    rw [text_number, List.append_assoc, List.cons_append] at ht
    obtain ⟨rfl, rfl⟩ := List.cons.inj ht
    rw [next_of_digit digit, numberTail_append others hf ends no_point]
  | string content =>
    have ht : '"' :: (content ++ ['"'] ++ after) = c :: rest := ht
    obtain ⟨rfl, rfl⟩ := List.cons.inj ht
    rw [next_of_quote, List.append_assoc]
    exact afterQuote_closed h after
  | blank b =>
    obtain ⟨rfl, rfl⟩ := List.cons.inj ht
    have listed : b ∈ [' ', '\r', '\t', '\n'] := h
    exact next_of_blank (by simpa [isBlank, or_assoc] using listed) after
  | lineComment body =>
    obtain ⟨rfl, rfl⟩ := List.cons.inj ht
    exact afterSlash_line h.1 h.2
  | blockComment body =>
    obtain ⟨rfl, rfl⟩ := List.cons.inj ht
    exact afterSlash_block h after
  | stray b =>
    obtain ⟨rfl, rfl⟩ := List.cons.inj ht
    exact next_of_unexpected h after
  | openString body =>
    obtain ⟨unquoted, rfl⟩ := h
    have ht : '"' :: (body ++ []) = c :: rest := ht
    obtain ⟨rfl, rfl⟩ := List.cons.inj ht
    rw [next_of_quote, List.append_nil, afterQuote_open unquoted]
  | openComment body =>
    obtain ⟨unclosed, rfl⟩ := h
    have ht : '/' :: ('*' :: body ++ []) = c :: rest := ht
    obtain ⟨rfl, rfl⟩ := List.cons.inj ht
    rw [next_of_slash, List.append_nil]
    exact afterSlash_open unclosed

end Piece

/-- The pieces of a text are its only cut. -/
theorem cut_iff {cs : List Char} {ps : List Piece} : Cut cs ps ↔ ps = pieces cs := by
  constructor
  · intro h
    induction h with
    | nil => rw [pieces]
    | @cons piece after others nonempty stands _ ih =>
      obtain ⟨c, text, ht⟩ := List.exists_cons_of_ne_nil nonempty
      -- the first piece is the one that is cut off there, and the others cut what is left
      have first := Piece.next_of_stands stands (by rw [ht, List.cons_append])
      rw [ht, List.cons_append, pieces_cons, first, ih]
  · rintro rfl
    exact cut_pieces cs

end LoxCheck
