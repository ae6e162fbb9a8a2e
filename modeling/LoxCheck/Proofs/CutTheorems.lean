import LoxCheck.Proofs.CommentTheorems

/-!
# Cutting a source text

What each piece of a source text has to be like, said apart from the functions that cut it off:
which characters it has, and what may not follow it because the piece would have been longer. The
pieces that are cut off a text are of this kind, and they follow one another without a gap.
-/

namespace LoxCheck

/-! ## What pieces are like -/

/-- Punctuation and operators. -/
def symbolKinds : List TokenKind :=
  [.leftParen, .rightParen, .leftBrace, .rightBrace, .comma, .dot, .minus, .plus, .semicolon,
    .slash, .star, .bang, .bangEqual, .equal, .equalEqual, .greater, .greaterEqual, .less, .lessEqual]

/-- A character that is no blank, no letter, digit or underscore of ASCII, no double quote, and
begins no punctuation, operator or comment. A comment begins like a slash. -/
structure Unexpected (c : Char) : Prop where
  not_blank : c ∉ [' ', '\r', '\t', '\n']
  not_letter : c.isAlpha = false
  not_digit : c.isDigit = false
  not_underscore : c ≠ '_'
  not_quote : c ≠ '"'
  not_symbol : ∀ kind ∈ symbolKinds, kind.spelling.head? ≠ some c

namespace Piece

/-- A piece is well formed and cannot go on into the text after it. -/
def Stands : Piece → List Char → Prop
  | .symbol kind, after =>
    kind ∈ symbolKinds ∧
      (kind ∈ [.bang, .equal, .greater, .less] → after.head? ≠ some '=') ∧
      (kind = .slash → after.head? ≠ some '/' ∧ after.head? ≠ some '*')
  | .word text, after =>
    (∃ c rest, text = c :: rest ∧ isWordStart c = true ∧ ∀ d ∈ rest, isWordChar d = true) ∧
      ∀ c ∈ after.head?, isWordChar c = false
  | .number whole fraction, after =>
    whole ≠ [] ∧ (∀ c ∈ whole, c.isDigit = true) ∧ (∀ c ∈ fraction, c.isDigit = true) ∧
      (∀ c ∈ after.head?, c.isDigit = false) ∧
      (fraction = [] → ∀ d tail, after = '.' :: d :: tail → d.isDigit = false)
  | .string content, _ => '"' ∉ content
  | .blank c, _ => c ∈ [' ', '\r', '\t', '\n']
  | .lineComment body, after => '\n' ∉ body ∧ ∀ c ∈ after.head?, c = '\n'
  | .blockComment body, _ => CommentBody body
  | .stray c, _ => Unexpected c
  | .openString body, after => '"' ∉ body ∧ after = []
  | .openComment body, after =>
    (∀ inside more, body = inside ++ more → ¬CommentBody inside) ∧ after = []

/-! ## The next piece is well formed -/

theorem head?_dropWhile {α : Type} (p : α → Bool) (cs : List α) :
    ∀ c ∈ (cs.dropWhile p).head?, p c = false := by
  intro c hc
  have first := List.head?_dropWhile_not p cs
  rw [Option.mem_def.1 hc] at first
  simpa using first

theorem of_mem_takeWhile {α : Type} {p : α → Bool} {cs : List α} :
    ∀ c ∈ cs.takeWhile p, p c = true :=
  List.all_eq_true.1 List.all_takeWhile

theorem stands_afterSlash (rest : List Char) :
    (afterSlash rest).1.Stands (afterSlash rest).2 := by
  unfold afterSlash
  split
  · next tail =>
    refine ⟨fun newline => ?_, fun c hc => ?_⟩
    · exact absurd (of_mem_takeWhile '\n' newline) (by simp)
    · simpa using head?_dropWhile _ tail c hc
  · next tail =>
    split
    · next body after found => exact (closeComment_eq_some_iff.1 found).2
    · next missing =>
      exact ⟨fun inside more cut => closeComment_eq_none_iff.1 missing inside more cut, rfl⟩
  · next other_slash other_star =>
    -- a slash that begins no comment
    refine ⟨by decide, fun grows => absurd grows (by decide), fun _ => ⟨fun slash => ?_, fun star => ?_⟩⟩
    · obtain ⟨tail, rfl⟩ := List.head?_eq_some_iff.1 slash
      exact other_slash tail rfl
    · obtain ⟨tail, rfl⟩ := List.head?_eq_some_iff.1 star
      exact other_star tail rfl

theorem stands_afterQuote (rest : List Char) :
    (afterQuote rest).1.Stands (afterQuote rest).2 := by
  have unquoted : '"' ∉ rest.takeWhile (· ≠ '"') := by
    intro quote
    exact absurd (of_mem_takeWhile '"' quote) (by simp)
  unfold afterQuote
  split
  · exact unquoted
  · next unclosed =>
    -- nothing is left after the characters that are no quotes
    have ended : rest.dropWhile (· ≠ '"') = [] := by
      cases left : rest.dropWhile (· ≠ '"') with
      | nil => rfl
      | cons c after =>
        have quote := head?_dropWhile (· ≠ '"') rest c (by rw [left]; rfl)
        obtain rfl : c = '"' := by simpa using quote
        exact absurd left (unclosed after)
    have cut := List.takeWhile_append_dropWhile (p := (· ≠ '"')) (l := rest)
    rw [ended, List.append_nil] at cut
    rw [cut] at unquoted
    exact ⟨unquoted, rfl⟩

theorem stands_afterOperator {forms : TokenKind × TokenKind}
    (listed : forms ∈ TokenKind.growingOperators) (rest : List Char) :
    (afterOperator forms rest).1.Stands (afterOperator forms rest).2 := by
  have known : ∀ forms ∈ TokenKind.growingOperators, forms.1 ∈ symbolKinds ∧
      forms.2 ∈ symbolKinds ∧ forms.2 ∉ [TokenKind.bang, .equal, .greater, .less] ∧
      forms.1 ≠ .slash ∧ forms.2 ≠ .slash := by decide
  obtain ⟨short, long, complete, not_slash, not_slash'⟩ := known forms listed
  unfold afterOperator
  split
  · exact ⟨long, fun grows => absurd grows complete, fun slash => absurd slash not_slash'⟩
  · next other =>
    refine ⟨short, fun _ equals => ?_, fun slash => absurd slash not_slash⟩
    obtain ⟨tail, rfl⟩ := List.head?_eq_some_iff.1 equals
    exact other tail rfl

theorem stands_number {c : Char} (hc : c.isDigit = true) (rest : List Char) :
    (Piece.number (c :: (numberTail rest).1) (numberTail rest).2.1).Stands (numberTail rest).2.2 := by
  have whole : ∀ d ∈ c :: rest.takeWhile Char.isDigit, d.isDigit = true :=
    List.forall_mem_cons.2 ⟨hc, of_mem_takeWhile⟩
  have stops := head?_dropWhile Char.isDigit rest
  unfold numberTail
  split
  · next d tail split =>
    split
    · next digit =>
      have fraction : ∀ e ∈ d :: tail.takeWhile Char.isDigit, e.isDigit = true :=
        List.forall_mem_cons.2 ⟨digit, of_mem_takeWhile⟩
      exact ⟨List.cons_ne_nil _ _, whole, fraction, head?_dropWhile _ tail,
        fun empty => absurd empty (List.cons_ne_nil _ _)⟩
    · next other =>
      -- a point without a digit behind it is left for the next piece
      refine ⟨List.cons_ne_nil _ _, whole, by simp, split ▸ stops, fun _ e more same => ?_⟩
      obtain ⟨-, same⟩ := List.cons.inj same
      obtain ⟨rfl, -⟩ := List.cons.inj same
      simpa using other
  · next no_fraction =>
    exact ⟨List.cons_ne_nil _ _, whole, by simp, stops, fun _ d tail same =>
      absurd same (no_fraction d tail)⟩

theorem stands_punctuation {c : Char} {kind : TokenKind} (h : TokenKind.punctuation? c = some kind)
    (rest : List Char) : (Piece.symbol kind).Stands rest := by
  have known : ∀ kind ∈ TokenKind.punctuation, kind ∈ symbolKinds ∧
      kind ∉ [TokenKind.bang, .equal, .greater, .less] ∧ kind ≠ .slash := by decide
  obtain ⟨listed, complete, not_slash⟩ := known kind (List.mem_of_find?_eq_some h)
  exact ⟨listed, fun grows => absurd grows complete, fun slash => absurd slash not_slash⟩

/-- A character that begins nothing else is no symbol either. -/
theorem head?_spelling_ne {c : Char} (no_punctuation : TokenKind.punctuation? c = none)
    (no_operator : TokenKind.growingOperator? c = none) (not_slash : c ≠ '/') :
    ∀ kind ∈ symbolKinds, kind.spelling.head? ≠ some c := by
  -- every symbol begins like punctuation, like a slash, or like an operator that grows
  have begins : ∀ kind ∈ symbolKinds,
      (∃ first ∈ TokenKind.punctuation, kind.spelling.head? = first.spelling.head? ∧
        first.spelling.length = 1) ∨
      kind.spelling.head? = some '/' ∨
      (∃ forms ∈ TokenKind.growingOperators, kind.spelling.head? = forms.1.spelling.head? ∧
        forms.1.spelling.length = 1) := by
    decide
  have single : ∀ {cs : List Char}, cs.head? = some c → cs.length = 1 → cs = [c] := by
    intro cs head length
    obtain ⟨tail, rfl⟩ := List.head?_eq_some_iff.1 head
    rw [List.length_cons] at length
    rw [List.length_eq_zero_iff.1 (by omega : tail.length = 0)]
  intro kind listed head
  rcases begins kind listed with ⟨first, hf, same, length⟩ | slash | ⟨forms, hf, same, length⟩
  · have unlike := List.find?_eq_none.1 no_punctuation first hf
    rw [head] at same
    exact unlike (by simp [single same.symm length])
  · rw [head] at slash
    exact not_slash (Option.some.inj slash)
  · have unlike := List.find?_eq_none.1 no_operator forms hf
    rw [head] at same
    exact unlike (by simp [single same.symm length])

/-- The piece that a character begins is well formed. -/
theorem stands_next (c : Char) (rest : List Char) : (next c rest).1.Stands (next c rest).2 := by
  unfold next
  split
  · next found => exact stands_punctuation found rest
  · next found => exact stands_afterOperator (List.mem_of_find?_eq_some found) rest
  · next no_punctuation no_operator =>
    split
    · exact stands_afterSlash rest
    next not_slash =>
    split
    · next blank => simpa [Stands, isBlank, or_assoc] using blank
    next not_blank =>
    split
    · exact stands_afterQuote rest
    next not_quote =>
    split
    · next digit => exact stands_number digit rest
    next not_digit =>
    split
    · next start =>
      exact ⟨⟨c, _, rfl, start, of_mem_takeWhile⟩, head?_dropWhile _ rest⟩
    next not_start =>
    have letter : c.isAlpha = false ∧ c ≠ '_' := by simpa [isWordStart] using not_start
    refine ⟨?_, letter.1, by simpa using not_digit, letter.2, not_quote, ?_⟩
    · simpa [isBlank, and_assoc] using not_blank
    · exact head?_spelling_ne no_punctuation no_operator not_slash

end Piece

/-! ## All pieces -/

/-- A text is cut into consecutive pieces, none of them empty, each of which stands before the
next ones. -/
inductive Cut : List Char → List Piece → Prop where
  | nil : Cut [] []
  | cons {piece : Piece} {after : List Char} {others : List Piece} :
    piece.text ≠ [] → piece.Stands after → Cut after others →
    Cut (piece.text ++ after) (piece :: others)

theorem cut_pieces (cs : List Char) : Cut cs (pieces cs) := by
  fun_induction pieces cs with
  | case1 => exact .nil
  | case2 c rest first ih =>
    have cut := Cut.cons (Piece.text_next_ne_nil c rest) (Piece.stands_next c rest) ih
    rwa [Piece.text_next] at cut

theorem Cut.flatMap_text {cs : List Char} {ps : List Piece} (h : Cut cs ps) :
    ps.flatMap Piece.text = cs := by
  induction h with
  | nil => rfl
  | cons _ _ _ ih => rw [List.flatMap_cons, ih]

theorem Cut.exists_stands {cs : List Char} {ps : List Piece} (h : Cut cs ps) {piece : Piece}
    (listed : piece ∈ ps) : ∃ after, piece.Stands after := by
  induction h with
  | nil => exact absurd listed List.not_mem_nil
  | @cons _ after _ _ stands _ ih =>
    rcases List.mem_cons.1 listed with rfl | listed
    · exact ⟨after, stands⟩
    · exact ih listed

end LoxCheck
