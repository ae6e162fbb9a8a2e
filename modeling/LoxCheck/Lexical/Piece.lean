import LoxCheck.Number.Numeral
import LoxCheck.Token.Kind

/-!
# Pieces of a source text

A source text is cut into consecutive pieces: the tokens, the blanks and comments between them,
and what cannot be read. `Piece.next` cuts the first piece off a text and `pieces` cuts a whole
text. Nothing is lost: a piece's text and the rest make up the text that was cut, and no piece is
empty, which is why cutting ends.
-/

namespace LoxCheck

/-- A piece of a source text. -/
inductive Piece where
  /-- Punctuation or an operator. -/
  | symbol (kind : TokenKind)
  /-- A keyword or an identifier. -/
  | word (text : List Char)
  /-- Digits, with a point and further digits unless the fraction is empty. -/
  | number (whole fraction : List Char)
  /-- The text between two double quotes. -/
  | string (content : List Char)
  /-- A space, a tab, a carriage return or a line feed. -/
  | blank (c : Char)
  /-- What follows `//` up to the end of the line. -/
  | lineComment (body : List Char)
  /-- What follows the opening of a block comment, its closing included. -/
  | blockComment (body : List Char)
  /-- A character that no piece begins with. -/
  | stray (c : Char)
  /-- What follows a double quote that nothing closes. -/
  | openString (body : List Char)
  /-- What follows the opening of a block comment that nothing closes. -/
  | openComment (body : List Char)
  deriving DecidableEq, Repr

namespace Piece

/-! ## Characters and texts -/

/-- The blanks that separate tokens. -/
def isBlank (c : Char) : Bool := c = ' ' || c = '\r' || c = '\t' || c = '\n'

/-- The characters that a word begins with. -/
def isWordStart (c : Char) : Bool := c.isAlpha || c = '_'

/-- The characters that a word goes on with. -/
def isWordChar (c : Char) : Bool := isWordStart c || c.isDigit

/-- The text of a piece. -/
def text : Piece → List Char
  | .symbol kind => kind.spelling
  | .word text => text
  | .number whole [] => whole
  | .number whole fraction => whole ++ '.' :: fraction
  | .string content => '"' :: (content ++ ['"'])
  | .blank c => [c]
  | .lineComment body => '/' :: '/' :: body
  | .blockComment body => '/' :: '*' :: body
  | .stray c => [c]
  | .openString body => '"' :: body
  | .openComment body => '/' :: '*' :: body

/-! ## The next piece -/

/-- The rest of a block comment through its closing, with what follows it, when `depth` comments
around it are open too. `read` is what was read of it so far, the last character first. -/
def closeComment (depth : Nat) (read : List Char) : List Char → Option (List Char × List Char)
  | [] => none
  | '/' :: '*' :: rest => closeComment (depth + 1) ('*' :: '/' :: read) rest
  | '*' :: '/' :: rest =>
    match depth with
    | 0 => some (('/' :: '*' :: read).reverse, rest)
    | outer + 1 => closeComment outer ('/' :: '*' :: read) rest
  | c :: rest => closeComment depth (c :: read) rest

/-- The end of a number: further digits, then a point if a digit follows it, with that fraction's
digits. -/
def numberTail (rest : List Char) : List Char × List Char × List Char :=
  let digits := rest.takeWhile Char.isDigit
  match rest.dropWhile Char.isDigit with
  | '.' :: d :: tail =>
    if d.isDigit then (digits, d :: tail.takeWhile Char.isDigit, tail.dropWhile Char.isDigit)
    else (digits, [], '.' :: d :: tail)
  | after => (digits, [], after)

/-- The piece that a slash begins: a comment, or the slash alone. -/
def afterSlash : List Char → Piece × List Char
  | '/' :: tail => (.lineComment (tail.takeWhile (· ≠ '\n')), tail.dropWhile (· ≠ '\n'))
  | '*' :: tail =>
    match closeComment 0 [] tail with
    | some (body, after) => (.blockComment body, after)
    | none => (.openComment tail, [])
  | rest => (.symbol .slash, rest)

/-- The piece that a double quote begins. -/
def afterQuote (rest : List Char) : Piece × List Char :=
  match rest.dropWhile (· ≠ '"') with
  | '"' :: after => (.string (rest.takeWhile (· ≠ '"')), after)
  | _ => (.openString rest, [])

/-- The piece that an operator begins, which a following `=` makes longer. -/
def afterOperator (forms : TokenKind × TokenKind) : List Char → Piece × List Char
  | '=' :: tail => (.symbol forms.2, tail)
  | rest => (.symbol forms.1, rest)

/-- The piece that a character begins, with what follows the piece. -/
def next (c : Char) (rest : List Char) : Piece × List Char :=
  match TokenKind.punctuation? c, TokenKind.growingOperator? c with
  | some kind, _ => (.symbol kind, rest)
  | none, some forms => afterOperator forms rest
  | none, none =>
    if c = '/' then afterSlash rest
    else if isBlank c then (.blank c, rest)
    else if c = '"' then afterQuote rest
    else if c.isDigit then
      let (digits, fraction, after) := numberTail rest
      (.number (c :: digits) fraction, after)
    else if isWordStart c then
      (.word (c :: rest.takeWhile isWordChar), rest.dropWhile isWordChar)
    else (.stray c, rest)

/-! ## Nothing is lost -/

theorem closeComment_append {depth : Nat} {read cs body after : List Char}
    (h : closeComment depth read cs = some (body, after)) : body ++ after = read.reverse ++ cs := by
  fun_induction closeComment depth read cs with
  | case1 => simp at h
  | case2 depth read rest ih => simpa using ih h
  | case3 read rest =>
    obtain ⟨rfl, rfl⟩ := by simpa using h
    simp
  | case4 read rest outer ih => simpa using ih h
  | case5 depth read c rest _ _ ih => simpa using ih h

theorem text_number (whole fraction : List Char) :
    (number whole fraction).text = whole ++ if fraction = [] then [] else '.' :: fraction := by
  cases fraction <;> simp [text]

theorem text_number_numberTail (whole rest : List Char) :
    (number (whole ++ (numberTail rest).1) (numberTail rest).2.1).text ++ (numberTail rest).2.2 =
      whole ++ rest := by
  have cut := List.takeWhile_append_dropWhile (p := Char.isDigit) (l := rest)
  rw [text_number]
  unfold numberTail
  split
  · next d tail h =>
    rw [h] at cut
    split <;> simp [cut]
  · simp [cut]

theorem text_afterSlash (rest : List Char) :
    (afterSlash rest).1.text ++ (afterSlash rest).2 = '/' :: rest := by
  unfold afterSlash
  split
  · simp [text]
  · next tail =>
    split
    · next body after h => simp [text, closeComment_append h]
    · simp [text]
  · simp [text, TokenKind.spelling]

theorem text_afterQuote (rest : List Char) :
    (afterQuote rest).1.text ++ (afterQuote rest).2 = '"' :: rest := by
  have cut := List.takeWhile_append_dropWhile (p := (· ≠ '"')) (l := rest)
  unfold afterQuote
  split
  · next after h =>
    rw [h] at cut
    simpa [text] using cut
  · simp [text]

theorem spelling_of_punctuation? {c : Char} {kind : TokenKind}
    (h : TokenKind.punctuation? c = some kind) : kind.spelling = [c] := by
  simpa using List.find?_some h

theorem spelling_growingOperators :
    ∀ forms ∈ TokenKind.growingOperators, forms.2.spelling = forms.1.spelling ++ ['='] := by
  decide

theorem spelling_of_growingOperator? {c : Char} {forms : TokenKind × TokenKind}
    (h : TokenKind.growingOperator? c = some forms) :
    forms.1.spelling = [c] ∧ forms.2.spelling = [c, '='] := by
  have short : forms.1.spelling = [c] := by simpa using List.find?_some h
  exact ⟨short, by simp [spelling_growingOperators _ (List.mem_of_find?_eq_some h), short]⟩

theorem text_afterOperator {c : Char} {forms : TokenKind × TokenKind}
    (h : TokenKind.growingOperator? c = some forms) (rest : List Char) :
    (afterOperator forms rest).1.text ++ (afterOperator forms rest).2 = c :: rest := by
  obtain ⟨short, grown⟩ := spelling_of_growingOperator? h
  unfold afterOperator
  split <;> simp [text, short, grown]

/-- A piece and what follows it make up the text it was cut from. -/
theorem text_next (c : Char) (rest : List Char) :
    (next c rest).1.text ++ (next c rest).2 = c :: rest := by
  unfold next
  split
  · next h => simp [text, spelling_of_punctuation? h]
  · next h => exact text_afterOperator h rest
  · split
    · next h => rw [h, text_afterSlash]
    split
    · simp [text]
    split
    · next h => rw [h, text_afterQuote]
    split
    · exact text_number_numberTail [c] rest
    split
    · simp [text]
    · simp [text]

/-- Every piece has a character. -/
theorem text_next_ne_nil (c : Char) (rest : List Char) : (next c rest).1.text ≠ [] := by
  unfold next
  split
  · next h => simp [text, spelling_of_punctuation? h]
  · next h =>
    obtain ⟨short, grown⟩ := spelling_of_growingOperator? h
    unfold afterOperator
    split <;> simp [text, short, grown]
  · split
    · unfold afterSlash
      split
      · simp [text]
      · split <;> simp [text]
      · simp [text, TokenKind.spelling]
    split
    · simp [text]
    split
    · unfold afterQuote
      split <;> simp [text]
    split
    · simp [text_number]
    split <;> simp [text]

end Piece

/-! ## All pieces -/

/-- A source text as the list of its pieces. -/
def pieces : List Char → List Piece
  | [] => []
  | c :: rest =>
    let first := Piece.next c rest
    first.1 :: pieces first.2
  termination_by cs => cs.length
  decreasing_by
    have cut := congrArg List.length (Piece.text_next c rest)
    have := List.length_pos_iff.2 (Piece.text_next_ne_nil c rest)
    simp at cut ⊢
    omega

theorem pieces_cons (c : Char) (rest : List Char) :
    pieces (c :: rest) = (Piece.next c rest).1 :: pieces (Piece.next c rest).2 := by
  rw [pieces]

/-- The pieces of a text make it up. -/
theorem flatMap_text_pieces (cs : List Char) : (pieces cs).flatMap Piece.text = cs := by
  fun_induction pieces cs with
  | case1 => rfl
  | case2 c rest first ih =>
    rw [List.flatMap_cons, ih]
    exact Piece.text_next c rest

theorem text_ne_nil_of_mem_pieces {cs : List Char} {piece : Piece} (h : piece ∈ pieces cs) :
    piece.text ≠ [] := by
  fun_induction pieces cs with
  | case1 => simp at h
  | case2 c rest first ih =>
    rcases List.mem_cons.1 h with rfl | h
    · exact Piece.text_next_ne_nil c rest
    · exact ih h

end LoxCheck
