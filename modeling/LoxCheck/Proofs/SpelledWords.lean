import LoxCheck.Proofs.ScanTheorems

/-!
# Scanning spelled words

Scanning undoes spelling. Where every token is spelled and separators stand between the spellings,
a source is scanned to just these tokens, whatever the strings and comments in it hold: each word is
the piece that is cut off there, and separators are pieces that are neither tokens nor errors.
-/

namespace LoxCheck

/-! ## Words -/

/-- The spelling of a token. -/
inductive Spelling where
  | symbol (kind : TokenKind) (listed : kind ∈ symbolKinds)
  | keyword (kind : TokenKind) (listed : kind ∈ TokenKind.keywords)
  | identifier (first : Char) (others : List Char) (start : Piece.isWordStart first = true)
    (inside : ∀ c ∈ others, Piece.isWordChar c = true)
    (unreserved : ∀ kind ∈ TokenKind.keywords, kind.spelling ≠ first :: others)
  /-- Digits, with a point and further digits unless the fraction is empty. -/
  | number (whole fraction : List Char) (nonempty : whole ≠ [])
    (digits : ∀ c ∈ whole, c.isDigit = true) (decimals : ∀ c ∈ fraction, c.isDigit = true)
  /-- Any text without a double quote, between two double quotes. -/
  | string (content : List Char) (unquoted : '"' ∉ content)

namespace Spelling

/-- The characters of a spelling. -/
def text : Spelling → List Char
  | .symbol kind _ => kind.spelling
  | .keyword kind _ => kind.spelling
  | .identifier first others .. => first :: others
  | .number whole fraction .. => Numeral.plainText whole fraction
  | .string content _ => '"' :: (content ++ ['"'])

/-- The kind of the token that is spelled. -/
def kind : Spelling → TokenKind
  | .symbol kind _ => kind
  | .keyword kind _ => kind
  | .identifier .. => .identifier
  | .number .. => .number
  | .string .. => .string

/-- The value that the token carries: the number that the text reads as, the text between the
quotes, or nothing. -/
def Denotes : Spelling → Value → Prop
  | .number whole fraction .., value =>
    ∃ x, Numeral.read? (Numeral.plainText whole fraction) = some x ∧ value = .number x
  | .string content _, value => value = .text (String.ofList content)
  | _, value => value = .nil

/-- The piece of a source that a spelling is. -/
def piece : Spelling → Piece
  | .symbol kind _ => .symbol kind
  | .keyword kind _ => .word kind.spelling
  | .identifier first others .. => .word (first :: others)
  | .number whole fraction .. => .number whole fraction
  | .string content _ => .string content

theorem text_piece (w : Spelling) : w.piece.text = w.text := by
  cases w with
  | number whole fraction => cases fraction <;> rfl
  | _ => rfl

theorem isToken_piece (w : Spelling) : w.piece.isToken = true := by
  cases w <;> rfl

theorem problem?_piece (w : Spelling) : w.piece.problem? = none := by
  cases w <;> rfl

theorem text_ne_nil (w : Spelling) : w.text ≠ [] := by
  have symbols : ∀ kind ∈ symbolKinds, kind.spelling ≠ [] := by decide
  have words : ∀ kind ∈ TokenKind.keywords, kind.spelling ≠ [] := by decide
  cases w with
  | symbol kind listed => exact symbols kind listed
  | keyword kind listed => exact words kind listed
  | identifier => exact List.cons_ne_nil _ _
  | number whole fraction nonempty =>
    cases fraction <;> simp [text, Numeral.plainText, nonempty]
  | string => exact List.cons_ne_nil _ _

theorem ofWord_spelling : ∀ kind ∈ TokenKind.keywords, TokenKind.ofWord kind.spelling = kind := by
  decide

theorem ofWord_of_unreserved {word : List Char}
    (h : ∀ kind ∈ TokenKind.keywords, kind.spelling ≠ word) :
    TokenKind.ofWord word = .identifier := by
  have missing : (TokenKind.keywords.find? fun kind => kind.spelling == word) = none := by
    apply List.find?_eq_none.2
    intro kind listed
    simpa using h kind listed
  rw [TokenKind.ofWord, missing, Option.getD_none]

/-- The token of a spelling has its characters, its kind and its value. -/
theorem token_of_piece {w : Spelling} {line : Int} {token : Token}
    (h : w.piece.token? line = some token) :
    token.lexeme = String.ofList w.text ∧ token.kind = w.kind ∧ w.Denotes token.literal := by
  rw [← w.text_piece]
  cases w with
  | symbol kind =>
    obtain rfl := Option.some.inj h
    exact ⟨rfl, rfl, rfl⟩
  | keyword kind listed =>
    obtain rfl := Option.some.inj h
    exact ⟨rfl, ofWord_spelling kind listed, rfl⟩
  | identifier first others _ _ unreserved =>
    obtain rfl := Option.some.inj h
    exact ⟨rfl, ofWord_of_unreserved unreserved, rfl⟩
  | number whole fraction nonempty digits decimals =>
    obtain rfl := Option.some.inj h
    exact ⟨rfl, rfl, _, Numeral.read?_plainText nonempty digits decimals, rfl⟩
  | string content =>
    obtain rfl := Option.some.inj h
    exact ⟨rfl, rfl, rfl⟩

end Spelling

/-! ## Separators -/

/-- What separates tokens: blanks, line comments with the line feeds that end them, and closed block
comments, in any number. -/
inductive Separator : List Char → Prop where
  | nil : Separator []
  | blank {c : Char} {rest : List Char} :
    c ∈ [' ', '\r', '\t', '\n'] → Separator rest → Separator (c :: rest)
  | lineComment {body rest : List Char} :
    '\n' ∉ body → Separator rest → Separator ('/' :: '/' :: (body ++ '\n' :: rest))
  | blockComment {body rest : List Char} :
    CommentBody body → Separator rest → Separator ('/' :: '*' :: (body ++ rest))

/-- A text that begins like a separator, or not at all. -/
def Bounds (after : List Char) : Prop := ∀ c ∈ after.head?, c ∈ [' ', '\r', '\t', '\n'] ∨ c = '/'

theorem Separator.bounds {text : List Char} (h : Separator text) : Bounds text := by
  intro c hc
  cases h with
  | nil => exact absurd hc (by simp)
  | blank listed =>
    obtain rfl := Option.some.inj hc
    exact .inl listed
  | lineComment => exact .inr (Option.some.inj hc).symm
  | blockComment => exact .inr (Option.some.inj hc).symm

/-- A separator is cut into pieces that are neither tokens nor errors, whatever stands after it. -/
theorem Separator.exists_pieces {text : List Char} (h : Separator text) :
    ∃ ps : List Piece, ps.filter Piece.isToken = [] ∧ ps.filterMap Piece.problem? = [] ∧
      ∀ {after : List Char} {others : List Piece}, Cut after others →
        Cut (text ++ after) (ps ++ others) := by
  induction h with
  | nil => exact ⟨[], rfl, rfl, fun cut => cut⟩
  | @blank c rest listed _ ih =>
    obtain ⟨ps, tokens, problems, cut⟩ := ih
    refine ⟨.blank c :: ps, tokens, problems, fun {after others} h => ?_⟩
    have stands : (Piece.blank c).Stands (rest ++ after) := listed
    exact .cons (by simp [Piece.text]) stands (cut h)
  | @lineComment body rest unbroken _ ih =>
    obtain ⟨ps, tokens, problems, cut⟩ := ih
    refine ⟨.lineComment body :: .blank '\n' :: ps, tokens, problems, fun {after others} h => ?_⟩
    -- the line feed ends the comment, and is a piece of its own
    have blank : (Piece.blank '\n').Stands (rest ++ after) := by simp [Piece.Stands]
    have newline : Cut ('\n' :: (rest ++ after)) (.blank '\n' :: (ps ++ others)) :=
      .cons (by simp [Piece.text]) blank (cut h)
    have stands : (Piece.lineComment body).Stands ('\n' :: (rest ++ after)) :=
      ⟨unbroken, fun c hc => (Option.some.inj hc).symm⟩
    have whole := Cut.cons (by simp [Piece.text]) stands newline
    simpa [Piece.text] using whole
  | @blockComment body rest closes _ ih =>
    obtain ⟨ps, tokens, problems, cut⟩ := ih
    refine ⟨.blockComment body :: ps, tokens, problems, fun {after others} h => ?_⟩
    have stands : (Piece.blockComment body).Stands (rest ++ after) := closes
    have whole := Cut.cons (by simp [Piece.text]) stands (cut h)
    simpa [Piece.text] using whole

/-! ## A word before a separator -/

namespace Bounds

variable {after : List Char} {c : Char}

theorem not_equals (h : Bounds after) : after.head? ≠ some '=' := by
  intro equals
  exact absurd (h '=' equals) (by decide)

theorem not_wordChar (h : Bounds after) (hc : c ∈ after.head?) : Piece.isWordChar c = false := by
  have plain : [' ', '\r', '\t', '\n', '/'].all (fun b => !Piece.isWordChar b) = true := rfl
  have listed : c ∈ [' ', '\r', '\t', '\n', '/'] := by simpa [or_assoc] using h c hc
  simpa using List.all_eq_true.1 plain c listed

theorem not_digit (h : Bounds after) (hc : c ∈ after.head?) : c.isDigit = false := by
  have plain := h.not_wordChar hc
  rw [Piece.isWordChar, Bool.or_eq_false_iff] at plain
  exact plain.2

theorem not_point (h : Bounds after) (rest : List Char) : after ≠ '.' :: rest := by
  rintro rfl
  exact absurd (h '.' rfl) (by decide)

end Bounds

theorem word_of_keyword : ∀ kind ∈ TokenKind.keywords, ∃ c rest, kind.spelling = c :: rest ∧
    Piece.isWordStart c = true ∧ ∀ d ∈ rest, Piece.isWordChar d = true := by
  have checked : ∀ kind ∈ TokenKind.keywords, kind.spelling.head?.any Piece.isWordStart = true ∧
      kind.spelling.tail.all Piece.isWordChar = true := by
    decide
  intro kind listed
  have found := checked kind listed
  cases text : kind.spelling with
  | nil => simp [text] at found
  | cons c rest => exact ⟨c, rest, rfl, by simpa [text] using found⟩

/-- A word ends where a separator begins, except that a comment may not follow a slash directly. -/
theorem Spelling.stands {w : Spelling} {after : List Char} (bounds : Bounds after)
    (slash : w.kind = .slash → ∀ c ∈ after.head?, c ∈ [' ', '\r', '\t', '\n']) :
    w.piece.Stands after := by
  cases w with
  | symbol kind listed =>
    refine ⟨listed, fun _ => bounds.not_equals, fun same => ⟨fun second => ?_, fun star => ?_⟩⟩
    · exact absurd (slash same '/' second) (by decide)
    · exact absurd (slash same '*' star) (by decide)
  | keyword kind listed => exact ⟨word_of_keyword kind listed, fun c => bounds.not_wordChar⟩
  | identifier first others start inside =>
    exact ⟨⟨first, others, rfl, start, inside⟩, fun c => bounds.not_wordChar⟩
  | number whole fraction nonempty digits decimals =>
    exact ⟨nonempty, digits, decimals, fun c => bounds.not_digit,
      fun _ d tail point => absurd point (bounds.not_point _)⟩
  | string content unquoted => exact unquoted

/-! ## A written text -/

/-- Words with what follows each of them. -/
def written (words : List (Spelling × List Char)) : List Char :=
  words.flatMap fun w => w.1.text ++ w.2

/-- What follows a word begins as the separator behind it does. -/
theorem head?_append_written {gap : List Char} {words : List (Spelling × List Char)}
    (apart : words ≠ [] → gap ≠ []) : (gap ++ written words).head? = gap.head? := by
  cases words with
  | nil => rw [written, List.flatMap_nil, List.append_nil]
  | cons w rest => rw [List.head?_append_of_ne_nil _ (apart (List.cons_ne_nil w rest))]

/-- Only the last of some words may have nothing behind it. -/
theorem apart_cons {w : Spelling × List Char} {words : List (Spelling × List Char)}
    (apart : ∀ v ∈ (w :: words).dropLast, v.2 ≠ []) :
    (words ≠ [] → w.2 ≠ []) ∧ ∀ v ∈ words.dropLast, v.2 ≠ [] := by
  cases words with
  | nil => exact ⟨fun nonempty => absurd rfl nonempty, fun v hv => absurd hv List.not_mem_nil⟩
  | cons next rest =>
    rw [List.dropLast_cons_cons, List.forall_mem_cons] at apart
    exact ⟨fun _ => apart.1, apart.2⟩

/-- The words of a written text are the tokens of its cut. -/
theorem exists_cut_written {words : List (Spelling × List Char)}
    (gaps : ∀ w ∈ words, Separator w.2) (apart : ∀ w ∈ words.dropLast, w.2 ≠ [])
    (slash : ∀ w ∈ words, w.1.kind = .slash → ∀ c ∈ w.2.head?, c ∈ [' ', '\r', '\t', '\n']) :
    ∃ ps, Cut (written words) ps ∧ ps.filter Piece.isToken = words.map (·.1.piece) ∧
      ps.filterMap Piece.problem? = [] := by
  induction words with
  | nil => exact ⟨[], .nil, rfl, rfl⟩
  | cons w rest ih =>
    obtain ⟨word, gap⟩ := w
    rw [List.forall_mem_cons] at gaps slash
    have apart := apart_cons apart
    have head := head?_append_written apart.1
    have bounds : Bounds (gap ++ written rest) := by
      rw [Bounds, head]
      exact gaps.1.bounds
    have stands : word.piece.Stands (gap ++ written rest) := by
      apply Spelling.stands bounds
      rw [head]
      exact slash.1
    -- the word, the pieces of its separator, and those of the other words
    obtain ⟨between, no_tokens, no_problems, separated⟩ := gaps.1.exists_pieces
    obtain ⟨others, cut, tokens, problems⟩ := ih gaps.2 apart.2 slash.2
    refine ⟨word.piece :: (between ++ others), ?_, ?_, ?_⟩
    · have nonempty : word.piece.text ≠ [] := word.text_piece ▸ word.text_ne_nil
      have whole := Cut.cons nonempty stands (separated cut)
      rw [written, List.flatMap_cons, List.append_assoc, ← word.text_piece]
      exact whole
    · rw [List.filter_cons_of_pos word.isToken_piece, List.filter_append, no_tokens, tokens]
      rfl
    · rw [List.filterMap_cons_none word.problem?_piece, List.filterMap_append, no_problems,
        problems]
      rfl

/-- Scanning undoes spelling. A text of words, each followed by a separator that is empty at most
after the last one and begins with a blank after a slash, is scanned without an error to the tokens
that were spelled. -/
theorem scan_written {lead : List Char} {words : List (Spelling × List Char)}
    (before : Separator lead) (gaps : ∀ w ∈ words, Separator w.2)
    (apart : ∀ w ∈ words.dropLast, w.2 ≠ [])
    (slash : ∀ w ∈ words, w.1.kind = .slash → ∀ c ∈ w.2.head?, c ∈ [' ', '\r', '\t', '\n']) :
    ∃ body stop, (scan (String.ofList (lead ++ written words))).tokens = body ++ [stop] ∧
      List.Forall₂ (fun w token => token.lexeme = String.ofList w.1.text ∧
        token.kind = w.1.kind ∧ w.1.Denotes token.literal) words body ∧
      stop.kind = .eof ∧ stop.lexeme = "" ∧ stop.literal = .nil ∧
      (scan (String.ofList (lead ++ written words))).errors = [] := by
  obtain ⟨others, cut, tokens, problems⟩ := exists_cut_written gaps apart slash
  obtain ⟨first, no_tokens, no_problems, separated⟩ := before.exists_pieces
  have whole : pieces (lead ++ written words) = first ++ others := (cut_iff.1 (separated cut)).symm
  refine ⟨_, _, rfl, ?_, rfl, rfl, rfl, ?_⟩
  · have read := tokens_of_numbered 1 (first ++ others)
    rw [List.filter_append, no_tokens, tokens, List.nil_append, List.forall₂_map_left_iff] at read
    show List.Forall₂ _ words (scanFrom 1 (String.ofList _).toList).body
    rw [String.toList_ofList, scanFrom, whole]
    refine read.imp fun w token found => ?_
    obtain ⟨_, made⟩ := found
    exact Spelling.token_of_piece made
  · have none_wrong := problems_of_numbered 1 (first ++ others)
    rw [List.filterMap_append, no_problems, problems] at none_wrong
    show (scanFrom 1 (String.ofList _).toList).errors = []
    rw [String.toList_ofList, scanFrom, whole]
    exact List.map_eq_nil_iff.1 none_wrong

/-- A name, a slash before a blank, a comment that holds a quote, and a number. -/
def quotient : List (Spelling × List Char) :=
  [(.identifier 'a' [] rfl (by simp) (by decide), [' ']),
    (.symbol .slash (by decide), [' ', '/', '/', '"', '\n']),
    (.number ['1'] ['5', '0'] (by simp) (by simp) (by simp), [])]

theorem scan_written_quotient :
    (scan "a / //\"\n1.50").errors = [] ∧
      (scan "a / //\"\n1.50").tokens.map (·.lexeme) = ["a", "/", "1.50", ""] := by
  have comment : Separator [' ', '/', '/', '"', '\n'] :=
    .blank (by decide) (@Separator.lineComment ['"'] [] (by decide) .nil)
  have gaps : ∀ w ∈ quotient, Separator w.2 := by
    simpa [quotient] using ⟨.blank (by decide) .nil, comment, .nil⟩
  obtain ⟨body, stop, tokens, read, -, last, -, errors⟩ :=
    scan_written .nil gaps (by simp [quotient]) (by simp [quotient])
  have source : String.ofList ([] ++ written quotient) = "a / //\"\n1.50" := rfl
  rw [source] at tokens errors
  refine ⟨errors, ?_⟩
  rw [tokens, List.map_append]
  -- one token for each of the three words
  obtain _ | ⟨name, _ | ⟨slash, _ | ⟨number, ⟨⟩⟩⟩⟩ := read
  simp only [List.map_cons, List.map_nil, name.1, slash.1, number.1, last]
  rfl

end LoxCheck
