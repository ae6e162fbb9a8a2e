import LoxCheck.Proofs.SpelledWords

/-!
# Tokens at their places

Every token of a source is well formed and as long as possible: what it is decides which characters
it has and which value it carries, and the text that follows does not begin with a character that
would have gone on with it. The place of a token is that of its piece in the cut of the source, so
that nothing but blanks, comments and errors stands between two tokens.
-/

namespace LoxCheck

/-! ## Places -/

/-- A piece with the text before it and the text behind it. -/
structure Place where
  before : List Char
  piece : Piece
  after : List Char

/-- The places of consecutive pieces behind some text. -/
def places (before : List Char) : List Piece → List Place
  | [] => []
  | piece :: rest => ⟨before, piece, rest.flatMap Piece.text⟩ :: places (before ++ piece.text) rest

/-- The line that a place is on. -/
def Place.line (place : Place) : Int := 1 + lineFeeds place.before

/-- The pieces of a cut stand where they are, one behind the other. -/
theorem Cut.places {cs : List Char} {ps : List Piece} (h : Cut cs ps) (before : List Char) :
    ∀ place ∈ places before ps,
      place.before ++ place.piece.text ++ place.after = before ++ cs ∧
        place.piece.Stands place.after := by
  induction h generalizing before with
  | nil => exact fun _ h => absurd h List.not_mem_nil
  | @cons piece after others _ stands cut ih =>
    have rest : others.flatMap Piece.text = after := cut.flatMap_text
    refine List.forall_mem_cons.2 ⟨⟨?_, ?_⟩, fun place listed => ?_⟩
    · rw [rest, List.append_assoc]
    · rw [rest]
      exact stands
    · rw [← List.append_assoc]
      exact ih (before ++ piece.text) place listed

/-- Pieces are numbered by the lines of their places. -/
theorem numbered_eq_places (before : List Char) (ps : List Piece) :
    numbered (1 + lineFeeds before) ps =
      (places before ps).map fun place => (place.line, place.piece) := by
  induction ps generalizing before with
  | nil => rfl
  | cons piece rest ih =>
    have next : (1 + lineFeeds before : Int) + lineFeeds piece.text =
        1 + lineFeeds (before ++ piece.text) := by
      rw [lineFeeds_append]
      omega
    rw [numbered, next, ih]
    rfl

/-- The tokens of a source are those of its token pieces, on the lines of their places. -/
theorem tokens_of_places (cs : List Char) :
    List.Forall₂ (fun place token => place.piece.token? place.line = some token)
      ((places [] (pieces cs)).filter (·.piece.isToken)) (scanFrom 1 cs).body := by
  have body : (scanFrom 1 cs).body =
      (places [] (pieces cs)).filterMap fun place => place.piece.token? place.line := by
    show (numbered (1 + lineFeeds []) (pieces cs)).filterMap _ = _
    rw [numbered_eq_places, List.filterMap_map]
    rfl
  rw [body]
  exact forall₂_filterMap (fun place => place.piece.isSome_token? place.line) _

/-! ## Tokens before a text -/

/-- A letter or an underscore of ASCII with further ones and digits, and none of these behind. The
kind is that of a keyword just if the whole text is the keyword. -/
structure Token.IsWord (token : Token) (after : List Char) : Prop where
  text : ∃ first others, token.lexeme.toList = first :: others ∧
    Piece.isWordStart first = true ∧ ∀ c ∈ others, Piece.isWordChar c = true
  ends : ∀ c ∈ after.head?, Piece.isWordChar c = false
  reserved : ∀ kind ∈ TokenKind.keywords,
    token.kind = kind ↔ token.lexeme.toList = kind.spelling

/-- Digits of ASCII, or digits on both sides of a point, which no digit follows, and no point with a
digit if there is no point yet. The text reads as the number that the token carries. -/
structure Token.IsNumber (token : Token) (whole fraction after : List Char) : Prop where
  text : token.lexeme.toList = Numeral.plainText whole fraction
  nonempty : whole ≠ []
  digits : ∀ c ∈ whole, c.isDigit = true
  decimals : ∀ c ∈ fraction, c.isDigit = true
  ends : ∀ c ∈ after.head?, c.isDigit = false
  no_point : fraction = [] → ∀ d tail, after = '.' :: d :: tail → d.isDigit = false
  value : ∃ x, Numeral.read? token.lexeme.toList = some x ∧ token.literal = .number x

/-- A text without a double quote, which the token carries, between two of them. -/
structure Token.IsString (token : Token) (content : List Char) : Prop where
  text : token.lexeme.toList = '"' :: (content ++ ['"'])
  unquoted : '"' ∉ content
  value : token.literal = .text (String.ofList content)

/-- What a token is like before the text that follows it: which characters it has, which value it
carries, and what does not follow because the token would have been longer. -/
structure Token.Maximal (token : Token) (after : List Char) : Prop where
  not_end : token.kind ≠ .eof
  word : token.kind = .identifier ∨ token.kind ∈ TokenKind.keywords → token.IsWord after
  number : token.kind = .number → ∃ whole fraction, token.IsNumber whole fraction after
  string : token.kind = .string → ∃ content, token.IsString content
  /-- An operator that an equals sign makes longer, without one behind it and with one in it. -/
  operator : ∀ forms ∈ TokenKind.growingOperators,
    (token.kind = forms.1 →
      token.lexeme.toList = forms.1.spelling ∧ after.head? ≠ some '=') ∧
    (token.kind = forms.2 → token.lexeme.toList = forms.1.spelling ++ ['='])
  /-- A slash that begins no comment. -/
  slash : token.kind = .slash →
    token.lexeme.toList = ['/'] ∧ after.head? ≠ some '/' ∧ after.head? ≠ some '*'
  punctuation : token.kind ∈ TokenKind.punctuation →
    ∃ c, token.kind.spelling = [c] ∧ token.lexeme.toList = [c]
  plain : token.kind ≠ .number → token.kind ≠ .string → token.literal = .nil

/-- The token has the spelling, which cannot go on into the text after it. -/
structure Spelling.Spells (w : Spelling) (token : Token) (after : List Char) : Prop where
  stands : w.piece.Stands after
  lexeme : token.lexeme.toList = w.text
  kind : token.kind = w.kind
  denotes : w.Denotes token.literal

namespace Spelling.Spells

variable {w : Spelling} {token : Token} {after : List Char}

/-- No symbol is a word, a number, a string or the end. -/
theorem apart_of_symbolKinds : ∀ kind ∈ symbolKinds, kind ≠ .identifier ∧
    kind ∉ TokenKind.keywords ∧ kind ≠ .number ∧ kind ≠ .string ∧ kind ≠ .eof := by
  decide

/-- No keyword is of another class of tokens. -/
theorem apart_of_keywords : ∀ kind ∈ TokenKind.keywords, kind ≠ .identifier ∧
    kind ∉ symbolKinds ∧ kind ≠ .number ∧ kind ≠ .string ∧ kind ≠ .eof := by
  decide

theorem not_end (h : w.Spells token after) : token.kind ≠ .eof := by
  rw [h.kind]
  cases w with
  | symbol kind listed => exact (apart_of_symbolKinds kind listed).2.2.2.2
  | keyword kind listed => exact (apart_of_keywords kind listed).2.2.2.2
  | _ => exact TokenKind.noConfusion

theorem word (h : w.Spells token after)
    (named : token.kind = .identifier ∨ token.kind ∈ TokenKind.keywords) : token.IsWord after := by
  have text := h.lexeme
  have kind := h.kind
  have stands := h.stands
  rw [kind] at named
  cases w with
  | symbol symbol listed =>
    obtain ⟨no_name, no_keyword, -⟩ := apart_of_symbolKinds symbol listed
    exact absurd named (not_or.2 ⟨no_name, no_keyword⟩)
  | keyword keyword listed =>
    obtain ⟨⟨first, others, spelled, inside⟩, ends⟩ := stands
    refine ⟨⟨first, others, text.trans spelled, inside⟩, ends, fun other listed' => ?_⟩
    rw [text, kind]
    refine ⟨congrArg TokenKind.spelling, fun same => ?_⟩
    -- keywords are told apart by their spellings
    have same : keyword.spelling = other.spelling := same
    rw [← ofWord_spelling other listed', ← same, ofWord_spelling keyword listed]
    rfl
  | identifier first others start inside unreserved =>
    refine ⟨⟨first, others, text, start, inside⟩, stands.2, fun other listed => ?_⟩
    rw [text, kind]
    refine ⟨fun same => ?_, fun same => ?_⟩
    · exact absurd same.symm (apart_of_keywords other listed).1
    · exact absurd same.symm (unreserved other listed)
  | _ => exact absurd named (by simp [Spelling.kind, TokenKind.keywords])

theorem number (h : w.Spells token after) (kind : token.kind = .number) :
    ∃ whole fraction, token.IsNumber whole fraction after := by
  rw [h.kind] at kind
  have text := h.lexeme
  have denotes := h.denotes
  cases w with
  | symbol kind' listed => exact absurd kind (apart_of_symbolKinds kind' listed).2.2.1
  | keyword kind' listed => exact absurd kind (apart_of_keywords kind' listed).2.2.1
  | number whole fraction nonempty digits decimals =>
    obtain ⟨-, -, -, ends, no_point⟩ := h.stands
    obtain ⟨x, read, carried⟩ := denotes
    refine ⟨whole, fraction, text, nonempty, digits, decimals, ends, no_point, x, ?_, carried⟩
    rw [text]
    exact read
  | _ => exact TokenKind.noConfusion kind

theorem string (h : w.Spells token after) (kind : token.kind = .string) :
    ∃ content, token.IsString content := by
  rw [h.kind] at kind
  have text := h.lexeme
  have denotes := h.denotes
  cases w with
  | symbol kind' listed => exact absurd kind (apart_of_symbolKinds kind' listed).2.2.2.1
  | keyword kind' listed => exact absurd kind (apart_of_keywords kind' listed).2.2.2.1
  | string content unquoted => exact ⟨content, text, unquoted, denotes⟩
  | _ => exact TokenKind.noConfusion kind

/-- What holds of a token whose kind is that of a symbol. -/
theorem symbol (h : w.Spells token after) (listed : token.kind ∈ symbolKinds) :
    token.lexeme.toList = token.kind.spelling ∧ (Piece.symbol token.kind).Stands after := by
  have stands := h.stands
  rw [h.lexeme]
  rw [h.kind] at listed ⊢
  cases w with
  | symbol kind _ => exact ⟨rfl, stands⟩
  | keyword kind listed' => exact absurd listed (apart_of_keywords kind listed').2.1
  | _ => exact absurd listed (by simp [Spelling.kind, symbolKinds])

theorem plain (h : w.Spells token after) (not_number : token.kind ≠ .number)
    (not_string : token.kind ≠ .string) : token.literal = .nil := by
  have denotes := h.denotes
  rw [h.kind] at not_number not_string
  cases w with
  | number => exact absurd rfl not_number
  | string => exact absurd rfl not_string
  | _ => exact denotes

/-- A spelled token is as long as possible. -/
theorem maximal (h : w.Spells token after) : token.Maximal after where
  not_end := h.not_end
  word := h.word
  number := h.number
  string := h.string
  operator forms listed := by
    have known : ∀ forms ∈ TokenKind.growingOperators, forms.1 ∈ symbolKinds ∧
        forms.2 ∈ symbolKinds ∧ forms.1 ∈ [TokenKind.bang, .equal, .greater, .less] := by
      decide
    obtain ⟨short, long, grows⟩ := known forms listed
    refine ⟨fun kind => ?_, fun kind => ?_⟩
    · obtain ⟨lexeme, -, no_equals, -⟩ := h.symbol (kind ▸ short)
      rw [kind] at lexeme no_equals
      exact ⟨lexeme, no_equals grows⟩
    · obtain ⟨lexeme, -⟩ := h.symbol (kind ▸ long)
      rw [lexeme, kind]
      exact Piece.spelling_growingOperators forms listed
  slash kind := by
    obtain ⟨lexeme, -, -, no_comment⟩ := h.symbol (kind ▸ (by decide : .slash ∈ symbolKinds))
    refine ⟨?_, no_comment kind⟩
    rw [lexeme, kind]
    rfl
  punctuation listed := by
    have known : ∀ kind ∈ TokenKind.punctuation, kind ∈ symbolKinds ∧
        kind.spelling.length = 1 := by
      decide
    obtain ⟨symbol, length⟩ := known _ listed
    obtain ⟨c, spelled⟩ := List.length_eq_one_iff.1 length
    exact ⟨c, spelled, (h.symbol symbol).1.trans spelled⟩
  plain := h.plain

end Spelling.Spells

/-- A token piece is that of a spelling. -/
theorem Piece.exists_spelling {piece : Piece} {after : List Char} (h : piece.Stands after)
    (token : piece.isToken = true) : ∃ w : Spelling, w.piece = piece := by
  cases piece with
  | symbol kind => exact ⟨.symbol kind h.1, rfl⟩
  | word text =>
    obtain ⟨⟨first, others, rfl, start, inside⟩, -⟩ := h
    by_cases reserved : ∃ kind ∈ TokenKind.keywords, kind.spelling = first :: others
    · obtain ⟨kind, listed, spelled⟩ := reserved
      exact ⟨.keyword kind listed, congrArg Piece.word spelled⟩
    · exact ⟨.identifier first others start inside fun kind listed spelled =>
        reserved ⟨kind, listed, spelled⟩, rfl⟩
  | number whole fraction => exact ⟨.number whole fraction h.1 h.2.1 h.2.2.1, rfl⟩
  | string content => exact ⟨.string content h, rfl⟩
  | _ => exact absurd token (by simp [isToken])

/-- A token is as long as possible at the place of its piece. -/
theorem Place.maximal {place : Place} {token : Token} (stands : place.piece.Stands place.after)
    (isToken : place.piece.isToken = true)
    (made : place.piece.token? place.line = some token) :
    token.lexeme.toList = place.piece.text ∧ token.Maximal place.after := by
  obtain ⟨w, piece⟩ := Piece.exists_spelling stands isToken
  rw [← piece] at stands made
  obtain ⟨lexeme, kind, denotes⟩ := w.token_of_piece made
  have text : token.lexeme.toList = w.text := by rw [lexeme, String.toList_ofList]
  have spells : w.Spells token place.after := ⟨stands, text, kind, denotes⟩
  rw [← piece, w.text_piece]
  exact ⟨text, spells.maximal⟩

/-- Every token of a text but the one for its end is as long as possible. -/
theorem exists_maximal {cs : List Char} {token : Token} (h : token ∈ (scanFrom 1 cs).body) :
    ∃ after, token.Maximal after := by
  have body : (scanFrom 1 cs).body = ((places [] (pieces cs)).map fun place =>
      (place.line, place.piece)).filterMap fun p => p.2.token? p.1 :=
    congrArg _ (numbered_eq_places [] (pieces cs))
  rw [body, List.filterMap_map, List.mem_filterMap] at h
  obtain ⟨place, listed, made⟩ := h
  have isToken : place.piece.isToken = true := by
    rw [← place.piece.isSome_token? place.line]
    exact Option.isSome_iff_exists.2 ⟨token, made⟩
  obtain ⟨-, stands⟩ := (cut_pieces cs).places [] place listed
  exact ⟨place.after, (place.maximal stands isToken made).2⟩

/-- Every token is well formed and as long as possible. The tokens of a source, up to the one for
its end, are at the places of the token pieces in its only cut, one for each: each is the text that
stands there, and is maximal before the text behind it. -/
theorem tokens_maximal (source : String) :
    ∃ ps body stop, Cut source.toList ps ∧ (∀ ps', Cut source.toList ps' → ps' = ps) ∧
      (scan source).tokens = body ++ [stop] ∧ stop.kind = .eof ∧
      List.Forall₂ (fun place token =>
          place.before ++ token.lexeme.toList ++ place.after = source.toList ∧
          token.Maximal place.after)
        ((places [] ps).filter (·.piece.isToken)) body := by
  have cut := cut_pieces source.toList
  refine ⟨pieces source.toList, (scan source).body, (scan source).stop, cut, fun _ => cut_iff.1,
    rfl, rfl, ?_⟩
  have stand : ∀ place ∈ (places [] (pieces source.toList)).filter (·.piece.isToken),
      (place.before ++ place.piece.text ++ place.after = source.toList ∧
        place.piece.Stands place.after) ∧ place.piece.isToken = true := by
    intro place listed
    obtain ⟨listed, isToken⟩ := List.mem_filter.1 listed
    exact ⟨cut.places [] place listed, isToken⟩
  have both := (List.forall₂_and_left _ _).2 ⟨stand, tokens_of_places source.toList⟩
  refine both.imp ?_
  rintro place token ⟨⟨⟨text, stands⟩, isToken⟩, made⟩
  obtain ⟨lexeme, maximal⟩ := place.maximal stands isToken made
  rw [lexeme]
  exact ⟨text, maximal⟩

end LoxCheck
