import LoxCheck.Diagnostic
import LoxCheck.Lexical.Piece

/-!
# Scanning

`scan` turns a source text into tokens and lexical errors, both in source order. Every piece of the
text stands on the line it starts on; a piece is a token, an error, or neither. The tokens end with
one token for the end of the source, on the last line.
-/

namespace LoxCheck

/-- The number of line feeds in a text. -/
def lineFeeds (text : List Char) : Nat := text.count '\n'

/-- Pieces with the lines they start on, the first of them on a given line. -/
def numbered (line : Int) : List Piece → List (Int × Piece)
  | [] => []
  | piece :: rest => (line, piece) :: numbered (line + lineFeeds piece.text) rest

namespace Piece

/-- The token that a piece on a line is. -/
def token? (line : Int) (piece : Piece) : Option Token :=
  let make (kind : TokenKind) (literal : Value) : Option Token :=
    some ⟨kind, String.ofList piece.text, literal, line⟩
  match piece with
  | .symbol kind => make kind .nil
  | .word text => make (.ofWord text) .nil
  | .number whole fraction => make .number (.number (Numeral.plain whole fraction))
  | .string content => make .string (.text (String.ofList content))
  | _ => none

/-- The error that a piece on a line is. What nothing closes is reported on the line where the
source ends. -/
def error? (line : Int) (piece : Piece) : Option LexicalError :=
  match piece with
  | .stray c => some ⟨line, .unexpected c⟩
  | .openString _ => some ⟨line + lineFeeds piece.text, .unterminatedString⟩
  | .openComment _ => some ⟨line + lineFeeds piece.text, .unterminatedComment⟩
  | _ => none

end Piece

/-- What a source text reads as: its tokens, the token for its end, and the lexical errors. -/
structure Scan where
  body : List Token
  stop : Token
  errors : List LexicalError
  deriving DecidableEq, Repr

/-- All tokens, the one for the end of the source last. -/
def Scan.tokens (s : Scan) : List Token := s.body ++ [s.stop]

/-- The token for the end of a source that ends on a line. -/
def Token.endOfSource (line : Int) : Token := ⟨.eof, "", .nil, line⟩

/-- The scan of characters that start on a line. -/
def scanFrom (line : Int) (cs : List Char) : Scan :=
  let cut := numbered line (pieces cs)
  { body := cut.filterMap fun p => p.2.token? p.1
    stop := .endOfSource (line + lineFeeds cs)
    errors := cut.filterMap fun p => p.2.error? p.1 }

/-- The scan of a source text. -/
def scan (source : String) : Scan := scanFrom 1 source.toList

theorem TokenKind.ofWord_ne_eof (word : List Char) : TokenKind.ofWord word ≠ .eof := by
  have reserved : ∀ kind ∈ TokenKind.keywords, kind ≠ .eof := by decide
  unfold TokenKind.ofWord
  cases h : TokenKind.keywords.find? fun kind => kind.spelling == word with
  | none => simp
  | some kind => exact reserved kind (List.mem_of_find?_eq_some h)

theorem Piece.kind_ne_eof_of_token? {line : Int} {piece : Piece} {token : Token}
    (nonempty : piece.text ≠ []) (h : piece.token? line = some token) : token.kind ≠ .eof := by
  cases piece <;> simp only [Piece.token?, Option.some.injEq, reduceCtorEq] at h
  case symbol kind =>
    subst h
    rintro rfl
    exact nonempty rfl
  case word text =>
    subst h
    exact TokenKind.ofWord_ne_eof text
  all_goals simp [← h]

theorem mem_pieces_of_mem_numbered {line : Int} {ps : List Piece} {p : Int × Piece}
    (h : p ∈ numbered line ps) : p.2 ∈ ps := by
  induction ps generalizing line with
  | nil => simp [numbered] at h
  | cons piece rest ih =>
    rcases List.mem_cons.1 h with rfl | h
    · simp
    · exact List.mem_cons_of_mem _ (ih h)

/-- Only the last token stands for the end of the source. -/
theorem kind_ne_eof_of_mem_scanFrom {line : Int} {cs : List Char} {token : Token}
    (h : token ∈ (scanFrom line cs).body) : token.kind ≠ .eof := by
  obtain ⟨p, listed, read⟩ := List.mem_filterMap.1 h
  exact Piece.kind_ne_eof_of_token?
    (text_ne_nil_of_mem_pieces (mem_pieces_of_mem_numbered listed)) read

end LoxCheck
