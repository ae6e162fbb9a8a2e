import LoxCheck.Lexical.Cursor

/-!
# Scanning step by step

A scan in progress holds a cursor with the tokens and errors found so far. Each step reads one form
of piece from the cursor. A token's lexeme reaches back to the last mark, so a caller that marks
before every step reads the pieces of the source one by one; `ScanState.readAll` does that for all
that is left.

A step can fail in two ways, and keeps what it has read by then.
-/

namespace LoxCheck

/-- Why a scanning step failed. -/
inductive ScanFault where
  | endOfSource (position : Nat) (line : Int)
  | notANumber (lexeme : String)
  deriving DecidableEq, Repr

/-- The wording of a failure. -/
def ScanFault.message : ScanFault → String
  | .endOfSource position line =>
    s!"Attempted to read past end of source at position=<{position}>, line=<{line}>"
  | .notANumber lexeme => s!"could not convert string to float: {Text.quoted lexeme}"

/-- The failure of a cursor that has nothing left to read. -/
def Cursor.fault (c : Cursor) : ScanFault := .endOfSource c.position c.line

/-- A scan in progress. -/
structure ScanState where
  cursor : Cursor
  tokens : List Token := []
  errors : List LexicalError := []
  deriving DecidableEq, Repr

namespace ScanState

/-- A scan at the start of a source. -/
def ofSource (source : String) : ScanState := { cursor := .ofSource source.toList 0 1 }

/-- Reads a number of characters. -/
def skip (count : Nat) (s : ScanState) : ScanState := { s with cursor := s.cursor.skip count }

/-- The current lexeme. -/
def lexeme (s : ScanState) : String := String.ofList s.cursor.lexeme

/-- Adds the current lexeme as a token. -/
def addToken (kind : TokenKind) (literal : Value) (line : Int) (s : ScanState) : ScanState :=
  { s with tokens := s.tokens ++ [⟨kind, s.lexeme, literal, line⟩] }

/-- Adds an error. -/
def addError (problem : LexicalProblem) (line : Int) (s : ScanState) : ScanState :=
  { s with errors := s.errors ++ [⟨line, problem⟩] }

/-- Adds the current lexeme as a keyword or an identifier. -/
def addWord (line : Int) (s : ScanState) : ScanState :=
  s.addToken (.ofWord s.cursor.lexeme) .nil line

/-- Adds the current lexeme as a string. -/
def addString (line : Int) (s : ScanState) : ScanState :=
  s.addToken .string (.text (String.ofList (s.cursor.lexeme.drop 1).dropLast)) line

/-- Adds the current lexeme as a number, if it is one. -/
def addNumber (line : Int) (s : ScanState) : Option ScanFault × ScanState :=
  match Numeral.read? s.cursor.lexeme with
  | some value => (none, s.addToken .number (.number value) line)
  | none => (some (.notANumber s.lexeme), s)

/-- Reads one piece. -/
def readPiece (s : ScanState) : Option ScanFault × ScanState :=
  match s.cursor.rest with
  | [] => (some s.cursor.fault, s)
  | c :: rest =>
    let line := s.cursor.line
    let piece := (Piece.next c rest).1
    let after := s.skip piece.text.length
    match piece with
    | .symbol kind => (none, after.addToken kind .nil line)
    | .word _ => (none, after.addWord line)
    | .number .. => after.addNumber line
    | .string _ => (none, after.addString line)
    | .stray c => (none, after.addError (.unexpected c) line)
    | .openString _ => (none, after.addError .unterminatedString after.cursor.line)
    | .openComment _ => (none, after.addError .unterminatedComment after.cursor.line)
    | .blank _ | .lineComment _ | .blockComment _ => (none, after)

/-- Reads all pieces that are left, marking before each, and adds the end of the source. -/
def readAll (s : ScanState) : ScanState :=
  let read := scanFrom s.cursor.line s.cursor.rest
  { cursor := (pieces s.cursor.rest).foldl (fun c piece => c.mark.skip piece.text.length) s.cursor
    tokens := s.tokens ++ read.tokens
    errors := s.errors ++ read.errors }

/-- Reads the rest of a line comment. -/
def readLineComment (s : ScanState) : ScanState :=
  s.skip (s.cursor.rest.takeWhile (· ≠ '\n')).length

/-- Reads the rest of a block comment. -/
def readBlockComment (s : ScanState) : ScanState :=
  match Piece.closeComment 0 [] s.cursor.rest with
  | some (body, _) => s.skip body.length
  | none =>
    let after := s.skip s.cursor.rest.length
    after.addError .unterminatedComment after.cursor.line

/-- Reads the rest of a string that started on a line. -/
def readString (line : Int) (s : ScanState) : ScanState :=
  match Piece.afterQuote s.cursor.rest with
  | (.string content, _) => (s.skip (content.length + 1)).addString line
  | _ =>
    let after := s.skip s.cursor.rest.length
    after.addError .unterminatedString after.cursor.line

/-- Reads the rest of a number that started on a line. -/
def readNumber (line : Int) (s : ScanState) : Option ScanFault × ScanState :=
  let (digits, fraction, _) := Piece.numberTail s.cursor.rest
  (s.skip (Piece.number digits fraction).text.length).addNumber line

/-- Reads the rest of a word that started on a line. -/
def readWord (line : Int) (s : ScanState) : ScanState :=
  (s.skip (s.cursor.rest.takeWhile Piece.isWordChar).length).addWord line

end ScanState

end LoxCheck
