import LoxCheck.Grammar.Program

/-!
# Parsing step by step

A parse in progress holds a cursor, the level of nesting and the errors found so far. Each step of
the grammar can be run on it alone, and so can the moves that the steps are made of.
-/

namespace LoxCheck

/-- A parse in progress. -/
structure ParseState where
  cursor : TokenCursor
  maxDepth : Int := defaultMaxDepth
  depth : Nat := 0
  errors : List SyntaxError := []
  deriving DecidableEq, Repr

namespace ParseState

/-- A parse at the start of a token sequence. -/
def ofTokens (tokens : List Token) (maxDepth : Int) : Except SequenceFault ParseState :=
  match TokenCursor.ofTokens? tokens with
  | some cursor => .ok { cursor, maxDepth }
  | none => .error .missingEnd

/-- The levels of nesting that are left. -/
def room (p : ParseState) : Nat := LoxCheck.room p.maxDepth p.depth

/-- Runs a step of the grammar. -/
def run {α : Type} (step : Parse α) (p : ParseState) : Option α × ParseState :=
  let o := step p.cursor
  (o.result, { p with cursor := o.cursor, errors := p.errors ++ o.errors })

/-- Reads the current token, if it is not the end, and returns the token read last. -/
def advance (p : ParseState) : Token × ParseState :=
  let cursor := p.cursor.advance
  (cursor.previous, { p with cursor })

/-- Reads the current token if it is of one of some kinds. -/
def takeIf (kinds : List TokenKind) (p : ParseState) : Option Token × ParseState :=
  let (token, after) := p.run (Parse.takeIf kinds)
  (token.join, after)

/-- Records an error at a token. -/
def addError (token : Token) (problem : SyntaxProblem) (p : ParseState) : ParseState :=
  { p with errors := p.errors ++ [SyntaxError.at problem token] }

/-- Reads the current token, which has to be of a kind. The end is not read: where it is asked for
and found, the token read last is returned. -/
def expect (kind : TokenKind) (problem : SyntaxProblem) (p : ParseState) :
    Option Token × ParseState :=
  if p.cursor.current.kind = kind then
    let (token, after) := p.advance
    (some token, after)
  else (none, p.addError p.cursor.current problem)

/-- Opens a level of nesting, or reports that none is left. -/
def enter (p : ParseState) : Bool × ParseState :=
  if p.maxDepth ≤ p.depth then (false, p.addError p.cursor.current .tooMuchNesting)
  else (true, { p with depth := p.depth + 1 })

/-- Discards the rest of a block. -/
def skipBlock (p : ParseState) : ParseState := { p with cursor := p.cursor.skipBlock }

/-- Discards tokens up to a statement boundary. -/
def toBoundary (start : Int) (p : ParseState) : ParseState :=
  { p with cursor := p.cursor.toBoundary start }

/-- Reads all declarations up to the end. -/
def program (p : ParseState) : List Stmt × ParseState :=
  let d := Parse.program p.room p.cursor
  (d.statements, { p with cursor := d.cursor, errors := p.errors ++ d.errors })

end ParseState

end LoxCheck
