import LoxCheck.Grammar.Expression

/-!
# The grammar of statements

    program     := declaration* EOF
    declaration := varDecl | statement
    varDecl     := "var" IDENTIFIER ("=" expression)? ";"
    statement   := "print" expression ";" | block | expression ";"
    block       := "{" declaration* "}"

A declaration that cannot be read is dropped, and the cursor moves on to the next statement
boundary. A block opens a level of nesting; one that is too deep is skipped through its closing
brace, which is a statement boundary already.
-/

namespace LoxCheck

/-- The declarations of a program or a block: those that could be read, the errors of all, and
where they ended. -/
structure Declarations where
  statements : List Stmt
  errors : List SyntaxError
  cursor : TokenCursor
  deriving Repr

namespace Parse

/-- An expression and the semicolon after it. -/
def expressionStatement (expression : Parse Expr) : Parse Stmt := do
  let expr ← expression
  let _ ← expect .semicolon .expectSemicolonAfterExpression
  pure (.expression expr)

/-- The rest of a print statement. -/
def printStatement (expression : Parse Expr) : Parse Stmt := do
  let expr ← expression
  let _ ← expect .semicolon .expectSemicolonAfterExpression
  pure (.print expr)

/-- What a variable starts with, if its declaration says it. -/
def initializer (expression : Parse Expr) : Parse (Option Expr) := do
  match ← takeIf [.equal] with
  | some _ => return some (← expression)
  | none => return none

/-- The rest of a variable declaration. -/
def varDeclaration (expression : Parse Expr) : Parse Stmt := do
  let name ← expect .identifier .expectVariableName
  let value ← initializer expression
  let _ ← expect .semicolon .expectSemicolonAfterDeclaration
  pure (.declaration name value)

/-- A statement that is no variable declaration. -/
def statementWith (expression : Parse Expr) (block : Parse Stmt) : Parse Stmt := do
  match ← takeIf [.kwPrint] with
  | some _ => printStatement expression
  | none =>
    match ← takeIf [.leftBrace] with
    | some _ => block
    | none => expressionStatement expression

/-- A step that moves on to a statement boundary if it has no result, unless a skipped block has
brought it to one. -/
def recovering (step : Parse Stmt) : Parse Stmt := fun c =>
  let o := step c
  match o.result with
  | some _ => o
  | none =>
    if o.cursor.endsSkipped c.position then o
    else { o with cursor := o.cursor.toBoundary c.position }

/-- A variable declaration or a statement. -/
def declarationWith (expression : Parse Expr) (block : Parse Stmt) : Parse Stmt :=
  recovering do
    match ← takeIf [.kwVar] with
    | some _ => varDeclaration expression
    | none => statementWith expression block

/-- Declarations up to a token of one of some kinds or the end. One declaration is read for each
token of `fuel`, so the tokens ahead are fuel enough. -/
def declarations (stops : List TokenKind) (declaration : Parse Stmt) :
    List Token → TokenCursor → Declarations
  | [], c => ⟨[], [], c⟩
  | _ :: fuel, c =>
    if c.atEnd || stops.contains c.current.kind then ⟨[], [], c⟩
    else
      let first := declaration c
      let others := declarations stops declaration fuel first.cursor
      ⟨first.result.toList ++ others.statements, first.errors ++ others.errors, others.cursor⟩

/-- The rest of a block, over the step for its declarations. -/
def blockWith (declaration : Parse Stmt) : Parse Stmt := fun c =>
  let body := declarations [.rightBrace] declaration c.ahead c
  let closing := expect .rightBrace .expectBraceAfterBlock body.cursor
  ⟨closing.result.map fun _ => .block body.statements, body.errors ++ closing.errors,
    closing.cursor⟩

/-- The rest of a block that is too deep. -/
def overdeepBlock : Parse Stmt := fun c =>
  { fail .tooMuchNesting c with cursor := c.skipBlock }

/-- The rest of a block, when `room` levels of nesting are left. -/
def block : Nat → TokenCursor → Outcome Stmt
  | 0, c => overdeepBlock c
  | room + 1, c => blockWith (declarationWith (expression room) (block room)) c

/-- A variable declaration or a statement, when `room` levels of nesting are left. -/
def declaration (room : Nat) : Parse Stmt := declarationWith (expression room) (block room)

/-- All declarations up to the end, when `room` levels of nesting are left. -/
def program (room : Nat) : TokenCursor → Declarations := fun c =>
  declarations [] (declaration room) c.ahead c

end Parse

end LoxCheck
