import LoxCheck.Proofs.Procedures

/-!
# The grammar with a counter of levels

The grammar told change by change: a level of nesting is opened by the counter before an expression,
an operand or a block is read, and closed behind it, whether it could be read or not. Every step of
the grammar comes to what its procedure comes to, from every state, so the room that the steps are
computed with is what the counter leaves, and no level stays open.
-/

namespace LoxCheck

namespace Procedure

variable {α β : Type}

/-! ## Looking and moving -/

/-- The state as it is. -/
def state : Procedure ParseState := look finish

/-- A single change. -/
def perform (m : Move) : Procedure Unit := move m (finish ())

/-- Reads the current token, if it is not the end, and returns the token read last. -/
def advance : Procedure Token := do
  perform .advance
  return (← state).cursor.previous

/-- Reads the current token if it is of one of some kinds. -/
def takeIf (kinds : List TokenKind) : Procedure (Option Token) := do
  let p ← state
  if kinds.contains p.cursor.current.kind && !p.cursor.atEnd then return some (← advance)
  else return none

/-- Records an error at the current token and gives up. -/
def fail (problem : SyntaxProblem) : Procedure (Option α) := do
  let p ← state
  perform (.addError p.cursor.current problem)
  return none

/-- Reads the current token, which has to be of a kind. -/
def expect (kind : TokenKind) (problem : SyntaxProblem) : Procedure (Option Token) := do
  let p ← state
  if p.cursor.current.kind = kind then return some (← advance) else fail problem

/-- Opens a level of nesting, or reports that none is left. -/
def enter : Procedure Bool := do
  let p ← state
  perform .enter
  return p.enter.1

/-- Does something one level deeper and closes the level behind it, or does something else if the
limit does not allow that. -/
def nested (inner full : Procedure (Option α)) : Procedure (Option α) := do
  if ← enter then
    let result ← inner
    perform .leave
    return result
  else full

/-- How many blocks are open behind a token of a kind. -/
def openedAfter : TokenKind → Nat → Nat
  | .leftBrace, opened => opened + 1
  | .rightBrace, opened => opened - 1
  | _, opened => opened

/-- Reads tokens until no block is open. -/
def closeBlocks : List Token → Nat → Procedure Unit
  | [], _ => return ()
  | _ :: fuel, opened => do
    let p ← state
    if opened = 0 || p.cursor.atEnd then return ()
    else
      let token ← advance
      closeBlocks fuel (openedAfter token.kind opened)

/-- Discards the rest of a block and notes where it ended. -/
def skipBlock : Procedure Unit := do
  let p ← state
  closeBlocks p.cursor.ahead 1
  perform .note

/-- Reads tokens until a statement boundary is there. -/
def seekBoundary : List Token → Procedure Unit
  | [] => return ()
  | _ :: fuel => do
    let p ← state
    if p.cursor.atEnd || p.cursor.previous.kind = .semicolon ||
        p.cursor.current.kind.startsStatement then return ()
    else
      perform .advance
      seekBoundary fuel

/-- Discards tokens up to a statement boundary. If nothing was read since `start`, the current
token is discarded first. -/
def toBoundary (start : Int) : Procedure Unit := do
  let p ← state
  if p.cursor.position = start then perform .advance
  let q ← state
  seekBoundary q.cursor.ahead

/-! ## Expressions -/

/-- What follows the left operand of a chain of binary operators. -/
def binaryTail (operators : List TokenKind) (operand : Procedure (Option Expr)) :
    List Token → Expr → Procedure (Option Expr)
  | [], left => return some left
  | _ :: fuel, left => do
    match ← takeIf operators with
    | none => return some left
    | some operator =>
      match ← operand with
      | none => return none
      | some right => binaryTail operators operand fuel (.binary left operator right)

/-- A chain of binary operators of one level. -/
def binaryLevel (operators : List TokenKind) (operand : Procedure (Option Expr)) :
    Procedure (Option Expr) := do
  match ← operand with
  | none => return none
  | some left =>
    let p ← state
    binaryTail operators operand p.cursor.ahead left

/-- Multiplication and division. -/
def factor (unary : Procedure (Option Expr)) : Procedure (Option Expr) :=
  binaryLevel [.slash, .star] unary

/-- Addition and subtraction. -/
def term (unary : Procedure (Option Expr)) : Procedure (Option Expr) :=
  binaryLevel [.minus, .plus] (factor unary)

/-- Comparison of order. -/
def comparison (unary : Procedure (Option Expr)) : Procedure (Option Expr) :=
  binaryLevel [.greater, .greaterEqual, .less, .lessEqual] (term unary)

/-- Comparison for equality. -/
def equality (unary : Procedure (Option Expr)) : Procedure (Option Expr) :=
  binaryLevel [.bangEqual, .equalEqual] (comparison unary)

/-- An assignment, or an equality. -/
def assignmentWith (unary expression : Procedure (Option Expr)) : Procedure (Option Expr) := do
  match ← equality unary with
  | none => return none
  | some target =>
    match ← takeIf [.equal] with
    | none => return some target
    | some equals =>
      match ← expression with
      | none => return none
      | some value =>
        match target with
        | .reference name => return some (.assign name value)
        | _ =>
          perform (.addError equals .invalidTarget)
          return some target

/-- A literal, a name, or an expression in parentheses. -/
def primaryWith (expression : Procedure (Option Expr)) : Procedure (Option Expr) := do
  match ← takeIf [.kwFalse] with
  | some _ => return some (.literal (.boolean false))
  | none => match ← takeIf [.kwTrue] with
  | some _ => return some (.literal (.boolean true))
  | none => match ← takeIf [.kwNil] with
  | some _ => return some (.literal .nil)
  | none => match ← takeIf [.number, .string] with
  | some token => return some (.literal token.literal)
  | none => match ← takeIf [.identifier] with
  | some name => return some (.reference name)
  | none => match ← takeIf [.leftParen] with
  | none => fail .expectExpression
  | some _ =>
    match ← expression with
    | none => return none
    | some inner =>
      match ← expect .rightParen .expectParenAfterExpression with
      | none => return none
      | some _ => return some (.grouping inner)

/-- A unary operator with its operand, or a primary expression. -/
def unaryWith (operand expression : Procedure (Option Expr)) : Procedure (Option Expr) := do
  match ← takeIf [.bang, .minus] with
  | none => primaryWith expression
  | some operator =>
    match ← operand with
    | none => return none
    | some right => return some (.unary operator right)

/-- Does something one level deeper, or gives up. -/
def guarded (inner : Procedure (Option α)) : Procedure (Option α) := nested inner (return none)

mutual

/-- An expression, when `levels` more levels can be opened. -/
def expression : Nat → Procedure (Option Expr)
  | 0 => guarded (return none)
  | levels + 1 => guarded (assignmentWith (unary levels) (expression levels))

/-- A unary expression, when `levels` more levels can be opened. -/
def unary : Nat → Procedure (Option Expr)
  | 0 => unaryWith (guarded (return none)) (guarded (return none))
  | levels + 1 =>
    unaryWith (guarded (unary levels)) (guarded (assignmentWith (unary levels) (expression levels)))

end

/-! ## Statements -/

/-- An expression and the semicolon after it, made into a statement. -/
def terminated (make : Expr → Stmt) (expression : Procedure (Option Expr)) :
    Procedure (Option Stmt) := do
  match ← expression with
  | none => return none
  | some expr =>
    match ← expect .semicolon .expectSemicolonAfterExpression with
    | none => return none
    | some _ => return some (make expr)

/-- What a variable starts with, if its declaration says it. -/
def initializer (expression : Procedure (Option Expr)) : Procedure (Option (Option Expr)) := do
  match ← takeIf [.equal] with
  | none => return some none
  | some _ =>
    match ← expression with
    | none => return none
    | some value => return some (some value)

/-- The rest of a variable declaration. -/
def varDeclaration (expression : Procedure (Option Expr)) : Procedure (Option Stmt) := do
  match ← expect .identifier .expectVariableName with
  | none => return none
  | some name =>
    match ← initializer expression with
    | none => return none
    | some value =>
      match ← expect .semicolon .expectSemicolonAfterDeclaration with
      | none => return none
      | some _ => return some (.declaration name value)

/-- A statement that is no variable declaration. -/
def statementWith (expression : Procedure (Option Expr)) (block : Procedure (Option Stmt)) :
    Procedure (Option Stmt) := do
  match ← takeIf [.kwPrint] with
  | some _ => terminated .print expression
  | none =>
    match ← takeIf [.leftBrace] with
    | some _ => block
    | none => terminated .expression expression

/-- Moves on to a statement boundary if there is no result, unless a skipped block has brought the
parse to one. -/
def recovering (step : Procedure (Option Stmt)) : Procedure (Option Stmt) := do
  let before ← state
  let result ← step
  let after ← state
  if result.isNone && !after.cursor.endsSkipped before.cursor.position then
    toBoundary before.cursor.position
  return result

/-- A variable declaration or a statement. -/
def declarationWith (expression : Procedure (Option Expr)) (block : Procedure (Option Stmt)) :
    Procedure (Option Stmt) :=
  recovering do
    match ← takeIf [.kwVar] with
    | some _ => varDeclaration expression
    | none => statementWith expression block

/-- Declarations up to a token of one of some kinds or the end. -/
def declarations (stops : List TokenKind) (declaration : Procedure (Option Stmt)) :
    List Token → Procedure (List Stmt)
  | [] => return []
  | _ :: fuel => do
    let p ← state
    if p.cursor.atEnd || stops.contains p.cursor.current.kind then return []
    else
      let first ← declaration
      let others ← declarations stops declaration fuel
      return first.toList ++ others

/-- The declarations of a block. -/
def body (declaration : Procedure (Option Stmt)) : Procedure (Option (List Stmt)) := do
  let p ← state
  return some (← declarations [.rightBrace] declaration p.cursor.ahead)

/-- The declarations of a block, one level deeper, and then its closing brace. A block that is too
deep is skipped. -/
def blockWith (declaration : Procedure (Option Stmt)) : Procedure (Option Stmt) := do
  let skipped : Procedure (Option (List Stmt)) := do
    skipBlock
    return none
  match ← nested (body declaration) skipped with
  | none => return none
  | some statements =>
    match ← expect .rightBrace .expectBraceAfterBlock with
    | none => return none
    | some _ => return some (.block statements)

/-- The rest of a block, when `levels` more levels can be opened. -/
def block : Nat → Procedure (Option Stmt)
  | 0 => blockWith (return none)
  | levels + 1 => blockWith (declarationWith (expression levels) (block levels))

/-- A variable declaration or a statement, when `levels` more levels can be opened. -/
def declaration (levels : Nat) : Procedure (Option Stmt) :=
  declarationWith (expression levels) (block levels)

/-- All declarations up to the end, when `levels` more levels can be opened. -/
def program (levels : Nat) : Procedure (List Stmt) := do
  let p ← state
  declarations [] (declaration levels) p.cursor.ahead

end Procedure

end LoxCheck
