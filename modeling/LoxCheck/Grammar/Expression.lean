import LoxCheck.Grammar.Parse
import LoxCheck.Tree

/-!
# The grammar of expressions

    expression := assignment
    assignment := (IDENTIFIER "=" expression) | equality
    equality   := comparison (("!=" | "==") comparison)*
    comparison := term ((">" | ">=" | "<" | "<=") term)*
    term       := factor (("-" | "+") factor)*
    factor     := unary (("/" | "*") unary)*
    unary      := ("!" | "-") unary | primary
    primary    := NUMBER | STRING | "true" | "false" | "nil" | IDENTIFIER | "(" expression ")"

The levels from assignment to factor are steps over the step for their operands. An expression and
the operand of a unary operator each open one level of nesting, so the grammar is a recursion on
the `room` that the nesting limit leaves.
-/

namespace LoxCheck

namespace Parse

/-- What follows the left operand of a chain of binary operators, folded to the left. One operator
is read for each token of `fuel`, so the tokens ahead are fuel enough. -/
def binaryTail (operators : List TokenKind) (operand : Parse Expr) :
    List Token → Expr → Parse Expr
  | [], left => pure left
  | _ :: fuel, left => do
    match ← takeIf operators with
    | none => pure left
    | some operator =>
      let right ← operand
      binaryTail operators operand fuel (.binary left operator right)

/-- A chain of binary operators of one level. -/
def binaryLevel (operators : List TokenKind) (operand : Parse Expr) : Parse Expr :=
  operand.andThen fun left c => binaryTail operators operand c.ahead left c

/-- Multiplication and division. -/
def factor (unary : Parse Expr) : Parse Expr := binaryLevel [.slash, .star] unary

/-- Addition and subtraction. -/
def term (unary : Parse Expr) : Parse Expr := binaryLevel [.minus, .plus] (factor unary)

/-- Comparison of order. -/
def comparison (unary : Parse Expr) : Parse Expr :=
  binaryLevel [.greater, .greaterEqual, .less, .lessEqual] (term unary)

/-- Comparison for equality. -/
def equality (unary : Parse Expr) : Parse Expr :=
  binaryLevel [.bangEqual, .equalEqual] (comparison unary)

/-- An assignment, or an equality. The target is read as an equality first; if it is not a name,
the error is reported after the value is read, and the target alone is the result. -/
def assignmentWith (unary expression : Parse Expr) : Parse Expr := do
  let target ← equality unary
  match ← takeIf [.equal] with
  | none => pure target
  | some equals =>
    let value ← expression
    match target with
    | .reference name => pure (.assign name value)
    | _ =>
      report .invalidTarget equals
      pure target

/-- A literal, a name, or an expression in parentheses. -/
def primaryWith (expression : Parse Expr) : Parse Expr := fun c =>
  match c.ahead with
  | [] => fail .expectExpression c
  | token :: _ =>
    match token.kind with
    | .kwFalse => done (.literal (.boolean false)) c.advance
    | .kwTrue => done (.literal (.boolean true)) c.advance
    | .kwNil => done (.literal .nil) c.advance
    | .number | .string => done (.literal token.literal) c.advance
    | .identifier => done (.reference token) c.advance
    | .leftParen =>
      let inParens : Parse Expr := do
        let inner ← expression
        let _ ← expect .rightParen .expectParenAfterExpression
        pure (.grouping inner)
      inParens c.advance
    | _ => fail .expectExpression c

/-- A unary operator with its operand, or a primary expression. -/
def unaryWith (operand expression : Parse Expr) : Parse Expr := do
  match ← takeIf [.bang, .minus] with
  | some operator => pure (.unary operator (← operand))
  | none => primaryWith expression

mutual

/-- An expression, when `room` levels of nesting are left. -/
def expression : Nat → TokenCursor → Outcome Expr
  | 0, c => fail .tooMuchNesting c
  | room + 1, c => assignmentWith (unary room) (expression room) c

/-- A unary expression, when `room` levels of nesting are left. -/
def unary : Nat → TokenCursor → Outcome Expr
  | 0, c => unaryWith (fail .tooMuchNesting) (fail .tooMuchNesting) c
  | room + 1, c =>
    unaryWith (unary room) (fun c => assignmentWith (unary room) (expression room) c) c

end

/-- The operand of a unary operator, which opens a level of nesting. -/
def operand : Nat → Parse Expr
  | 0 => fail .tooMuchNesting
  | room + 1 => unary room

theorem unary_eq (room : Nat) (c : TokenCursor) :
    unary room c = unaryWith (operand room) (expression room) c := by
  cases room <;> rfl

end Parse

end LoxCheck
