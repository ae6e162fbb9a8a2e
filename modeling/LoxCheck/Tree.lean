import LoxCheck.Token

/-!
# Syntax trees

Expressions and statements as the grammar builds them. Trees keep the tokens of their names and
operators, which say where they came from.

Comparing two trees and describing one go down them by nested calls. The room that a process has for
these is not part of the definitions, which come to an answer on trees of any depth.
-/

namespace LoxCheck

/-- An expression. -/
inductive Expr where
  | literal (value : Value)
  | grouping (inner : Expr)
  | unary (operator : Token) (operand : Expr)
  | binary (left : Expr) (operator : Token) (right : Expr)
  | reference (name : Token)
  | assign (name : Token) (value : Expr)
  deriving DecidableEq, Repr, Inhabited

/-- A statement. -/
inductive Stmt where
  | expression (expr : Expr)
  | print (expr : Expr)
  | declaration (name : Token) (initializer : Option Expr)
  | block (statements : List Stmt)
  deriving Repr

/-- Items between parentheses; a single item is followed by a comma. -/
def describeItems : List String → String
  | [item] => s!"({item},)"
  | items => "(" ++ ", ".intercalate items ++ ")"

/-- Items between brackets. -/
def describeList (items : List String) : String := "[" ++ ", ".intercalate items ++ "]"

namespace Expr

/-- Structural equality of expressions, literals by type and value. -/
def same : Expr → Expr → Bool
  | .literal a, .literal b => a.same b
  | .grouping a, .grouping b => a.same b
  | .unary o a, .unary o' a' => o.same o' && a.same a'
  | .binary l o r, .binary l' o' r' => l.same l' && o.same o' && r.same r'
  | .reference n, .reference n' => n.same n'
  | .assign n v, .assign n' v' => n.same n' && v.same v'
  | _, _ => false

/-- The tag of an expression's variant. -/
def tag : Expr → String
  | .literal _ => "literal"
  | .grouping _ => "grouping"
  | .unary .. => "unary"
  | .binary .. => "binary"
  | .reference _ => "variable"
  | .assign .. => "assign"

/-- An expression by its variants and fields. -/
def describe : Expr → String
  | .literal value => s!"Literal(value={value.describe})"
  | .grouping inner => s!"Grouping(inner={inner.describe})"
  | .unary operator operand =>
    s!"Unary(operator={operator.describe}, operand={operand.describe})"
  | .binary left operator right =>
    s!"Binary(left={left.describe}, operator={operator.describe}, right={right.describe})"
  | .reference name => s!"Variable(name={name.describe})"
  | .assign name value => s!"Assign(name={name.describe}, value={value.describe})"

end Expr

namespace Stmt

mutual

/-- Structural equality of statements. -/
def same : Stmt → Stmt → Bool
  | .expression a, .expression b => a.same b
  | .print a, .print b => a.same b
  | .declaration n none, .declaration n' none => n.same n'
  | .declaration n (some v), .declaration n' (some v') => n.same n' && v.same v'
  | .block a, .block b => allSame a b
  | _, _ => false

/-- Structural equality of statement lists. -/
def allSame : List Stmt → List Stmt → Bool
  | [], [] => true
  | a :: as, b :: bs => same a b && allSame as bs
  | _, _ => false

end

/-- The tag of a statement's variant. -/
def tag : Stmt → String
  | .expression _ => "expression"
  | .print _ => "print"
  | .declaration .. => "var"
  | .block _ => "block"

mutual

/-- A statement by its variants and fields. -/
def describe : Stmt → String
  | .expression expr => s!"ExpressionStatement(expr={expr.describe})"
  | .print expr => s!"PrintStatement(expr={expr.describe})"
  | .declaration name none => s!"VarDeclaration(name={name.describe}, initializer=None)"
  | .declaration name (some value) =>
    s!"VarDeclaration(name={name.describe}, initializer={value.describe})"
  | .block statements => s!"Block(statements={describeItems (describeAll statements)})"

/-- The statements of a block, each by its variants and fields. -/
def describeAll : List Stmt → List String
  | [] => []
  | statement :: rest => describe statement :: describeAll rest

end

end Stmt

/-- A node of a syntax tree. -/
inductive Node where
  | expression (expr : Expr)
  | statement (stmt : Stmt)
  deriving Repr

namespace Node

/-- Structural equality of nodes; an expression is never a statement. -/
def same : Node → Node → Bool
  | .expression a, .expression b => a.same b
  | .statement a, .statement b => a.same b
  | _, _ => false

/-- A node by its variants and fields. -/
def describe : Node → String
  | .expression expr => expr.describe
  | .statement stmt => stmt.describe

end Node

/-- A token that stands where a node is wanted. -/
structure NotANode where
  token : Token
  deriving DecidableEq, Repr

/-- The report of a token that is no node. -/
def NotANode.message (fault : NotANode) : String := s!"Not an AST node: {fault.token.describe}"

end LoxCheck
