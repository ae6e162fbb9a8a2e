import LoxCheck.Document
import LoxCheck.Tree

/-!
# Trees as documents

A node becomes a record that starts with the tag of its variant. Names and operators keep kind,
lexeme and line.

Trees are made documents from the inside out, by a call for each node inside of the call for the
node around it. How many calls are open at once is part of the account, because a process has room
for so many only: a sum without any nesting is as deep as it is long.
-/

namespace LoxCheck

/-- A token as a record of its kind, lexeme and line. -/
def Token.toDocument (t : Token) : Document :=
  .record [("type", .text t.kind.name), ("lexeme", .text t.lexeme), ("line", .integer t.line)]

/-- A literal's value as a scalar. -/
def Value.toDocument : Value → Document
  | .nil => .null
  | .boolean value => .boolean value
  | .number value => .number value
  | .text value => .text value

/-- An expression as a record. -/
def Expr.toDocument (expr : Expr) : Document :=
  let fields := match expr with
    | .literal value => [("value", value.toDocument)]
    | .grouping inner => [("inner", inner.toDocument)]
    | .unary operator operand =>
      [("operator", operator.toDocument), ("operand", operand.toDocument)]
    | .binary left operator right =>
      [("left", left.toDocument), ("operator", operator.toDocument), ("right", right.toDocument)]
    | .reference name => [("name", name.toDocument)]
    | .assign name value => [("name", name.toDocument), ("value", value.toDocument)]
  .record (("kind", .text expr.tag) :: fields)

namespace Stmt

mutual

/-- A statement as a record. -/
def toDocument (stmt : Stmt) : Document :=
  let fields := match stmt with
    | .expression expr => [("expr", expr.toDocument)]
    | .print expr => [("expr", expr.toDocument)]
    | .declaration name none => [("name", name.toDocument), ("initializer", .null)]
    | .declaration name (some value) =>
      [("name", name.toDocument), ("initializer", value.toDocument)]
    | .block statements => [("statements", .list (allToDocuments statements))]
  .record (("kind", .text stmt.tag) :: fields)

/-- The statements of a block, each as a record. -/
def allToDocuments : List Stmt → List Document
  | [] => []
  | stmt :: rest => toDocument stmt :: allToDocuments rest

end

end Stmt

/-! ## Open calls -/

/-- How many calls are open at once while an expression is made a document. A literal and a name are
looked at by a call inside of their own. -/
def Expr.calls : Expr → Nat
  | .literal _ | .reference _ => 2
  | .grouping inner => inner.calls + 1
  | .unary _ operand => operand.calls + 1
  | .binary left _ right => max left.calls right.calls + 1
  | .assign _ value => value.calls + 1

namespace Stmt

mutual

/-- How many calls are open at once while a statement is made a document. -/
def calls : Stmt → Nat
  | .expression expr | .print expr => expr.calls + 1
  | .declaration _ none => 2
  | .declaration _ (some value) => value.calls + 1
  | .block statements => allCalls statements + 1

/-- How many calls are open at once while statements are made a list: one for the list, one that
goes through it, and those of a statement. -/
def allCalls : List Stmt → Nat
  | [] => 2
  | stmt :: rest => max (stmt.calls + 2) (allCalls rest)

end

end Stmt

/-! ## Programs and nodes -/

/-- A program as the list of its statements. -/
def programDocument (statements : List Stmt) : Document :=
  .list (Stmt.allToDocuments statements)

/-- A node as a record. -/
def Node.toDocument : Node → Document
  | .expression expr => expr.toDocument
  | .statement stmt => stmt.toDocument

end LoxCheck
