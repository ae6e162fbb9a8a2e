import LoxCheck.Diagnostic
import LoxCheck.Grammar.TokenCursor

/-!
# Parsing steps

A parsing step reads tokens from a cursor, records the errors it finds, and returns a result or
none. A step that has no result ends the steps that go on from it; the errors recorded by then and
the cursor stay. A step knows nothing of the errors recorded before it.
-/

namespace LoxCheck

/-- What a parsing step comes to: a result or none, the errors it recorded in order, and where it
ended. -/
structure Outcome (α : Type) where
  result : Option α
  errors : List SyntaxError
  cursor : TokenCursor
  deriving DecidableEq, Repr

/-- A parsing step. -/
def Parse (α : Type) : Type := TokenCursor → Outcome α

namespace Parse

/-- The step that reads nothing and has a result. -/
def done {α : Type} (a : α) : Parse α := fun c => ⟨some a, [], c⟩

/-- A step and then another that goes on from its result. -/
def andThen {α β : Type} (p : Parse α) (f : α → Parse β) : Parse β := fun c =>
  match p c with
  | ⟨none, errors, after⟩ => ⟨none, errors, after⟩
  | ⟨some a, errors, after⟩ =>
    let o := f a after
    { o with errors := errors ++ o.errors }

instance : Monad Parse where
  pure := done
  bind := andThen

/-- Records an error at a token. -/
def report (problem : SyntaxProblem) (token : Token) : Parse Unit := fun c =>
  ⟨some (), [SyntaxError.at problem token], c⟩

/-- Records an error at the current token and gives up. -/
def fail {α : Type} (problem : SyntaxProblem) : Parse α := fun c =>
  ⟨none, [SyntaxError.at problem c.current], c⟩

/-- Reads the current token if it is of one of some kinds. -/
def takeIf (kinds : List TokenKind) : Parse (Option Token) := fun c =>
  match c.ahead with
  | token :: _ =>
    if kinds.contains token.kind then ⟨some token, [], c.advance⟩ else ⟨some none, [], c⟩
  | [] => ⟨some none, [], c⟩

/-- Reads the current token, which has to be of a kind. -/
def expect (kind : TokenKind) (problem : SyntaxProblem) : Parse Token := do
  match ← takeIf [kind] with
  | some token => pure token
  | none => fail problem

end Parse

end LoxCheck
