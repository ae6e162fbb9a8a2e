import LoxCheck.Token

/-!
# Diagnostics

Neither reading tokens nor reading statements stops at bad input: each problem becomes a value with
a line, and a caller sees all of them. Problems are causes; their wording is in
`LexicalProblem.message` and `SyntaxProblem.message`.
-/

namespace LoxCheck

/-- What can be wrong with the characters of a source text. -/
inductive LexicalProblem where
  | unexpected (c : Char)
  | unterminatedString
  | unterminatedComment
  /-- A problem in a caller's own words. -/
  | other (message : String)
  deriving DecidableEq, Repr

/-- The wording of a lexical problem. -/
def LexicalProblem.message : LexicalProblem → String
  | .unexpected c => s!"Unexpected character {Text.quoted (String.singleton c)}."
  | .unterminatedString => "Unterminated string."
  | .unterminatedComment => "Unterminated block comment."
  | .other message => message

/-- A lexical problem on a line. -/
structure LexicalError where
  line : Int
  problem : LexicalProblem
  deriving DecidableEq, Repr

/-- What can be wrong with the tokens of a program. -/
inductive SyntaxProblem where
  | expectVariableName
  | expectSemicolonAfterDeclaration
  | expectSemicolonAfterExpression
  | expectBraceAfterBlock
  | expectParenAfterExpression
  | expectExpression
  | invalidTarget
  | tooMuchNesting
  /-- A problem in a caller's own words. -/
  | other (message : String)
  deriving DecidableEq, Repr

/-- The wording of a syntax problem. -/
def SyntaxProblem.message : SyntaxProblem → String
  | .expectVariableName => "Expect variable name."
  | .expectSemicolonAfterDeclaration => "Expect ';' after variable declaration."
  | .expectSemicolonAfterExpression => "Expect ';' after expression."
  | .expectBraceAfterBlock => "Expect '\x7d' after block."
  | .expectParenAfterExpression => "Expect ')' after expression."
  | .expectExpression => "Expect expression."
  | .invalidTarget => "Invalid assignment target."
  | .tooMuchNesting => "Too much nesting."
  | .other message => message

/-- A syntax problem on a line, with the lexeme of the offending token unless that token is the
end of the input. -/
structure SyntaxError where
  line : Int
  problem : SyntaxProblem
  lexeme : Option String := none
  deriving DecidableEq, Repr

/-- The error of a problem at a token. -/
def SyntaxError.at (problem : SyntaxProblem) (token : Token) : SyntaxError :=
  ⟨token.line, problem, if token.kind = .eof then none else some token.lexeme⟩

/-- A problem found in a source text. -/
inductive Diagnostic where
  | general (line : Int) (message : String)
  | lexical (error : LexicalError)
  | grammatical (error : SyntaxError)
  deriving DecidableEq, Repr

namespace Diagnostic

/-- The line that a diagnostic is about. -/
def line : Diagnostic → Int
  | .general line _ => line
  | .lexical error => error.line
  | .grammatical error => error.line

/-- The wording of a diagnostic. -/
def message : Diagnostic → String
  | .general _ message => message
  | .lexical error => error.problem.message
  | .grammatical error => error.problem.message

/-- The name of a diagnostic's class. -/
def label : Diagnostic → String
  | .general .. => "Diagnostic"
  | .lexical _ => "LexError"
  | .grammatical _ => "ParseError"

/-- Where on the line a diagnostic stands; only the grammar's diagnostics say it. -/
def location : Diagnostic → String
  | .grammatical ⟨_, _, none⟩ => " at end of input"
  | .grammatical ⟨_, _, some lexeme⟩ => s!" at '{lexeme}'"
  | _ => ""

/-- A diagnostic as it is reported. -/
def text (d : Diagnostic) : String := s!"[line {d.line}] Error{d.location}: {d.message}"

/-- A diagnostic by its class and fields. -/
def describe (d : Diagnostic) : String :=
  let lexeme := match d with
    | .grammatical ⟨_, _, none⟩ => ", lexeme=None"
    | .grammatical ⟨_, _, some lexeme⟩ => s!", lexeme={Text.quoted lexeme}"
    | _ => ""
  s!"{d.label}(line={d.line}, message={Text.quoted d.message}{lexeme})"

/-- Equality of diagnostics: class, line, wording, and the lexeme where the class has one. -/
def same : Diagnostic → Diagnostic → Bool
  | .general line message, .general line' message' => line == line' && message == message'
  | .lexical a, .lexical b => a.line == b.line && a.problem.message == b.problem.message
  | .grammatical a, .grammatical b =>
    a.line == b.line && a.problem.message == b.problem.message && a.lexeme == b.lexeme
  | _, _ => false

end Diagnostic

end LoxCheck
