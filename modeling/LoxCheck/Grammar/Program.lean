import LoxCheck.Grammar.Statement

/-!
# Programs

`parse` turns a token sequence into statements in source order and syntax errors in the order in
which they are found. A sequence has to end with an end-of-source token.

Reading nested expressions and blocks takes nested calls, which the limit of nesting bounds. With
the default limit they are few. The room that a process has for them is not part of the definitions:
`parse` reads to the end under every limit, also one that a caller raises beyond that room.
-/

namespace LoxCheck

/-- The default limit of nesting. Expressions, unary operators and blocks each count one level. -/
def defaultMaxDepth : Int := 64

/-- The levels of nesting that are left under a limit. -/
def room (maxDepth depth : Int) : Nat := (maxDepth - depth).toNat

/-- Why a token sequence cannot be parsed at all. -/
inductive SequenceFault where
  | missingEnd
  deriving DecidableEq, Repr

/-- The wording of a sequence fault. -/
def SequenceFault.message : SequenceFault → String
  | .missingEnd => "Token sequence must end with an EOF token"

/-- The statements of a token sequence and its syntax errors, under a limit of nesting. -/
def parse (tokens : List Token) (maxDepth : Int := defaultMaxDepth) :
    Except SequenceFault Declarations :=
  match TokenCursor.ofTokens? tokens with
  | some start => .ok (Parse.program (room maxDepth 0) start)
  | none => .error .missingEnd

end LoxCheck
