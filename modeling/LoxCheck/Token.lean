import LoxCheck.Token.Kind
import LoxCheck.Token.Value

/-!
# Tokens

A token is a kind with the text it was read from, the value it denotes and the line it starts on.
-/

namespace LoxCheck

/-- A lexical token. Only numbers and strings read from source text carry a value. -/
structure Token where
  kind : TokenKind
  lexeme : String
  literal : Value := .nil
  /-- The line that the token starts on, counted from one. -/
  line : Int := 1
  deriving DecidableEq, Repr

namespace Token

/-- Equality of tokens in all four parts. -/
def same (a b : Token) : Bool :=
  a.kind == b.kind && a.lexeme == b.lexeme && a.literal.alike b.literal && a.line == b.line

/-- A token on one line, as it stands in descriptions of trees. -/
def describe (t : Token) : String :=
  s!"Token({t.kind.name}, {Text.quoted t.lexeme}, {t.literal.describe}, line={t.line})"

/-- A text filled with spaces on the left to a width. -/
def padLeft (width : Nat) (text : List Char) : List Char :=
  List.replicate (width - text.length) ' ' ++ text

/-- A text filled with spaces on the right to a width. -/
def padRight (width : Nat) (text : List Char) : List Char :=
  text ++ List.replicate (width - text.length) ' '

/-- A token as one line of a dump: line number, kind, quoted lexeme, and the literal if there is
one. -/
def dumpChars (t : Token) : List Char :=
  padLeft 4 (toString t.line).toList ++ [' ', ' '] ++ padRight 14 t.kind.name.toList ++ [' '] ++
    Text.quotedChars t.lexeme.toList ++
    match t.literal with
    | .nil => []
    | value => ' ' :: value.describe.toList

/-- A token as one line of a dump. -/
def dump (t : Token) : String := String.ofList t.dumpChars

end Token

end LoxCheck
