/-!
# Token kinds

The closed set of lexical categories, each with its name and, where it has only one, its spelling.
The tables of the language are read off the spellings: keywords, punctuation that is complete with
its one character, and operators that grow by a following `=`.
-/

namespace LoxCheck

/-- A lexical category. The keywords begin with `kw`. -/
inductive TokenKind where
  | leftParen | rightParen | leftBrace | rightBrace | comma | dot | minus | plus | semicolon
  | slash | star
  | bang | bangEqual | equal | equalEqual | greater | greaterEqual | less | lessEqual
  | identifier | string | number
  | kwAnd | kwClass | kwElse | kwFalse | kwFun | kwFor | kwIf | kwNil | kwOr | kwPrint | kwReturn
  | kwSuper | kwThis | kwTrue | kwVar | kwWhile
  | eof
  deriving DecidableEq, Repr

namespace TokenKind

/-- Every kind, in the order of their numbers, which start at one. -/
def all : List TokenKind :=
  [leftParen, rightParen, leftBrace, rightBrace, comma, dot, minus, plus, semicolon, slash, star,
    bang, bangEqual, equal, equalEqual, greater, greaterEqual, less, lessEqual, identifier, string,
    number, kwAnd, kwClass, kwElse, kwFalse, kwFun, kwFor, kwIf, kwNil, kwOr, kwPrint, kwReturn,
    kwSuper, kwThis, kwTrue, kwVar, kwWhile, eof]

/-- The name of a kind in dumps and serialised trees. -/
def name : TokenKind → String
  | leftParen => "LEFT_PAREN"
  | rightParen => "RIGHT_PAREN"
  | leftBrace => "LEFT_BRACE"
  | rightBrace => "RIGHT_BRACE"
  | comma => "COMMA"
  | dot => "DOT"
  | minus => "MINUS"
  | plus => "PLUS"
  | semicolon => "SEMICOLON"
  | slash => "SLASH"
  | star => "STAR"
  | bang => "BANG"
  | bangEqual => "BANG_EQUAL"
  | equal => "EQUAL"
  | equalEqual => "EQUAL_EQUAL"
  | greater => "GREATER"
  | greaterEqual => "GREATER_EQUAL"
  | less => "LESS"
  | lessEqual => "LESS_EQUAL"
  | identifier => "IDENTIFIER"
  | string => "STRING"
  | number => "NUMBER"
  | kwAnd => "AND"
  | kwClass => "CLASS"
  | kwElse => "ELSE"
  | kwFalse => "FALSE"
  | kwFun => "FUN"
  | kwFor => "FOR"
  | kwIf => "IF"
  | kwNil => "NIL"
  | kwOr => "OR"
  | kwPrint => "PRINT"
  | kwReturn => "RETURN"
  | kwSuper => "SUPER"
  | kwThis => "THIS"
  | kwTrue => "TRUE"
  | kwVar => "VAR"
  | kwWhile => "WHILE"
  | eof => "EOF"

/-- The spelling of a kind that has only one; identifiers, strings, numbers and the end of the
source have none of their own. -/
def spelling : TokenKind → List Char
  | leftParen => ['(']
  | rightParen => [')']
  | leftBrace => ['{']
  | rightBrace => ['}']
  | comma => [',']
  | dot => ['.']
  | minus => ['-']
  | plus => ['+']
  | semicolon => [';']
  | slash => ['/']
  | star => ['*']
  | bang => ['!']
  | bangEqual => ['!', '=']
  | equal => ['=']
  | equalEqual => ['=', '=']
  | greater => ['>']
  | greaterEqual => ['>', '=']
  | less => ['<']
  | lessEqual => ['<', '=']
  | identifier | string | number | eof => []
  | kwAnd => ['a', 'n', 'd']
  | kwClass => ['c', 'l', 'a', 's', 's']
  | kwElse => ['e', 'l', 's', 'e']
  | kwFalse => ['f', 'a', 'l', 's', 'e']
  | kwFun => ['f', 'u', 'n']
  | kwFor => ['f', 'o', 'r']
  | kwIf => ['i', 'f']
  | kwNil => ['n', 'i', 'l']
  | kwOr => ['o', 'r']
  | kwPrint => ['p', 'r', 'i', 'n', 't']
  | kwReturn => ['r', 'e', 't', 'u', 'r', 'n']
  | kwSuper => ['s', 'u', 'p', 'e', 'r']
  | kwThis => ['t', 'h', 'i', 's']
  | kwTrue => ['t', 'r', 'u', 'e']
  | kwVar => ['v', 'a', 'r']
  | kwWhile => ['w', 'h', 'i', 'l', 'e']

/-- The reserved words, in alphabetical order. -/
def keywords : List TokenKind :=
  [kwAnd, kwClass, kwElse, kwFalse, kwFor, kwFun, kwIf, kwNil, kwOr, kwPrint, kwReturn, kwSuper,
    kwThis, kwTrue, kwVar, kwWhile]

/-- The punctuation that is complete with its one character, in the order of the characters. A
slash is not here: it may begin a comment. -/
def punctuation : List TokenKind :=
  [leftParen, rightParen, star, plus, comma, minus, dot, semicolon, leftBrace, rightBrace]

/-- The operators of one character with the form that a following `=` makes of them, in the order
of the characters. -/
def growingOperators : List (TokenKind × TokenKind) :=
  [(bang, bangEqual), (less, lessEqual), (equal, equalEqual), (greater, greaterEqual)]

/-- The kind of a word: a keyword if the whole word is one. -/
def ofWord (word : List Char) : TokenKind :=
  (keywords.find? fun kind => kind.spelling == word).getD identifier

/-- The punctuation that a character is. -/
def punctuation? (c : Char) : Option TokenKind :=
  punctuation.find? fun kind => kind.spelling == [c]

/-- The operator that a character is, with its grown form. -/
def growingOperator? (c : Char) : Option (TokenKind × TokenKind) :=
  growingOperators.find? fun forms => forms.1.spelling == [c]

/-- The keywords that begin a statement, in alphabetical order. -/
def statementStarters : List TokenKind :=
  [kwClass, kwFor, kwFun, kwIf, kwPrint, kwReturn, kwVar, kwWhile]

/-- Whether a kind is a keyword that begins a statement. -/
def startsStatement (kind : TokenKind) : Bool := statementStarters.contains kind

/-- The kind with a name. -/
def ofName? (name : String) : Option TokenKind := all.find? fun kind => kind.name == name

theorem ofName?_name (kind : TokenKind) : ofName? kind.name = some kind := by
  cases kind <;> decide

/-- Kinds are told apart by their names. -/
theorem name_inj {kind kind' : TokenKind} : kind.name = kind'.name ↔ kind = kind' := by
  refine ⟨fun same => ?_, congrArg name⟩
  have read := ofName?_name kind
  rw [same, ofName?_name] at read
  exact (Option.some.inj read).symm

end TokenKind

end LoxCheck
