import LoxCheck.Lexical.Scan

/-!
# Cursor over a source text

A cursor stands between the characters it has read and those still to read. The characters read
since the last mark are the current lexeme. The line number grows by one with every line feed that
is read, and with nothing else.

A cursor may be placed beyond the end of its source. It then stands as at the end, except that its
offsets count from where it was placed.
-/

namespace LoxCheck

/-- A position in a source text with the lexeme that ends there. -/
structure Cursor where
  /-- The characters before the lexeme, the nearest first. -/
  before : List Char
  /-- The characters of the lexeme, the last first. -/
  held : List Char := []
  /-- The characters still to read. -/
  rest : List Char
  line : Int := 1
  /-- How far beyond the end of the source the cursor was placed. -/
  overrun : Nat := 0
  deriving DecidableEq, Repr

namespace Cursor

/-- A cursor at an offset into a source, on a line, with an empty lexeme. -/
def ofSource (source : List Char) (position : Nat) (line : Int) : Cursor :=
  ⟨(source.take position).reverse, [], source.drop position, line, position - source.length⟩

/-- The offset at which the lexeme starts. -/
def start (c : Cursor) : Nat := c.before.length + c.overrun

/-- The offset of the next character to read. -/
def position (c : Cursor) : Nat := c.start + c.held.length

/-- Whether nothing is left to read. -/
def atEnd (c : Cursor) : Bool := c.rest.isEmpty

/-- The characters read since the last mark. -/
def lexeme (c : Cursor) : List Char := c.held.reverse

/-- Starts a new lexeme at the current position. -/
def mark (c : Cursor) : Cursor := { c with before := c.held ++ c.before, held := [] }

/-- Reads the next character. -/
def next? (c : Cursor) : Option (Char × Cursor) :=
  match c.rest with
  | [] => none
  | x :: rest =>
    some (x, { c with held := x :: c.held, rest, line := c.line + lineFeeds [x] })

/-- The character at an offset from the current position, if it lies in the source. -/
def peek (c : Cursor) (offset : Int) : Option Char :=
  match offset with
  | .ofNat ahead => c.rest[ahead]?
  | .negSucc back => if back < c.overrun then none else (c.held ++ c.before)[back - c.overrun]?

/-- Reads the next character if a text consists of just that character. -/
def accept? (c : Cursor) (expected : List Char) : Option Cursor :=
  match c.next? with
  | some (x, after) => if expected = [x] then some after else none
  | none => none

/-- Reads as many characters as are left, but at most a given number. -/
def skip : Nat → Cursor → Cursor
  | 0, c => c
  | n + 1, c =>
    match c.next? with
    | some (_, after) => skip n after
    | none => c

end Cursor

end LoxCheck
