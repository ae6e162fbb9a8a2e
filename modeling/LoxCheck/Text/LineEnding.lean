/-!
# Line endings

A line of a file may end with a line feed, with a carriage return, or with a carriage return and a
line feed; in memory every line ends with a line feed.
-/

namespace LoxCheck.Text

/-- A text with every carriage return, and every pair of carriage return and line feed, made a
line feed. -/
def unifyLineEndings : List Char → List Char
  | '\r' :: '\n' :: rest => '\n' :: unifyLineEndings rest
  | '\r' :: rest => '\n' :: unifyLineEndings rest
  | c :: rest => c :: unifyLineEndings rest
  | [] => []

end LoxCheck.Text
