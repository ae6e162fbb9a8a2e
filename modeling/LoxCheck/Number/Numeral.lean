import LoxCheck.Number.Decimal
import LoxCheck.Text.DecimalDigit

/-!
# Reading numbers

The grammar of a number as text: blanks on both sides, a sign, then either the word `inf` or
`infinity` in any case, or digits with an optional point and an optional exponent. A digit of any
script counts, and one underscore may stand between two digits.

A plain numeral, which is digits with an optional fraction, is the form that source text has.
-/

namespace LoxCheck

namespace Numeral

/-! ## Values -/

/-- The value of a list of ASCII digits. -/
def digitsValue (digits : List Char) : Nat :=
  digits.foldl (fun value c => 10 * value + (c.toNat - 48)) 0

/-- The number that `whole.fraction` with a power of ten stands for. -/
def scientific (negative : Bool) (whole fraction : List Char) (exponent : Int) : Binary64 :=
  .ofDecimal negative (digitsValue (whole ++ fraction)) (exponent - fraction.length)

/-- The number that the plain numeral `whole.fraction` stands for. -/
def plain (whole fraction : List Char) : Binary64 := scientific false whole fraction 0

/-! ## Blanks, digits and underscores -/

/-- The blanks that the grammar allows around a number, of the ASCII characters. -/
def isAsciiBlank (c : Char) : Bool := c = ' ' || (9 ≤ c.toNat && c.toNat ≤ 13)

/-- The blanks beyond ASCII, each of which counts as a space. -/
def isWideBlank (c : Char) : Bool :=
  let n := c.toNat
  n = 0x85 || n = 0xa0 || n = 0x1680 || (0x2000 ≤ n && n ≤ 0x200a) || n = 0x2028 || n = 0x2029 ||
    n = 0x202f || n = 0x205f || n = 0x3000

/-- A character with a wide blank made a space and a digit of any script made the ASCII one. -/
def toAscii (c : Char) : Char :=
  if c.toNat < 0x80 then c
  else if isWideBlank c then ' '
  else match Text.decimalDigit? c with
    | some value => Char.ofNat (48 + value)
    | none => c

/-- A text without its underscores, if each stands between two digits. `afterDigit` says whether
a digit came before. -/
def dropUnderscores? (afterDigit : Bool) : List Char → Option (List Char)
  | [] => some []
  | '_' :: c :: rest =>
    if afterDigit && c.isDigit then (dropUnderscores? true rest).map (c :: ·) else none
  | c :: rest => if c = '_' then none else (dropUnderscores? c.isDigit rest).map (c :: ·)

/-- A text without the blanks on both sides. -/
def trimBlanks (text : List Char) : List Char :=
  ((text.dropWhile isAsciiBlank).reverse.dropWhile isAsciiBlank).reverse

/-! ## The grammar -/

/-- A sign, if there is one, and the rest of the text. -/
def sign : List Char → Bool × List Char
  | '-' :: rest => (true, rest)
  | '+' :: rest => (false, rest)
  | rest => (false, rest)

/-- The exponent that the end of a numeral states: nothing, or `e`, a sign and digits. -/
def exponent? : List Char → Option Int
  | [] => some 0
  | c :: rest =>
    if c = 'e' || c = 'E' then
      let (negative, digits) := sign rest
      if digits.isEmpty || !digits.all Char.isDigit then none
      else some (if negative then -(digitsValue digits : Int) else digitsValue digits)
    else none

/-- The number that a text without sign and blanks stands for, with a sign. -/
def magnitude? (negative : Bool) (text : List Char) : Option Binary64 :=
  let lower := text.map Char.toLower
  if lower = "inf".toList || lower = "infinity".toList then some (.infinite negative)
  else
    let whole := text.takeWhile Char.isDigit
    let afterWhole := text.dropWhile Char.isDigit
    let (fraction, rest) := match afterWhole with
      | '.' :: tail => (tail.takeWhile Char.isDigit, tail.dropWhile Char.isDigit)
      | other => ([], other)
    if whole.isEmpty && fraction.isEmpty then none
    else (exponent? rest).map (scientific negative whole fraction)

/-- The number that a text stands for, if it stands for one. -/
def read? (text : List Char) : Option Binary64 := do
  let bare ← dropUnderscores? false (text.map toAscii)
  let (negative, rest) := sign (trimBlanks bare)
  magnitude? negative rest

end Numeral

end LoxCheck
