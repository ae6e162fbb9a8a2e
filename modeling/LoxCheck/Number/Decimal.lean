import LoxCheck.Number.Binary64

/-!
# Numbers in decimal

`Binary64.ofDecimal` is the number nearest to `digits * 10 ^ exponent`, as
`Binary64.rounds_ofDecimal` says over the rationals. `Binary64.text` writes a number with the fewest
significant digits that read back as the same number; of two such digit strings the nearer one is
written. The layout is positional from `10 ^ -4` to below `10 ^ 16`, always with a digit after the
point, and scientific with at least two exponent digits elsewhere.
-/

namespace LoxCheck

/-- A decimal `digits * 10 ^ exponent`. -/
structure Decimal where
  digits : Nat
  exponent : Int
  deriving DecidableEq, Repr

namespace Decimal

/-! ## Layout -/

/-- Where the layout changes from positional to scientific, as bounds on the decimal order. -/
def positional (order : Int) : Bool := -4 ≤ order && order < 16

/-- The digits of a natural number, most significant first. -/
def digitChars (n : Nat) : List Char := (toString n).toList

/-- A list without its trailing zeros. -/
def trimZeros (digits : List Char) : List Char :=
  (digits.reverse.dropWhile (· == '0')).reverse

/-- A positive decimal as text. The order of its first digit decides the layout. -/
def layout (d : Decimal) : List Char :=
  let all := digitChars d.digits
  let point : Int := d.exponent + all.length
  let digits := trimZeros all
  let order := point - 1
  if positional order then
    if point ≤ 0 then '0' :: '.' :: (List.replicate (-point).toNat '0' ++ digits)
    else
      let whole := digits.take point.toNat
      let fraction := digits.drop point.toNat
      whole ++ List.replicate (point.toNat - digits.length) '0' ++
        '.' :: (if fraction.isEmpty then ['0'] else fraction)
  else
    let exponentDigits := digitChars order.natAbs
    let fraction := digits.drop 1
    digits.take 1 ++ (if fraction.isEmpty then [] else '.' :: fraction) ++
      'e' :: (if order < 0 then '-' else '+') ::
        (List.replicate (2 - exponentDigits.length) '0' ++ exponentDigits)

end Decimal

namespace Binary64

/-! ## Reading -/

/-- The number nearest to `±digits * 10 ^ exponent`. A quotient whose binary order lies below
`-1100` rounds to zero and a power of ten above `10 ^ 400` is infinite, so neither power is ever
computed for an exponent out of proportion to the digits. -/
def ofDecimal (negative : Bool) (digits : Nat) (exponent : Int) : Binary64 :=
  if digits = 0 then zero negative
  else if 400 < exponent then .infinite negative
  else if (digits.log2 : Int) + 1 + 1100 ≤ 3 * (-exponent) then zero negative
  else ofRatio negative (digits * Nat.pow 10 exponent.toNat) (Nat.pow 10 (-exponent).toNat)

/-! ## The shortest digits -/

/-- The power `e` with `10 ^ e ≤ num / den < 10 ^ (e + 1)`, for positive `num` and `den`. The
first guess multiplies the binary order by a little less than the decimal logarithm of two and is
at most one off. -/
def decimalOrder (num den : Nat) : Int :=
  let guess := binaryOrder num den * 1233 / 4096
  if reaches 10 num den (guess + 1) then guess + 1
  else if reaches 10 num den guess then guess
  else guess - 1

/-- The decimal of `count` significant digits that reads back as the positive number
`significand * 2 ^ exponent`, whose quotient is `num / den` and whose decimal order is `order`,
if there is one. Only the two neighbours of the number on the grid of that many digits can be
one; the nearer wins, a tie goes to the even digits. -/
def readingBack? (significand : Nat) (exponent : Int) (num den : Nat) (order : Int)
    (count : Nat) : Option Decimal :=
  let unit := order + 1 - count
  let scaled := num * Nat.pow 10 (-unit).toNat
  let step := den * Nat.pow 10 unit.toNat
  let below := scaled / step
  let twice := 2 * (scaled % step)
  let reads (digits : Nat) : Bool :=
    ofDecimal false digits unit == .finite false significand exponent
  let nearer := if step < twice || (twice == step && below % 2 == 1) then below + 1 else below
  let farther := if nearer = below then below + 1 else below
  if reads nearer then some ⟨nearer, unit⟩
  else if reads farther then some ⟨farther, unit⟩
  else none

/-- The shortest decimal that reads back as the positive number `significand * 2 ^ exponent`.
Seventeen digits always suffice. -/
def shortest (significand : Nat) (exponent : Int) : Decimal :=
  let num := significand * Nat.pow 2 exponent.toNat
  let den := Nat.pow 2 (-exponent).toNat
  let order := decimalOrder num den
  let found := (List.range' 1 17).findSome? (readingBack? significand exponent num den order)
  found.getD ⟨num * Nat.pow 10 (-exponent).toNat / den, -((-exponent).toNat : Int)⟩

/-! ## Text -/

/-- A number as text, the shortest that reads back. -/
def text (x : Binary64) : String :=
  let sign (negative : Bool) : List Char := if negative then ['-'] else []
  match x with
  | .infinite negative => String.ofList (sign negative ++ ['i', 'n', 'f'])
  | .finite negative 0 _ => String.ofList (sign negative ++ ['0', '.', '0'])
  | .finite negative significand exponent =>
    String.ofList (sign negative ++ (shortest significand exponent).layout)

end Binary64

end LoxCheck
