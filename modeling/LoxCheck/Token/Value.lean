import LoxCheck.Number.Decimal
import LoxCheck.Text.Quoted

/-!
# Literal values

What a literal of the language denotes: nothing, a truth value, a number or a text.
-/

namespace LoxCheck

/-- The value of a literal. -/
inductive Value where
  | nil
  | boolean (value : Bool)
  | number (value : Binary64)
  | text (value : String)
  deriving DecidableEq, Repr, Inhabited

namespace Value

/-- Equality of literal values: the same type, and the same value of it. -/
def same : Value → Value → Bool
  | .nil, .nil => true
  | .boolean a, .boolean b => a == b
  | .number a, .number b => a.same b
  | .text a, .text b => a == b
  | _, _ => false

/-- The number that a truth value counts as, where it is compared with numbers. -/
def count (b : Bool) : Binary64 := if b then .one else .zero false

/-- Equality of values that takes a truth value for the number one or zero, as tokens compare
what they carry. -/
def alike : Value → Value → Bool
  | .boolean a, .number b => (count a).same b
  | .number a, .boolean b => a.same (count b)
  | a, b => a.same b

/-- A value as it is written in descriptions of tokens and trees. -/
def describe : Value → String
  | .nil => "None"
  | .boolean true => "True"
  | .boolean false => "False"
  | .number value => value.text
  | .text value => Text.quoted value

end Value

end LoxCheck
