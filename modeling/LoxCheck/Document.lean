import LoxCheck.Number.Decimal

/-!
# Documents

Data made of records, lists and scalars, and its written form: two spaces of indentation a level,
one item a line, ASCII only. A record keeps its fields in order. An infinite number has no written
form, so a document that holds one has none. The depth of a document is how deep its lists and
records are nested.
-/

namespace LoxCheck

/-- A document: a scalar, a list, or a record with its fields in order. -/
inductive Document where
  | null
  | boolean (value : Bool)
  | integer (value : Int)
  | number (value : Binary64)
  | text (value : String)
  | list (items : List Document)
  | record (fields : List (String × Document))
  deriving Repr

namespace Document

mutual

/-- Equality of documents, scalars by type and value. -/
def same : Document → Document → Bool
  | .null, .null => true
  | .boolean a, .boolean b => a == b
  | .integer a, .integer b => a == b
  | .number a, .number b => a.same b
  | .text a, .text b => a == b
  | .list a, .list b => allSame a b
  | .record a, .record b => fieldsSame a b
  | _, _ => false

/-- Equality of lists of documents. -/
def allSame : List Document → List Document → Bool
  | [], [] => true
  | a :: as, b :: bs => same a b && allSame as bs
  | _, _ => false

/-- Equality of fields, names and values in order. -/
def fieldsSame : List (String × Document) → List (String × Document) → Bool
  | [], [] => true
  | a :: as, b :: bs => fieldSame a b && fieldsSame as bs
  | _, _ => false

/-- Equality of a field's name and value. -/
def fieldSame : String × Document → String × Document → Bool
  | (name, a), (name', b) => name == name' && same a b

end

mutual

/-- Whether an infinite number occurs in a document. -/
def hasInfinite : Document → Bool
  | .number value => value.isInfinite
  | .list items => anyInfinite items
  | .record fields => anyFieldInfinite fields
  | _ => false

/-- Whether an infinite number occurs in some document of a list. -/
def anyInfinite : List Document → Bool
  | [] => false
  | item :: rest => hasInfinite item || anyInfinite rest

/-- Whether an infinite number occurs in some field. -/
def anyFieldInfinite : List (String × Document) → Bool
  | [] => false
  | field :: rest => fieldInfinite field || anyFieldInfinite rest

/-- Whether an infinite number occurs in a field. -/
def fieldInfinite : String × Document → Bool
  | (_, value) => hasInfinite value

end

mutual

/-- How deep lists and records are nested in a document. -/
def depth : Document → Nat
  | .list items => itemsDepth items + 1
  | .record fields => fieldsDepth fields + 1
  | _ => 0

/-- The depth of the deepest document of a list. -/
def itemsDepth : List Document → Nat
  | [] => 0
  | item :: rest => max (depth item) (itemsDepth rest)

/-- The depth of the deepest field. -/
def fieldsDepth : List (String × Document) → Nat
  | [] => 0
  | field :: rest => max (fieldDepth field) (fieldsDepth rest)

/-- The depth of a field's value. -/
def fieldDepth : String × Document → Nat
  | (_, value) => depth value

end

end Document

end LoxCheck
