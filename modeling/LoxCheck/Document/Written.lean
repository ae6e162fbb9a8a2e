import LoxCheck.Document
import LoxCheck.Text.Quoted

/-!
# The written form of documents

`Document.write` writes a document with so many levels of lists and records. It goes through the
document in order and fails at the first infinite number, or at the first list or record for which
no level is left.
-/

namespace LoxCheck

/-- Why a tree or a document cannot be written. -/
inductive DumpFault where
  | infiniteNumber
  | tooDeep
  deriving DecidableEq, Repr

namespace Document

/-- A code point as escapes of four hexadecimal digits, one for each of its 16-bit units. -/
def unitEscapes (n : Nat) : List Char :=
  if n < 0x10000 then '\\' :: 'u' :: Text.hexDigits 4 n
  else
    let high := 0xd800 + (n - 0x10000) / 0x400
    let low := 0xdc00 + (n - 0x10000) % 0x400
    '\\' :: 'u' :: (Text.hexDigits 4 high ++ '\\' :: 'u' :: Text.hexDigits 4 low)

/-- A character of a text in double quotes: the quote and the backslash escaped, the usual letters
for five control characters, and nothing beyond printable ASCII unescaped. -/
def escape (c : Char) : List Char :=
  if c = '"' then ['\\', '"']
  else if c = '\\' then ['\\', '\\']
  else if c = '\n' then ['\\', 'n']
  else if c = '\r' then ['\\', 'r']
  else if c = '\t' then ['\\', 't']
  else if c.toNat = 0xc then ['\\', 'f']
  else if c.toNat = 0x8 then ['\\', 'b']
  else if 0x20 ≤ c.toNat && c.toNat < 0x7f then [c]
  else unitEscapes c.toNat

/-- A text in double quotes. -/
def quotedText (text : String) : String :=
  String.ofList ('"' :: (text.toList.flatMap escape ++ ['"']))

/-- A line break with the indentation of a level. -/
def lineBreak (level : Nat) : String :=
  String.ofList ('\n' :: List.replicate (2 * level) ' ')

/-- Written items between brackets, each on a line of the next level. -/
def enclose (opening closing : String) (level : Nat) : List String → String
  | [] => opening ++ closing
  | items =>
    opening ++ lineBreak (level + 1) ++ ("," ++ lineBreak (level + 1)).intercalate items ++
      lineBreak level ++ closing

mutual

/-- A document as text that starts at an indentation level. -/
def written (level : Nat) : Document → String
  | .null => "null"
  | .boolean true => "true"
  | .boolean false => "false"
  | .integer value => toString value
  | .number value => value.text
  | .text value => quotedText value
  | .list items => enclose "[" "]" level (writtenItems (level + 1) items)
  | .record fields => enclose "\x7b" "\x7d" level (writtenFields (level + 1) fields)

/-- The items of a list, each as text. -/
def writtenItems (level : Nat) : List Document → List String
  | [] => []
  | item :: rest => written level item :: writtenItems level rest

/-- The fields of a record, each as text. -/
def writtenFields (level : Nat) : List (String × Document) → List String
  | [] => []
  | field :: rest => writtenField level field :: writtenFields level rest

/-- A field as text: its name in quotes, a colon, and its value. -/
def writtenField (level : Nat) : String × Document → String
  | (name, value) => quotedText name ++ ": " ++ written level value

end

mutual

/-- What first keeps a document from being written with so many levels of lists and records. -/
def fault? (levels : Nat) : Document → Option DumpFault
  | .number value => if value.isInfinite then some .infiniteNumber else none
  | .list items =>
    match levels with
    | 0 => some .tooDeep
    | inner + 1 => itemsFault? inner items
  | .record fields =>
    match levels with
    | 0 => some .tooDeep
    | inner + 1 => fieldsFault? inner fields
  | _ => none

/-- What first keeps the documents of a list from being written. -/
def itemsFault? (levels : Nat) : List Document → Option DumpFault
  | [] => none
  | item :: rest => fault? levels item <|> itemsFault? levels rest

/-- What first keeps the fields of a record from being written. -/
def fieldsFault? (levels : Nat) : List (String × Document) → Option DumpFault
  | [] => none
  | field :: rest => fieldFault? levels field <|> fieldsFault? levels rest

/-- What keeps a field from being written. -/
def fieldFault? (levels : Nat) : String × Document → Option DumpFault
  | (_, value) => fault? levels value

end

/-- The text of a document, or what keeps it from being written. -/
def write (levels : Nat) (document : Document) : Except DumpFault String :=
  match document.fault? levels with
  | some fault => .error fault
  | none => .ok (document.written 0)

end Document

end LoxCheck
