import LoxCheck.Text.Quoted

/-!
# Reading bytes as text

Bytes are read as UTF-8, strictly: nothing is replaced or skipped, and a byte order mark is kept as
a character. For bytes that are no UTF-8, `Utf8Fault` says where the first fault is: the longest
beginning of a character that stands there, and why no character comes of it.
-/

namespace LoxCheck.Text

/-- Why bytes begin no character. -/
inductive Utf8Reason where
  | invalidStart
  | invalidContinuation
  | unexpectedEnd
  deriving DecidableEq, Repr

/-- The wording of a reason. -/
def Utf8Reason.message : Utf8Reason → String
  | .invalidStart => "invalid start byte"
  | .invalidContinuation => "invalid continuation byte"
  | .unexpectedEnd => "unexpected end of data"

/-- The first bytes that are no character: where they begin, which they are, and why. -/
structure Utf8Fault where
  position : Nat
  bytes : List UInt8
  reason : Utf8Reason
  deriving DecidableEq, Repr

/-- The report of a fault. A single byte is shown, several are only located. -/
def Utf8Fault.message (f : Utf8Fault) : String :=
  let what := match f.bytes with
    | [b] => s!"byte 0x{String.ofList (hexDigits 2 b.toNat)} in position {f.position}"
    | bytes => s!"bytes in position {f.position}-{f.position + bytes.length - 1}"
  s!"'utf-8' codec can't decode {what}: {f.reason.message}"

/-- The bounds of the bytes that continue a character with a first byte. Those of the second byte
leave out overlong forms, surrogates, and what lies beyond the last code point. -/
def continuation? (first : UInt8) : Option (List (UInt8 × UInt8)) :=
  let any : UInt8 × UInt8 := (0x80, 0xbf)
  if first < 0x80 then some []
  else if first < 0xc2 then none
  else if first < 0xe0 then some [any]
  else if first = 0xe0 then some [(0xa0, 0xbf), any]
  else if first = 0xed then some [(0x80, 0x9f), any]
  else if first < 0xf0 then some [any, any]
  else if first = 0xf0 then some [(0x90, 0xbf), any, any]
  else if first < 0xf4 then some [any, any, any]
  else if first = 0xf4 then some [(0x80, 0x8f), any, any]
  else none

/-- The first fault in bytes that are no UTF-8. `position` is the number of bytes before these,
`read` are those of a character begun among them, and `owed` are the bounds of its missing ones. -/
def firstFault (position : Nat) (read : List UInt8) (owed : List (UInt8 × UInt8)) :
    List UInt8 → Utf8Fault
  | [] => ⟨position - read.length, read, .unexpectedEnd⟩
  | b :: rest =>
    match owed with
    | (low, high) :: others =>
      if low ≤ b && b ≤ high then firstFault (position + 1) (read ++ [b]) others rest
      else ⟨position - read.length, read, .invalidContinuation⟩
    | [] =>
      match continuation? b with
      | some owed => firstFault (position + 1) [b] owed rest
      | none => ⟨position, [b], .invalidStart⟩

/-- The text that bytes stand for. -/
def decode (bytes : ByteArray) : Except Utf8Fault String :=
  match String.fromUTF8? bytes with
  | some text => .ok text
  | none => .error (firstFault 0 [] [] bytes.data.toList)

end LoxCheck.Text
