import LoxCheck.Text.LineEnding
import LoxCheck.Text.Utf8

/-!
# Source files

Where source text comes from: a file system, as a function from paths to contents or to the reason
why there are none. Paths are texts. Strings with a lone half of a surrogate pair, which cannot be
encoded as a file name either, are not among them.
-/

namespace LoxCheck

/-- Why an operating system refuses a request for a file. -/
inductive SystemError where
  | notFound
  | accessDenied
  | notADirectory
  | isADirectory
  | nameTooLong
  | other (code : Nat) (reason : String)
  deriving DecidableEq, Repr

namespace SystemError

/-- The number of a reason. -/
def code : SystemError → Nat
  | .notFound => 2
  | .accessDenied => 13
  | .notADirectory => 20
  | .isADirectory => 21
  | .nameTooLong => 36
  | .other code _ => code

/-- The wording of a reason. -/
def reason : SystemError → String
  | .notFound => "No such file or directory"
  | .accessDenied => "Permission denied"
  | .notADirectory => "Not a directory"
  | .isADirectory => "Is a directory"
  | .nameTooLong => "File name too long"
  | .other _ reason => reason

end SystemError

/-- The step at which a file fails, and why. -/
inductive FileError where
  | opening (cause : SystemError)
  /-- The file was opened and then could not be read. -/
  | reading (cause : SystemError)
  deriving DecidableEq, Repr

namespace FileError

/-- Why a file fails. -/
def cause : FileError → SystemError
  | .opening cause => cause
  | .reading cause => cause

/-- The report on a file that fails. It names the path only if that could not be opened: once a file
is open, its path is not known any more. -/
def message (e : FileError) (path : String) : String :=
  match e with
  | .opening cause => s!"[Errno {cause.code}] {cause.reason}: {Text.quoted path}"
  | .reading cause => s!"[Errno {cause.code}] {cause.reason}"

end FileError

/-- What a file system answers when a path is opened and read. -/
abbrev FileSystem := String → Except FileError ByteArray

/-- The source text in a file, or the report that it could not be read. -/
def readSource (files : FileSystem) (path : String) : Except String String :=
  match files path with
  | .error e => .error (e.message path)
  | .ok bytes =>
    match Text.decode bytes with
    | .error fault => .error fault.message
    | .ok text => .ok (String.ofList (Text.unifyLineEndings text.toList))

end LoxCheck
