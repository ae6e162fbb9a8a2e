import LoxCheck.Command.Run

/-!
# The program

Reads the file that the command line names, if it names one, and writes what the command answers.
-/

namespace LoxCheck

/-- The cause of a failure, by the number that the operating system gives it, which may come
negated. -/
def SystemError.ofCode (code : UInt32) (details : String) : SystemError :=
  let code := if code < 0x80000000 then code else 0 - code
  match code with
  | 2 => .notFound
  | 13 => .accessDenied
  | 20 => .notADirectory
  | 21 => .isADirectory
  | 36 => .nameTooLong
  | _ => .other code.toNat details

/-- The cause of a failure. -/
def SystemError.ofIO : IO.Error → SystemError
  | .alreadyExists _ code details => ofCode code details
  | .otherError code details => ofCode code details
  | .resourceBusy code details => ofCode code details
  | .resourceVanished code details => ofCode code details
  | .unsupportedOperation code details => ofCode code details
  | .hardwareFault code details => ofCode code details
  | .unsatisfiedConstraints code details => ofCode code details
  | .illegalOperation code details => ofCode code details
  | .protocolError code details => ofCode code details
  | .timeExpired code details => ofCode code details
  | .interrupted _ code details => ofCode code details
  | .noFileOrDirectory _ code details => ofCode code details
  | .invalidArgument _ code details => ofCode code details
  | .permissionDenied _ code details => ofCode code details
  | .resourceExhausted _ code details => ofCode code details
  | .inappropriateType _ code details => ofCode code details
  | .noSuchThing _ code details => ofCode code details
  | .unexpectedEof => .other 5 "Input/output error"
  | .userError details => .other 5 details

/-- What is read of an open file. A directory can be opened like a file and is refused only now,
which counts as a failure to open it. -/
def readHandle (handle : IO.FS.Handle) : IO (Except FileError ByteArray) := do
  try
    return .ok (← handle.readBinToEnd)
  catch e =>
    match SystemError.ofIO e with
    | .isADirectory => return .error (.opening .isADirectory)
    | cause => return .error (.reading cause)

/-- What the file system answers for one path. -/
def openPath (path : String) : IO (Except FileError ByteArray) := do
  let opened ← try Except.ok <$> IO.FS.Handle.mk path .read
    catch e => pure (.error (FileError.opening (.ofIO e)))
  match opened with
  | .ok handle => readHandle handle
  | .error e => return .error e

end LoxCheck

open LoxCheck in
/-- Runs the command on the arguments of the process. -/
def main (arguments : List String) : IO UInt32 := do
  let content ← match Options.ofArguments arguments with
    | .ok (.run { source := some path, isString := false, .. }) => openPath path
    | _ => pure (.error (.opening .notFound))
  match Command.answer .standard (fun _ => content) arguments with
  | .ok report =>
    (← IO.getStdout).putStr report.stdout
    (← IO.getStderr).putStr report.stderr
    return UInt32.ofNat report.status.code
  | .error fault =>
    (← IO.getStderr).putStr (fault.message ++ "\n")
    return 1
