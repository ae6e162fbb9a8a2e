import LoxCheck.Check
import LoxCheck.Command.Arguments
import LoxCheck.Command.Source
import LoxCheck.Document.Written
import LoxCheck.Tree.Serialise

/-!
# The command

`Command.run` checks a source and reports what is wrong with it; on request it also dumps the
tokens and the tree. `Command.answer` does what a command line asks for.

A process has room for so many open calls. Of all that a command does only the dump of the tree can
need more than that: nesting is bounded when a source is parsed, but the length of a chain of
operators is not, and its tree is as deep as it is long. So the room for the dump is a parameter, and
a tree that does not fit it is a fault, on which there is no report.
-/

namespace LoxCheck

/-- How a command ended. -/
inductive ExitStatus where
  | ok
  | badArguments
  | usage
  | badSource
  | noInput
  deriving DecidableEq, Repr

/-- The number of an exit status. -/
def ExitStatus.code : ExitStatus → Nat
  | .ok => 0
  | .badArguments => 2
  | .usage => 64
  | .badSource => 65
  | .noInput => 66

/-- What a command answers: an exit status, and texts for the output and for errors, each of which
is written with a line break after it. -/
structure Report where
  status : ExitStatus
  out : List String := []
  err : List String := []
  deriving DecidableEq, Repr

namespace Report

/-- Texts as they are written, each with a line break. -/
def written (texts : List String) : String := String.join (texts.map (· ++ "\n"))

/-- Everything written to the output. -/
def stdout (r : Report) : String := written r.out

/-- Everything written to the error output. -/
def stderr (r : Report) : String := written r.err

end Report

/-- Why a command comes to no report. -/
inductive CommandFault where
  /-- What is to be a path holds a null character, so that no file system can be asked for it. -/
  | embeddedNul
  /-- The dump of the tree needs more open calls than there is room for. -/
  | dumpTooDeep
  deriving DecidableEq, Repr

/-- The wording of a command fault. -/
def CommandFault.message : CommandFault → String
  | .embeddedNul => "embedded null byte"
  | .dumpTooDeep => "maximum recursion depth exceeded"

/-- The room for a dump of the tree. -/
structure DumpRoom where
  /-- How many calls there can be while the tree is made a document. -/
  conversion : Nat
  /-- How many levels of lists and records can be written. -/
  writing : Nat
  deriving DecidableEq, Repr

namespace DumpRoom

/-- The room of a process that allows a thousand open calls. Three of them are taken by the command,
and five more by the writer around the levels that it writes. -/
def standard : DumpRoom := { conversion := 997, writing := 992 }

/-- The tree of a program can be made a document and written in the room. -/
def Fits (room : DumpRoom) (statements : List Stmt) : Prop :=
  Stmt.allCalls statements ≤ room.conversion ∧ (programDocument statements).depth ≤ room.writing

instance (room : DumpRoom) (statements : List Stmt) : Decidable (room.Fits statements) :=
  instDecidableAnd

end DumpRoom

namespace Command

/-- The usage line. -/
def usage : String := "usage: lox [-h] [-s] [--tokens] [--ast] [--verbose] [source]"

/-- The help text. -/
def help : List String :=
  [usage,
    "",
    "Check Lox source for lexical and syntax errors.",
    "",
    "positional arguments:",
    "  source        Filename or raw source (with -s)",
    "",
    "options:",
    "  -h, --help    show this help message and exit",
    "  -s, --string  Interpret source as literal string",
    "  --tokens      Print scanned tokens",
    "  --ast         Print the AST as JSON",
    "  --verbose     Enable debug logging"]

/-- The report that a tree holds a number too great to be written. -/
def dumpFailure : String := "error: AST contains a number literal outside the float range"

/-- What a check logs: each error as it is found, and a summary of each stage. -/
def log (c : Checked) : List String :=
  let scanned := c.scan.errors.map fun e =>
    "DEBUG lox.lox_scanner: Lex error: " ++ (Diagnostic.lexical e).text
  let parsed := c.program.errors.map fun e =>
    "DEBUG lox.lox_parser: Parse error: " ++ (Diagnostic.grammatical e).text
  let tokenCount := c.tokens.length
  let lexicalCount := c.scan.errors.length
  let statementCount := c.statements.length
  let syntaxCount := c.program.errors.length
  scanned ++ [s!"DEBUG lox.lox_scanner: Scanned {tokenCount} tokens with {lexicalCount} errors"] ++
    parsed ++
    [s!"DEBUG lox.lox_parser: Parsed {statementCount} statements with {syntaxCount} errors"]

/-- The tree of a program as text, or what keeps it from being dumped: it is made a document as a
whole before anything of it is written. -/
def dump (room : DumpRoom) (statements : List Stmt) : Except DumpFault String :=
  if room.conversion < Stmt.allCalls statements then .error .tooDeep
  else (programDocument statements).write room.writing

/-- The report on a checked source, under the options for the tokens and for logging, with the tree
as text and the failure of its dump, if there is one or the other. -/
def report (options : Options) (c : Checked) (tree failure : Option String) : Report :=
  { status := if c.diagnostics.isEmpty && failure.isNone then .ok else .badSource
    out := (if options.tokens then c.tokens.map Token.dump else []) ++ tree.toList
    err := (if options.verbose then log c else []) ++ failure.toList ++
      c.diagnostics.map Diagnostic.text }

/-- Checks a source text, under the options for dumps and logging. -/
def checkText (room : DumpRoom) (options : Options) (source : String) :
    Except CommandFault Report :=
  let c := check source
  if options.ast then
    match dump room c.statements with
    | .ok text => .ok (report options c (some text) none)
    | .error .infiniteNumber => .ok (report options c none (some dumpFailure))
    | .error .tooDeep => .error .dumpTooDeep
  else .ok (report options c none none)

/-- Checks a source, which is a text or the path of a file. -/
def run (room : DumpRoom) (files : FileSystem) (options : Options) (source : String) :
    Except CommandFault Report :=
  if options.isString then checkText room options source
  else if source.toList.contains '\x00' then .error .embeddedNul
  else match readSource files source with
    | .ok text => checkText room options text
    | .error message => .ok { status := .noInput, err := ["error: " ++ message] }

/-- Does what a command line asks for. -/
def answer (room : DumpRoom) (files : FileSystem) (arguments : List String) :
    Except CommandFault Report :=
  match Options.ofArguments arguments with
  | .error fault =>
    .ok { status := .badArguments, err := [usage, "lox: error: " ++ fault.message] }
  | .ok .help => .ok { status := .ok, out := help }
  | .ok (.run options) =>
    match options.source with
    | none => .ok { status := .usage, err := [usage] }
    | some source => run room files options source

end Command

end LoxCheck
