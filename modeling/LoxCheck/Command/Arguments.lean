import LoxCheck.Text.DecimalDigit
import LoxCheck.Text.Quoted

/-!
# Command-line arguments

The arguments are one operand, the source, and switches in any order. A switch is spelled by its
letter after one dash, by its name after two, or by any beginning of its name. Letters can be
clustered, also with an equals sign after the first. No switch takes a value: what stands where a
value would is refused. The first `--` ends the switches.

Arguments are classified first, all of them, and then read from left to right.
-/

namespace LoxCheck

/-! ## Switches -/

/-- A switch of the command line. -/
inductive Switch where
  | help | string | tokens | ast | verbose
  deriving DecidableEq, Repr

namespace Switch

/-- Every switch, in the order of the usage line. -/
def all : List Switch := [help, string, tokens, ast, verbose]

/-- The letter of a switch that has one. -/
def letter? : Switch → Option Char
  | help => some 'h'
  | string => some 's'
  | tokens | ast | verbose => none

/-- The name of a switch, with its dashes. -/
def name : Switch → String
  | help => "--help"
  | string => "--string"
  | tokens => "--tokens"
  | ast => "--ast"
  | verbose => "--verbose"

/-- All spellings of a switch as an error names them. -/
def spellings (s : Switch) : String :=
  match s.letter? with
  | some letter => String.ofList ['-', letter, '/'] ++ s.name
  | none => s.name

/-- The switch with a letter. -/
def ofLetter? (letter : Char) : Option Switch := all.find? fun s => s.letter? == some letter

/-- The switch that a text spells in full. -/
def ofSpelling? (text : List Char) : Option Switch :=
  match text with
  | ['-', letter] => ofLetter? letter
  | _ => all.find? fun s => s.name.toList == text

/-- The switches whose names begin with a text. -/
def abbreviated (text : List Char) : List Switch :=
  all.filter fun s => text.isPrefixOf s.name.toList

end Switch

/-! ## Faults -/

/-- Why a command line cannot be used. -/
inductive UsageFault where
  | ambiguous (argument : String) (candidates : List Switch)
  | ignoredValue (switch : Switch) (value : String)
  | unrecognized (arguments : List String)
  deriving DecidableEq, Repr

/-- The wording of a usage fault. -/
def UsageFault.message : UsageFault → String
  | .ambiguous argument candidates =>
    s!"ambiguous option: {argument} could match " ++
      ", ".intercalate (candidates.map Switch.name)
  | .ignoredValue switch value =>
    s!"argument {switch.spellings}: ignored explicit argument {Text.quoted value}"
  | .unrecognized arguments => "unrecognized arguments: " ++ " ".intercalate arguments

/-! ## Classification -/

/-- What a single argument is. -/
inductive Argument where
  | operand (text : String)
  /-- The `--` that ends the switches. -/
  | separator
  | switch (switch : Switch)
  /-- A switch by its name with a value after an equals sign, or by its letter with an empty one. -/
  | valued (switch : Switch) (value : String)
  /-- A switch by its letter, with more characters after it or after an equals sign. -/
  | cluster (switch : Switch) (tail : List Char)
  /-- What looks like a switch and is none. -/
  | unknown (text : String)
  deriving DecidableEq, Repr

namespace Argument

/-- A text up to its first equals sign, and what follows the sign if there is one. -/
def splitValue (text : List Char) : List Char × Option (List Char) :=
  match text.dropWhile (· ≠ '=') with
  | _ :: value => (text.takeWhile (· ≠ '='), some value)
  | [] => (text, none)

/-- Whether a text is a negative number, which is no switch: a dash and digits of any script, with
at most one point before the last of them. One line feed at the end does not count. -/
def isNegativeNumber (text : List Char) : Bool :=
  let digits (cs : List Char) : Bool := cs.all fun c => (Text.decimalDigit? c).isSome
  let plain := if text.getLast? == some '\n' then text.dropLast else text
  match plain with
  | '-' :: number =>
    match number.dropWhile fun c => (Text.decimalDigit? c).isSome with
    | [] => !number.isEmpty
    | '.' :: fraction => !fraction.isEmpty && digits fraction
    | _ => false
  | _ => false

/-- What an argument is that starts with a dash and spells no switch. -/
def otherwise (text : List Char) : Argument :=
  if isNegativeNumber text || text.contains ' ' then .operand (String.ofList text)
  else .unknown (String.ofList text)

/-- What an argument before the first `--` is. -/
def classify (text : List Char) : Except UsageFault Argument :=
  match text, Switch.ofSpelling? text, splitValue text with
  | '-' :: _ :: _, some s, _ => .ok (.switch s)
  | '-' :: '-' :: _, none, (spelled, value) =>
    match Switch.abbreviated spelled, value with
    | [s], none => .ok (.switch s)
    | [s], some value => .ok (.valued s (String.ofList value))
    | [], _ => .ok (otherwise text)
    | candidates, _ => .error (.ambiguous (String.ofList text) candidates)
  | '-' :: letter :: tail, none, (spelled, value) =>
    match Switch.ofSpelling? spelled, value, Switch.ofLetter? letter with
    | some s, some [], _ => .ok (.valued s "")
    | some s, some value, _ => .ok (.cluster s value)
    | _, _, some s => .ok (.cluster s tail)
    | _, _, none => .ok (otherwise text)
  | _, _, _ => .ok (.operand (String.ofList text))

/-- What the arguments of a command line are. -/
def classifyAll : List String → Except UsageFault (List Argument)
  | [] => .ok []
  | "--" :: rest => .ok (.separator :: rest.map .operand)
  | text :: rest => do
    let first ← classify text.toList
    return first :: (← classifyAll rest)

/-- The switches of a cluster whose first letter is that of `s`. From the first character on that
is no switch's letter, the rest counts as a value of the switch before it, and is refused. -/
def expand (s : Switch) : List Char → Except UsageFault (List Switch)
  | [] => .ok [s]
  | c :: rest =>
    match Switch.ofLetter? c with
    | none => .error (.ignoredValue s (String.ofList (c :: rest)))
    | some next => do return s :: (← expand next rest)

end Argument

/-! ## Reading -/

/-- What a command line asks for. -/
structure Options where
  source : Option String := none
  isString : Bool := false
  tokens : Bool := false
  ast : Bool := false
  verbose : Bool := false
  deriving DecidableEq, Repr

/-- The options with a switch set; help is not one of them. -/
def Options.set (o : Options) : Switch → Options
  | .help => o
  | .string => { o with isString := true }
  | .tokens => { o with tokens := true }
  | .ast => { o with ast := true }
  | .verbose => { o with verbose := true }

/-- What a command line comes to. -/
inductive Request where
  | help
  | run (options : Options)
  deriving DecidableEq, Repr

namespace Options

/-- Reads arguments from left to right. The first operand is the source, and a separator beside it
belongs to it; `taken` says whether that has been read. What has no place is left over. A request
for help is answered at once. -/
def read (options : Options) (taken : Bool) (left : List String) :
    List Argument → Except UsageFault Request
  | [] => if left.isEmpty then .ok (.run options) else .error (.unrecognized left)
  | .operand text :: .separator :: rest =>
    if taken then read options taken (left ++ [text, "--"]) rest
    else read { options with source := some text } true left rest
  | .separator :: .operand text :: rest =>
    if taken then read options taken (left ++ ["--", text]) rest
    else read { options with source := some text } true left rest
  | .operand text :: rest =>
    if taken then read options taken (left ++ [text]) rest
    else read { options with source := some text } true left rest
  | .separator :: rest => read options true (if taken then left ++ ["--"] else left) rest
  | .switch s :: rest =>
    if s = .help then .ok .help else read (options.set s) taken left rest
  | .valued s value :: _ => .error (.ignoredValue s value)
  | .cluster s tail :: rest => do
    let switches ← Argument.expand s tail
    if switches.contains .help then return .help
    read (switches.foldl Options.set options) taken left rest
  | .unknown text :: rest => read options taken (left ++ [text]) rest

/-- What the arguments of a command line ask for. -/
def ofArguments (arguments : List String) : Except UsageFault Request := do
  read {} false [] (← Argument.classifyAll arguments)

end Options

end LoxCheck
