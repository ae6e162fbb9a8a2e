import LoxCheck.Token

/-!
# Cursor over a token sequence

A cursor stands at the next token to read. Only the tokens before the first end-of-source token can
be read; the cursor stops at that one, and what follows it is never looked at.
-/

namespace LoxCheck

/-- A position in a token sequence. -/
structure TokenCursor where
  /-- The number of tokens read. -/
  position : Nat := 0
  /-- The token read last; before the first one is read, the last token of the sequence. -/
  previous : Token
  /-- The tokens that can be read. -/
  ahead : List Token
  /-- The end-of-source token after them. -/
  stop : Token
  /-- The position after the block that was skipped last. -/
  skippedTo : Option Nat := none
  deriving DecidableEq, Repr

namespace TokenCursor

/-- A cursor at the start of a sequence that holds tokens, an end-of-source token, and possibly
more, of which the last is given. -/
def start (ahead : List Token) (stop last : Token) : TokenCursor :=
  { previous := last, ahead, stop }

/-- A cursor at the start of a sequence that ends with an end-of-source token. -/
def ofTokens? (tokens : List Token) : Option TokenCursor :=
  match tokens.getLast? with
  | none => none
  | some last =>
    if last.kind = .eof then
      let ahead := tokens.takeWhile (·.kind ≠ .eof)
      some (start ahead ((tokens.drop ahead.length).headD last) last)
    else none

theorem ofTokens?_append_singleton {body : List Token} {stop : Token}
    (readable : ∀ token ∈ body, token.kind ≠ .eof) (ends : stop.kind = .eof) :
    ofTokens? (body ++ [stop]) = some (start body stop stop) := by
  have ahead : (body ++ [stop]).takeWhile (·.kind ≠ .eof) = body := by
    rw [List.takeWhile_append_of_pos (by simpa using readable)]
    simp [ends]
  simp only [ofTokens?, List.getLast?_concat, ends, ↓reduceIte, ahead, List.drop_left,
    List.headD_cons]

/-- The token that the cursor stands at. -/
def current (c : TokenCursor) : Token := c.ahead.headD c.stop

/-- Whether no token is left to read. -/
def atEnd (c : TokenCursor) : Bool := c.ahead.isEmpty

/-- Reads the current token, if it is not the end. -/
def advance (c : TokenCursor) : TokenCursor :=
  match c.ahead with
  | [] => c
  | token :: rest => { c with position := c.position + 1, previous := token, ahead := rest }

/-- Reads a number of tokens. -/
def skip : Nat → TokenCursor → TokenCursor
  | 0, c => c
  | n + 1, c => skip n c.advance

/-! ## Recovery -/

/-- How many tokens stand before the first statement boundary: the end, the place after a
semicolon, or a keyword that begins a statement. `previous` is the token before them. -/
def boundary (previous : Token) : List Token → Nat
  | [] => 0
  | token :: rest =>
    if previous.kind = .semicolon || token.kind.startsStatement then 0
    else boundary token rest + 1

/-- Discards tokens up to a statement boundary. If nothing was read since `start`, the current
token is discarded first. -/
def toBoundary (start : Int) (c : TokenCursor) : TokenCursor :=
  let c := if c.position = start then c.advance else c
  c.skip (boundary c.previous c.ahead)

/-- How many tokens a block takes through its closing brace, or up to the end if it has none, when
`depth` blocks inside it are open. -/
def blockLength (depth : Nat) : List Token → Nat
  | [] => 0
  | token :: rest =>
    match token.kind, depth with
    | .leftBrace, _ => blockLength (depth + 1) rest + 1
    | .rightBrace, 0 => 1
    | .rightBrace, inner + 1 => blockLength inner rest + 1
    | _, _ => blockLength depth rest + 1

/-- Discards the rest of a block through its closing brace and remembers where it ended. -/
def skipBlock (c : TokenCursor) : TokenCursor :=
  let after := c.skip (blockLength 0 c.ahead)
  { after with skippedTo := some after.position }

/-- Whether the tokens up to here end with a block that was skipped after `start`. -/
def endsSkipped (start : Nat) (c : TokenCursor) : Bool :=
  match c.skippedTo with
  | some position => start < position && position == c.position
  | none => false

end TokenCursor

end LoxCheck
