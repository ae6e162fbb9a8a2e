import LoxCheck.Grammar.Program
import LoxCheck.Lexical.Scan

/-!
# Checking a source text

`check` scans and parses a source text and collects what is wrong with it, lexical errors before
syntax errors.
-/

namespace LoxCheck

/-- What a source text reads as, with its lexical and syntax errors. -/
structure Checked where
  scan : Scan
  program : Declarations
  deriving Repr

/-- The scan of a source text and the parse of its tokens. -/
def check (source : String) : Checked :=
  let read := scan source
  ⟨read, Parse.program (room defaultMaxDepth 0) (.start read.body read.stop read.stop)⟩

namespace Checked

/-- The tokens of the source, the one for its end last. -/
def tokens (c : Checked) : List Token := c.scan.tokens

/-- The statements that could be read. -/
def statements (c : Checked) : List Stmt := c.program.statements

/-- Everything that is wrong with the source. -/
def diagnostics (c : Checked) : List Diagnostic :=
  c.scan.errors.map .lexical ++ c.program.errors.map .grammatical

end Checked

/-- The tokens of a scan can always be parsed, so checking a source cannot fail. -/
theorem parse_tokens_scan (source : String) :
    parse (scan source).tokens = .ok (check source).program := by
  have readable : ∀ token ∈ (scan source).body, token.kind ≠ .eof :=
    fun _ => kind_ne_eof_of_mem_scanFrom
  unfold parse Scan.tokens
  rw [TokenCursor.ofTokens?_append_singleton readable rfl]
  rfl

end LoxCheck
