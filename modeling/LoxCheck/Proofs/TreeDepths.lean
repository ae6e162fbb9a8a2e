import LoxCheck.Proofs.Soundness
import LoxCheck.Proofs.Verdict

/-!
# How deep trees are

On the way down a tree there are operators and names, which are leaves of their own, parentheses,
and blocks. The tokens of a source bound the leaves, and the limit of nesting bounds the parentheses
and the blocks. So a source with a moderate number of tokens, right or wrong, has a tree that fits
the room for its dump, and comes to a report.
-/

namespace LoxCheck

/-! ## Documents and calls -/

namespace Document

@[simp]
theorem depth_null : null.depth = 0 := rfl

@[simp]
theorem depth_text (value : String) : (text value).depth = 0 := rfl

@[simp]
theorem depth_list (items : List Document) : (list items).depth = itemsDepth items + 1 := rfl

@[simp]
theorem depth_record_nil : (record []).depth = 1 := rfl

@[simp]
theorem depth_record_cons (name : String) (value : Document) (fields : List (String × Document)) :
    (record ((name, value) :: fields)).depth = max (value.depth + 1) (record fields).depth := by
  simp only [depth, fieldsDepth, fieldDepth]
  omega

end Document

@[simp]
theorem Token.depth_toDocument (token : Token) : token.toDocument.depth = 1 := rfl

@[simp]
theorem Value.depth_toDocument (value : Value) : value.toDocument.depth = 0 := by
  cases value <;> rfl

/-- Even a leaf needs two calls. -/
theorem Expr.two_le_calls (expr : Expr) : 2 ≤ expr.calls := by
  induction expr <;> simp only [calls] <;> omega

/-- The record of an expression is no deeper than the calls that make it. -/
theorem Expr.depth_toDocument_le (expr : Expr) : expr.toDocument.depth ≤ expr.calls := by
  induction expr with
  | literal value => simp [toDocument, calls]
  | grouping inner ih => simp [toDocument, calls, ih]
  | unary operator operand ih =>
    have enough := operand.two_le_calls
    simp only [toDocument, calls, Document.depth_record_cons, Document.depth_record_nil,
      Document.depth_text, Token.depth_toDocument]
    omega
  | binary left operator right ihl ihr =>
    have enough := left.two_le_calls
    simp only [toDocument, calls, Document.depth_record_cons, Document.depth_record_nil,
      Document.depth_text, Token.depth_toDocument]
    omega
  | reference name => simp [toDocument, calls]
  | assign name value ih =>
    have enough := value.two_le_calls
    simp only [toDocument, calls, Document.depth_record_cons, Document.depth_record_nil,
      Document.depth_text, Token.depth_toDocument]
    omega

namespace Stmt

mutual

/-- The record of a statement is no deeper than the calls that make it. -/
theorem depth_toDocument_le (stmt : Stmt) : stmt.toDocument.depth ≤ stmt.calls := by
  cases stmt with
  | expression expr => simp [toDocument, calls, expr.depth_toDocument_le]
  | print expr => simp [toDocument, calls, expr.depth_toDocument_le]
  | declaration name initializer =>
    cases initializer with
    | none => simp [toDocument, calls]
    | some value =>
      have enough := value.two_le_calls
      have inside := value.depth_toDocument_le
      simp only [toDocument, calls, Document.depth_record_cons, Document.depth_record_nil,
        Document.depth_text, Token.depth_toDocument]
      omega
  | block statements =>
    have inside := itemsDepth_allToDocuments_le statements
    simp only [toDocument, calls, Document.depth_record_cons, Document.depth_record_nil,
      Document.depth_text, Document.depth_list]
    omega

theorem itemsDepth_allToDocuments_le (statements : List Stmt) :
    Document.itemsDepth (allToDocuments statements) + 2 ≤ allCalls statements := by
  cases statements with
  | nil => exact Nat.le_refl 2
  | cons stmt rest =>
    have first := depth_toDocument_le stmt
    have others := itemsDepth_allToDocuments_le rest
    simp only [allToDocuments, Document.itemsDepth, allCalls]
    omega

end

end Stmt

/-- A tree that needs few calls fits: its document has fewer levels than it needs calls. -/
theorem DumpRoom.fits_of_allCalls_le {room : DumpRoom} {statements : List Stmt}
    (converted : Stmt.allCalls statements ≤ room.conversion)
    (written : Stmt.allCalls statements ≤ room.writing + 1) : room.Fits statements := by
  refine ⟨converted, ?_⟩
  have shallow := Stmt.itemsDepth_allToDocuments_le statements
  rw [programDocument, Document.depth_list]
  omega

/-! ## Calls and derivations -/

namespace Grammar

/-- How many calls a tree may need beyond its leaves and its nesting. An expression has a level of
nesting to itself, which accounts for the last call. -/
def Nonterminal.slack : Nonterminal → Nat
  | .expression => 0
  | _ => 1

theorem BinaryLevel.slack_operand (level : BinaryLevel) : level.operand.slack = 1 := by
  cases level <;> rfl

/-- Operators and names are leaves, and parentheses are around an expression, which has a level to
itself. So a derived tree needs a call for each leaf, one for each level, and at most one more. -/
theorem Derives.calls_le {symbol : Nonterminal} {tokens : List Token} {nesting : Nat} {tree : Expr}
    (h : Derives symbol tokens nesting tree) :
    tree.calls ≤ tree.leaves.length + nesting + symbol.slack := by
  induction h with
  | expression _ ih =>
    simp only [Nonterminal.slack] at *
    omega
  | assign _ _ _ ih =>
    simp only [Nonterminal.slack, Expr.calls, Expr.leaves, List.length_cons] at *
    omega
  | equality _ ih => exact ih
  | @operand level _ _ _ _ ih =>
    rw [level.slack_operand] at ih
    exact ih
  | @chain level _ _ _ _ _ _ _ _ _ _ ihl ihr =>
    rw [level.slack_operand] at ihr
    simp only [Nonterminal.slack, Expr.calls, Expr.leaves, List.length_append,
      List.length_cons] at *
    omega
  | unary _ _ ih =>
    simp only [Nonterminal.slack, Expr.calls, Expr.leaves, List.length_cons] at *
    omega
  | primary _ ih => exact ih
  | literal | kwTrue | kwFalse | kwNil | reference => exact Nat.le_refl 2
  | grouping _ _ _ ih => exact Nat.succ_le_succ ih

mutual

/-- A block takes three calls, and each is on a level of its own. -/
theorem Declaration.calls_le {tokens : List Token} {nesting : Nat} {statement : Stmt}
    (h : Declaration tokens nesting statement) :
    statement.calls ≤ statement.leaves.length + 3 * nesting + 1 := by
  cases h with
  | bare => exact Nat.le_refl 2
  | initialized _ _ _ value =>
    have inside := value.calls_le
    simp only [Nonterminal.slack, Stmt.calls, Stmt.leaves, List.length_cons,
      Option.elim_some] at *
    omega
  | print _ value =>
    have inside := value.calls_le
    simp only [Nonterminal.slack, Stmt.calls, Stmt.leaves] at *
    omega
  | block _ statements =>
    have inside := statements.allCalls_le
    simp only [Stmt.calls, Stmt.leaves]
    omega
  | expression value =>
    have inside := value.calls_le
    simp only [Nonterminal.slack, Stmt.calls, Stmt.leaves] at *
    omega

theorem Program.allCalls_le {tokens : List Token} {nesting : Nat} {statements : List Stmt}
    (h : Program tokens nesting statements) :
    Stmt.allCalls statements ≤ (Stmt.allLeaves statements).length + 3 * nesting + 3 := by
  cases h with
  | nil => exact Nat.le_succ 2
  | cons first others =>
    have head := first.calls_le
    have tail := others.allCalls_le
    simp only [Stmt.allCalls, Stmt.allLeaves, List.length_append]
    omega

end

end Grammar

/-! ## Calls and sources -/

/-- Each leaf has a token of its own. -/
theorem Gathered.length_le {c after : TokenCursor} {leaves : List Leaf}
    (h : Gathered c leaves after) : leaves.length ≤ c.ahead.length := by
  obtain ⟨n, -, read⟩ := h
  obtain ⟨kept, each, sub⟩ := List.sublistForall₂_iff.1 read
  rw [each.length_eq]
  exact (sub.trans (List.take_sublist n _)).length_le

/-- The statements that a parse returns, with or without errors, need a call for each token that is
ahead, and three for each level. -/
theorem Parse.allCalls_program_le (room : Nat) (c : TokenCursor) :
    Stmt.allCalls (program room c).statements ≤ c.ahead.length + 3 * room + 3 := by
  obtain ⟨tokens, nesting, fits, derived, -⟩ := Grammar.sound_program room c
  have calls := derived.allCalls_le
  have leaves := (gathered_program room c).length_le
  omega

namespace Command

/-- A text with a moderate number of tokens comes to a report, whatever is asked for and whatever is
wrong with it. -/
theorem checkText_of_few_tokens {room : DumpRoom} {source : String}
    (converted : (scan source).tokens.length + 194 ≤ room.conversion)
    (written : (scan source).tokens.length + 193 ≤ room.writing) (options : Options) :
    ∃ report, checkText room options source = .ok report ∧
      (report.status = .ok ∨ report.status = .badSource) := by
  have ending : (scan source).tokens.length = (scan source).body.length + 1 :=
    List.length_append
  have calls : Stmt.allCalls (check source).statements ≤ (scan source).body.length + 3 * 64 + 3 :=
    Parse.allCalls_program_le (LoxCheck.room defaultMaxDepth 0) _
  rcases checkText_cases room options source with ⟨-, unfit, -⟩ | reported
  · exact absurd (DumpRoom.fits_of_allCalls_le (by omega) (by omega)) unfit
  · exact reported

/-- The standard room is enough for every text of less than eight hundred tokens. -/
theorem checkText_standard {source : String} (few : (scan source).tokens.length ≤ 799)
    (options : Options) :
    ∃ report, checkText .standard options source = .ok report ∧
      (report.status = .ok ∨ report.status = .badSource) := by
  apply checkText_of_few_tokens
  · exact Nat.le_trans (Nat.add_le_add_right few 194) (by decide)
  · exact Nat.le_trans (Nat.add_le_add_right few 193) (by decide)

end Command

end LoxCheck
