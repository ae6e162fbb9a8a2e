import LoxCheck.Proofs.CallSequences
import LoxCheck.Proofs.FatalErrors
import LoxCheck.Proofs.TracedGrammar

/-!
# Failures are reported once

The fatal errors of a parse are, in order, the errors that the calls for declarations that came to
nothing recorded last. A block that is not closed reports that behind all errors of its
declarations, so that failures in a block and of the block are told apart.
-/

namespace LoxCheck

/-! ## Reports of calls -/

namespace DeclarationCall

/-- A call that came to nothing. -/
def failed (call : DeclarationCall) : Bool := call.outcome.result.isNone

/-- What a call that came to nothing recorded last, before any recovery. -/
def report? (call : DeclarationCall) : Option SyntaxError :=
  if call.failed then call.attempt.errors.getLast? else none

/-- What the calls among some that came to nothing recorded last, in their order. -/
def reports (calls : List DeclarationCall) : List SyntaxError := calls.filterMap report?

theorem reports_append (first second : List DeclarationCall) :
    reports (first ++ second) = reports first ++ reports second :=
  List.filterMap_append ..

theorem result_outcome (call : DeclarationCall) : call.outcome.result = call.attempt.result :=
  Parse.result_recovering _ _

theorem errors_outcome (call : DeclarationCall) : call.outcome.errors = call.attempt.errors :=
  Parse.errors_recovering _ _

/-- The error that a declaration gives up with is the report of its own call. -/
theorem fatalErrors_outcome {call : DeclarationCall} {calls : List DeclarationCall}
    (h : Accounted (reports calls) call.attempt) :
    fatalErrors call.outcome.errors = reports (calls ++ [call]) := by
  rw [call.errors_outcome, reports_append]
  cases hr : call.attempt.result with
  | some statement =>
    have own : reports [call] = [] := by
      simp [reports, report?, failed, call.result_outcome, hr]
    rw [own, List.append_nil, h.returned (by rw [hr]; rfl)]
  | none =>
    obtain ⟨before, last, eq, fatal, counted⟩ := h.failed hr
    have own : reports [call] = [last] := by
      simp [reports, report?, failed, call.result_outcome, hr, eq]
    rw [own, eq, fatalErrors_append, counted, fatalErrors_singleton fatal]

end DeclarationCall

open DeclarationCall (reports reports_append)

/-! ## Declarations and blocks -/

namespace Traced

open Parse

variable {α β : Type}

/-- A traced step whose fatal errors are the reports of the calls that it tells, and one more as its
last error if it has no result. -/
def Accounts (t : Traced α) : Prop := ∀ c, Accounted (reports (t c).2) (t c).1

/-- A traced step whose fatal errors are all reports of the calls that it tells. -/
def Balanced (t : Traced α) : Prop := ∀ c, fatalErrors (t c).1.errors = reports (t c).2

theorem Accounts.andThen {t : Traced α} {f : α → Traced β} (h : Accounts t)
    (hf : ∀ a, Accounts (f a)) : Accounts (t.andThen f) := by
  intro c
  cases hr : (t c).1.result with
  | none =>
    rw [andThen_of_none hr]
    exact (h c).gaveUp hr
  | some a =>
    rw [andThen_of_some hr, reports_append]
    exact (h c).append (by rw [hr]; rfl) (hf a (t c).1.cursor)

/-- The two ways to go on after looking for a token. -/
theorem Accounts.choice {kinds : List TokenKind} {f : Option Token → Traced β}
    (taken : ∀ token, Accounts (f (some token))) (left : Accounts (f none)) :
    Accounts ((silent (takeIf kinds)).andThen f) := by
  have looked : Accounts (silent (takeIf kinds)) := reportsOnce_takeIf kinds
  refine looked.andThen fun found => ?_
  cases found with
  | none => exact left
  | some token => exact taken token

section

variable {room : Nat} {t : Traced Stmt}

theorem Accounts.attemptWith (h : Accounts t) : Accounts (attemptWith (expression room) t) := by
  have inner : ReportsOnce (expression room) := reportsOnce_expression room
  have statement : Accounts (statementWith (expression room) t) :=
    .choice (fun _ => inner.printStatement) (.choice (fun _ => h) inner.expressionStatement)
  exact .choice (fun _ => inner.varDeclaration) statement

theorem Balanced.declarations (h : Balanced t) (stops : List TokenKind) (fuel : List Token)
    (c : TokenCursor) :
    fatalErrors (declarations stops t fuel c).1.errors =
      reports (declarations stops t fuel c).2 := by
  induction fuel generalizing c with
  | nil => rfl
  | cons token fuel ih =>
    unfold Traced.declarations
    split
    · rfl
    · show fatalErrors ((t c).1.errors ++ _) = reports ((t c).2 ++ _)
      rw [fatalErrors_append, reports_append, h c, ih]

/-- A block gives up at the end of the tokens, behind all errors of its declarations. -/
theorem Balanced.blockWith (h : Balanced t) : Accounts (blockWith t) := by
  intro c
  have body := h.declarations [.rightBrace] c.ahead c
  let ended := (Traced.declarations [.rightBrace] t c.ahead c).1.cursor
  rcases expect_cases .rightBrace .expectBraceAfterBlock ended with
    ⟨token, rest, -, -, eq⟩ | ⟨-, eq⟩
  · simp only [Traced.blockWith, ended, eq, List.append_nil]
    exact .of_some _ body _ _
  · simp only [Traced.blockWith, ended, eq]
    exact .of_none _ body (by decide) _ _

theorem Accounts.attempt (h : Accounts (block room)) (c : TokenCursor) :
    Accounted (reports (Traced.attemptWith (expression room) (block room) c).2)
      (Parse.attempt room c) := by
  rw [← (erases_block room).attemptWith c]
  exact h.attemptWith c

/-- The error that a declaration gives up with is the report of its own call. -/
theorem Accounts.declaration (h : Accounts (block room)) : Balanced (declaration room) := by
  intro c
  rw [erases_declaration room c]
  exact @DeclarationCall.fatalErrors_outcome ⟨room, c⟩ _ (h.attempt c)

end

theorem accounts_block (room : Nat) : Accounts (block room) := by
  induction room with
  | zero => exact reportsOnce_overdeepBlock
  | succ room ih => exact ih.declaration.blockWith

/-- The fatal errors of a program are the reports of the calls for declarations in it. -/
theorem fatalErrors_program (room : Nat) (c : TokenCursor) :
    fatalErrors (Parse.program room c).errors = reports (program room c).2 := by
  rw [← erases_program room c]
  exact (accounts_block room).declaration.declarations [] c.ahead c

end Traced

namespace DeclarationCall

/-- A call that comes to nothing has recorded a fatal error last. -/
theorem exists_getLast (call : DeclarationCall) (h : call.failed = true) :
    ∃ last, call.attempt.errors.getLast? = some last ∧ last.isFatal = true := by
  have nothing : call.attempt.result = none := by
    rw [← call.result_outcome]
    exact Option.isNone_iff_eq_none.1 h
  exact ((Traced.accounts_block call.room).attempt call.start).getLast nothing

/-- Calls that come to nothing have one report each. -/
theorem length_reports (calls : List DeclarationCall) :
    (reports calls).length = calls.countP failed := by
  rw [reports, List.length_filterMap_eq_countP]
  apply List.countP_congr
  intro call _
  cases h : call.failed with
  | false => simp [report?, h]
  | true =>
    obtain ⟨last, eq, -⟩ := call.exists_getLast h
    simp [report?, h, eq]

end DeclarationCall

/-! ## Calls -/

/-- From a state a call came to this answer and state, and recorded one fatal error, as its last
error, if it returned nothing, and none if it returned something. -/
def ReportedOnce {α : Type} (p : ParseState) (answer : Option α × ParseState) : Prop :=
  ∃ recorded, answer.2.errors = p.errors ++ recorded ∧
    recorded.countP SyntaxError.isFatal = (if answer.1.isSome then 0 else 1) ∧
    (answer.1 = none → ∃ last, recorded.getLast? = some last ∧ last.isFatal = true)

theorem Parse.ReportsOnce.run {α : Type} {step : Parse α} (h : ReportsOnce step)
    (p : ParseState) : ReportedOnce p (p.run step) :=
  ⟨(step p.cursor).errors, rfl, (h p.cursor).countP, (h p.cursor).getLast⟩

/-- The calls of steps of the grammar of expressions. -/
def Call.ofExpressions : List (Call (Option Expr)) :=
  [.expression, .assignment, .equality, .comparison, .term, .factor, .unary, .primary]

theorem Call.reportedOnce_run {call : Call (Option Expr)} (listed : call ∈ ofExpressions)
    (p : ParseState) : ReportedOnce p (call.run p) := by
  have unary := Parse.reportsOnce_unary p.room
  have expression := Parse.reportsOnce_expression p.room
  -- a level of operators is a chain over the level below
  have factor : Parse.ReportsOnce (Parse.factor (Parse.unary p.room)) :=
    unary.binaryLevel (by decide)
  have term : Parse.ReportsOnce (Parse.term (Parse.unary p.room)) :=
    factor.binaryLevel (by decide)
  have comparison : Parse.ReportsOnce (Parse.comparison (Parse.unary p.room)) :=
    term.binaryLevel (by decide)
  have equality : Parse.ReportsOnce (Parse.equality (Parse.unary p.room)) :=
    comparison.binaryLevel (by decide)
  have assignment : Parse.ReportsOnce
      (Parse.assignmentWith (Parse.unary p.room) (Parse.expression p.room)) :=
    Parse.reportsOnce_expression (p.room + 1)
  have primary : Parse.ReportsOnce (Parse.primaryWith (Parse.expression p.room)) :=
    @Parse.ExpressionClosed.primaryWith _ Parse.reportsOnce_closed _
      (Parse.expression p.room) expression
  simp only [ofExpressions, List.mem_cons, List.not_mem_nil, or_false] at listed
  rcases listed with rfl | rfl | rfl | rfl | rfl | rfl | rfl | rfl
  · exact expression.run p
  · exact assignment.run p
  · exact equality.run p
  · exact comparison.run p
  · exact term.run p
  · exact factor.run p
  · exact unary.run p
  · exact primary.run p

/-- Every failure is reported once. From every state, a step of the grammar of expressions records
no fatal error if it returns something, and one, as its last error, if it returns nothing. A parse
records as many fatal errors as there are calls for declarations in it that return nothing, at top
level and in blocks: in their order, the errors that these calls recorded last before any
recovery. -/
theorem failures_reported_once :
    (∀ (p : ParseState), ∀ call ∈ Call.ofExpressions, ReportedOnce p (call.run p)) ∧
    ∀ (tokens : List Token) (last : Token) (maxDepth : Int),
      tokens.getLast? = some last → last.kind = .eof →
      ∃ d calls, parse tokens maxDepth = .ok d ∧ Traced.parse tokens maxDepth = .ok (d, calls) ∧
        d.errors.countP SyntaxError.isFatal = calls.countP DeclarationCall.failed ∧
        fatalErrors d.errors = reports calls ∧
        ∀ call ∈ calls, call.failed = true →
          ∃ last, call.attempt.errors.getLast? = some last ∧ last.isFatal = true := by
  refine ⟨fun p call listed => Call.reportedOnce_run listed p, ?_⟩
  intro tokens last maxDepth present ends
  obtain ⟨start, begun⟩ := TokenCursor.ofTokens?_of_getLast? present ends
  let d := Parse.program (room maxDepth 0) start
  let calls := (Traced.program (room maxDepth 0) start).2
  have traced : Traced.parse tokens maxDepth = .ok (d, calls) := by
    rw [Traced.parse, begun]
    exact congrArg Except.ok (Prod.ext (Traced.erases_program _ start) rfl)
  have told : fatalErrors d.errors = reports calls := Traced.fatalErrors_program _ start
  refine ⟨d, calls, by rw [parse, begun], traced, ?_, told, fun call _ => call.exists_getLast⟩
  rw [List.countP_eq_length_filter, ← DeclarationCall.length_reports, ← told]
  rfl

/-- The tokens of `{ 1 = nil; { { { } } } print; nil`. -/
def brokenBlock : List Token :=
  [⟨.leftBrace, "\x7b", .nil, 1⟩, ⟨.number, "1", .nil, 2⟩, ⟨.equal, "=", .nil, 2⟩,
    ⟨.kwNil, "nil", .nil, 2⟩, ⟨.semicolon, ";", .nil, 2⟩, ⟨.leftBrace, "\x7b", .nil, 3⟩,
    ⟨.leftBrace, "\x7b", .nil, 3⟩, ⟨.leftBrace, "\x7b", .nil, 3⟩, ⟨.rightBrace, "\x7d", .nil, 3⟩,
    ⟨.rightBrace, "\x7d", .nil, 3⟩, ⟨.rightBrace, "\x7d", .nil, 3⟩, ⟨.kwPrint, "print", .nil, 4⟩,
    ⟨.semicolon, ";", .nil, 4⟩, ⟨.kwNil, "nil", .nil, 5⟩, ⟨.eof, "", .nil, 5⟩]

/-- Within three levels four calls come to nothing, the one around the others last: for a block that
is too deep, for `print;`, for `nil` and for the block that is not closed. The invalid target is a
fifth error and no failure. -/
theorem failures_reported_once_brokenBlock :
    ∃ d calls, parse brokenBlock 3 = .ok d ∧ Traced.parse brokenBlock 3 = .ok (d, calls) ∧
      calls.length = 7 ∧ calls.countP DeclarationCall.failed = 4 ∧ d.errors.length = 5 ∧
      d.errors.countP SyntaxError.isFatal = 4 ∧ fatalErrors d.errors = reports calls := by
  obtain ⟨d, calls, parsed, traced, counted, told, -⟩ :=
    failures_reported_once.2 brokenBlock ⟨.eof, "", .nil, 5⟩ 3 rfl rfl
  have sizes : (Traced.parse brokenBlock 3).map
      (fun a => (a.2.length, a.2.countP DeclarationCall.failed, a.1.errors.length)) =
      .ok (7, 4, 5) := by decide +kernel
  rw [traced] at sizes
  obtain ⟨length, failed, errors⟩ := by simpa [Except.map] using sizes
  exact ⟨d, calls, parsed, traced, length, failed, errors, counted.trans failed, told⟩

end LoxCheck
