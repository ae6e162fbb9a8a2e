import LoxCheck.Proofs.StepTheorems

/-!
# Fatal errors

All errors but invalid assignment targets are fatal: the step that records one gives up. A step of
the grammar of expressions that gives up has recorded one fatal error, the last of all, and one that
has a result has recorded none. The same holds of declarations that are not blocks.
-/

namespace LoxCheck

/-- An error that is more than a target of an assignment that is no name. -/
def SyntaxError.isFatal (e : SyntaxError) : Bool := decide (e.problem ≠ .invalidTarget)

/-- The errors among some that are fatal. -/
def fatalErrors (errors : List SyntaxError) : List SyntaxError := errors.filter SyntaxError.isFatal

theorem fatalErrors_append (first second : List SyntaxError) :
    fatalErrors (first ++ second) = fatalErrors first ++ fatalErrors second :=
  List.filter_append ..

theorem fatalErrors_singleton {e : SyntaxError} (h : e.isFatal = true) : fatalErrors [e] = [e] :=
  List.filter_cons_of_pos h

/-! ## Accounts of errors -/

section

variable {α β : Type} {told told' : List SyntaxError} {o : Outcome α} {o' : Outcome β}

/-- The fatal errors of an outcome are those that are told, and one more as its last error if it has
no result. -/
structure Accounted (told : List SyntaxError) (o : Outcome α) : Prop where
  returned : o.result.isSome = true → fatalErrors o.errors = told
  failed : o.result = none → ∃ before last, o.errors = before ++ [last] ∧ last.isFatal = true ∧
    fatalErrors before = told

namespace Accounted

/-- A result behind errors that are told. -/
theorem of_some (errors : List SyntaxError) (h : fatalErrors errors = told) (a : α)
    (after : TokenCursor) : Accounted told ⟨some a, errors, after⟩ where
  returned _ := h
  failed nothing := absurd nothing (by simp)

/-- A fatal error behind errors that are told. -/
theorem of_none (errors : List SyntaxError) (h : fatalErrors errors = told)
    {problem : SyntaxProblem} (fatal : problem ≠ .invalidTarget) (token : Token)
    (after : TokenCursor) :
    Accounted told (⟨none, errors ++ [SyntaxError.at problem token], after⟩ : Outcome α) where
  returned something := absurd something (by simp)
  failed _ := ⟨errors, _, rfl, decide_eq_true fatal, h⟩

/-- A step that gives up passes its errors on. -/
theorem gaveUp (h : Accounted told o) (nothing : o.result = none) :
    Accounted told (⟨none, o.errors, o.cursor⟩ : Outcome β) where
  returned something := absurd something (by simp)
  failed _ := h.failed nothing

/-- Behind a step that has a result, another is accounted for with it. -/
theorem append (first : Accounted told o) (found : o.result.isSome = true)
    (second : Accounted told' o') :
    Accounted (told ++ told') (⟨o'.result, o.errors ++ o'.errors, o'.cursor⟩ : Outcome β) where
  returned something := by
    rw [fatalErrors_append, first.returned found, second.returned something]
  failed nothing := by
    obtain ⟨before, last, eq, fatal, counted⟩ := second.failed nothing
    refine ⟨o.errors ++ before, last, by rw [eq, List.append_assoc], fatal, ?_⟩
    rw [fatalErrors_append, first.returned found, counted]

/-- Where nothing is told, one fatal error has been recorded if there is no result, and none if there
is one. -/
theorem countP (h : Accounted [] o) :
    o.errors.countP SyntaxError.isFatal = if o.result.isSome then 0 else 1 := by
  rw [List.countP_eq_length_filter]
  show (fatalErrors o.errors).length = _
  cases hr : o.result with
  | some a =>
    rw [h.returned (by rw [hr]; rfl)]
    rfl
  | none =>
    obtain ⟨before, last, eq, fatal, counted⟩ := h.failed hr
    rw [eq, fatalErrors_append, counted, fatalErrors_singleton fatal]
    rfl

/-- Without a result a fatal error has been recorded last. -/
theorem getLast (h : Accounted told o) (nothing : o.result = none) :
    ∃ last, o.errors.getLast? = some last ∧ last.isFatal = true := by
  obtain ⟨before, last, eq, fatal, -⟩ := h.failed nothing
  exact ⟨last, by rw [eq, List.getLast?_concat], fatal⟩

end Accounted

end

/-! ## Expressions -/

namespace Parse

variable {α β : Type}

/-- A step that records one fatal error, as its last error, if it has no result, and none if it has
one. -/
def ReportsOnce (p : Parse α) : Prop := ∀ c, Accounted [] (p c)

theorem ReportsOnce.andThen {p : Parse α} {f : α → Parse β} (hp : ReportsOnce p)
    (hf : ∀ a, ReportsOnce (f a)) : ReportsOnce (p.andThen f) := by
  intro c
  cases hr : (p c).result with
  | none =>
    rw [andThen_of_none hr]
    exact (hp c).gaveUp hr
  | some a =>
    rw [andThen_of_some hr]
    exact (hp c).append (by rw [hr]; rfl) (hf a (p c).cursor)

/-- A step that has a result has recorded nothing but invalid targets. -/
theorem ReportsOnce.targets {p : Parse α} (h : ReportsOnce p) {c : TokenCursor} {a : α}
    (found : (p c).result = some a) : ∀ e ∈ (p c).errors, e.problem = .invalidTarget := by
  have none_fatal : fatalErrors (p c).errors = [] := (h c).returned (by rw [found]; rfl)
  intro e he
  simpa [SyntaxError.isFatal] using List.filter_eq_nil_iff.1 none_fatal e he

theorem reportsOnce_done (a : α) : ReportsOnce (done a) := fun c => .of_some [] rfl a c

theorem reportsOnce_fail {problem : SyntaxProblem} (fatal : problem ≠ .invalidTarget) :
    ReportsOnce (fail problem : Parse α) :=
  fun c => .of_none [] rfl fatal c.current c

theorem reportsOnce_takeIf (kinds : List TokenKind) : ReportsOnce (takeIf kinds) := by
  intro c
  rcases takeIf_cases kinds c with ⟨token, rest, -, -, eq⟩ | ⟨-, eq⟩ <;> rw [eq]
  · exact .of_some [] rfl _ _
  · exact .of_some [] rfl _ _

theorem reportsOnce_sequential : Sequential fun _ p _ => ReportsOnce p where
  done := reportsOnce_done
  andThen := ReportsOnce.andThen
  takeIf _ := reportsOnce_takeIf _

/-- A chain of operators gives up with the operand that does. -/
theorem ReportsOnce.binaryLevel {operators : List TokenKind} {operand : Parse Expr}
    (h : ReportsOnce operand) (listed : ∀ kind ∈ operators, kind ∈ expressionKinds) :
    ReportsOnce (binaryLevel operators operand) :=
  h.andThen fun left c =>
    @Sequential.binaryTail _ reportsOnce_sequential _ operand operand listed h c.ahead left c

theorem reportsOnce_level : LevelClosed fun _ p _ => ReportsOnce p where
  toSequential := reportsOnce_sequential
  binaryLevel listed h := h.binaryLevel listed

/-- A target that is no name is reported and the step goes on. -/
theorem reportsOnce_closed : ExpressionClosed fun _ p _ => ReportsOnce p where
  toLevelClosed := reportsOnce_level
  fail := reportsOnce_fail
  overflow _ := reportsOnce_fail (by decide)
  assignment := @LevelClosed.assignment _ reportsOnce_level fun token c =>
    .of_some [SyntaxError.at .invalidTarget token] rfl () c

theorem reportsOnce_expression (room : Nat) : ReportsOnce (expression room) :=
  reportsOnce_closed.expression (Nat.le_refl room)

theorem reportsOnce_unary (room : Nat) : ReportsOnce (unary room) :=
  (reportsOnce_closed.expression_and_unary (Nat.le_refl room)).2

/-! ## Statements without a block -/

theorem reportsOnce_simple : SimpleClosed fun _ p _ => ReportsOnce p where
  toExpressionClosed := reportsOnce_closed
  takeAny _ := reportsOnce_takeIf _

section

variable {expression : Parse Expr}

theorem ReportsOnce.expressionStatement (h : ReportsOnce expression) :
    ReportsOnce (expressionStatement expression) :=
  @SimpleClosed.expressionStatement _ expression expression reportsOnce_simple h

theorem ReportsOnce.printStatement (h : ReportsOnce expression) :
    ReportsOnce (printStatement expression) :=
  @SimpleClosed.printStatement _ expression expression reportsOnce_simple h

theorem ReportsOnce.varDeclaration (h : ReportsOnce expression) :
    ReportsOnce (varDeclaration expression) :=
  @SimpleClosed.varDeclaration _ expression expression reportsOnce_simple h

end

theorem reportsOnce_overdeepBlock : ReportsOnce overdeepBlock :=
  fun c => .of_none [] rfl (by decide) c.current c.skipBlock

end Parse

end LoxCheck
