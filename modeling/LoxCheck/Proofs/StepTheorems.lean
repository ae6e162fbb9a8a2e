import LoxCheck.Grammar.Program
import LoxCheck.Proofs.CursorTheorems

/-!
# Parsing steps in sequence

What the basic steps do, and a principle for proving something of every step of the grammar, or of
such a step and the same one with more room: what holds of the basic steps and is kept by the ways
of combining steps holds of expressions (`ExpressionClosed`) and of declarations and blocks
(`StatementClosed`).
-/

namespace LoxCheck

/-- The kinds of the unary and binary operators. -/
def operatorKinds : List TokenKind :=
  [.bang, .minus, .plus, .slash, .star, .bangEqual, .equalEqual, .greater, .greaterEqual, .less,
    .lessEqual]

namespace Parse

variable {α β : Type}

/-! ## Basic steps -/

theorem andThen_of_none {p : Parse α} {f : α → Parse β} {c : TokenCursor}
    (h : (p c).result = none) : p.andThen f c = ⟨none, (p c).errors, (p c).cursor⟩ := by
  unfold andThen
  split
  · next heq => rw [heq]
  · next heq =>
    rw [heq] at h
    exact absurd h (by simp)

theorem andThen_of_some {p : Parse α} {f : α → Parse β} {c : TokenCursor} {a : α}
    (h : (p c).result = some a) :
    p.andThen f c = ⟨(f a (p c).cursor).result, (p c).errors ++ (f a (p c).cursor).errors,
      (f a (p c).cursor).cursor⟩ := by
  unfold andThen
  split
  · next heq =>
    rw [heq] at h
    exact absurd h (by simp)
  · next b errors after heq =>
    rw [heq] at h
    obtain rfl : b = a := by simpa using h
    rw [heq]

/-- A token of one of the kinds is read, any other is left. -/
theorem takeIf_cases (kinds : List TokenKind) (c : TokenCursor) :
    (∃ token rest, c.ahead = token :: rest ∧ token.kind ∈ kinds ∧
      takeIf kinds c = ⟨some (some token), [], c.advance⟩) ∨
    ((∀ token ∈ c.ahead.head?, token.kind ∉ kinds) ∧ takeIf kinds c = ⟨some none, [], c⟩) := by
  cases h : c.ahead with
  | nil =>
    refine .inr ⟨by simp, ?_⟩
    unfold takeIf
    rw [h]
  | cons token rest =>
    by_cases listed : token.kind ∈ kinds
    · refine .inl ⟨token, rest, rfl, listed, ?_⟩
      simp only [takeIf, h, List.contains_iff_mem, listed, if_true]
    · refine .inr ⟨by simpa using listed, ?_⟩
      simp only [takeIf, h, List.contains_iff_mem, listed, if_false]

theorem takeIf_of_mem {kinds : List TokenKind} {c : TokenCursor} {token : Token}
    {rest : List Token} (h : c.ahead = token :: rest) (listed : token.kind ∈ kinds) :
    takeIf kinds c = ⟨some (some token), [], c.advance⟩ := by
  rcases takeIf_cases kinds c with ⟨token', rest', h', -, eq⟩ | ⟨unlisted, -⟩
  · rw [h] at h'
    obtain ⟨rfl, rfl⟩ := List.cons.inj h'
    exact eq
  · exact absurd listed (unlisted token (by simp [h]))

theorem takeIf_of_not_mem {kinds : List TokenKind} {c : TokenCursor}
    (unlisted : ∀ token ∈ c.ahead.head?, token.kind ∉ kinds) :
    takeIf kinds c = ⟨some none, [], c⟩ := by
  rcases takeIf_cases kinds c with ⟨token, rest, h, listed, -⟩ | ⟨-, eq⟩
  · exact absurd listed (unlisted token (by simp [h]))
  · exact eq

/-- A token of the kind is read; any other is an error, and is left. -/
theorem expect_cases (kind : TokenKind) (problem : SyntaxProblem) (c : TokenCursor) :
    (∃ token rest, c.ahead = token :: rest ∧ token.kind = kind ∧
      expect kind problem c = ⟨some token, [], c.advance⟩) ∨
    ((∀ token ∈ c.ahead.head?, token.kind ≠ kind) ∧
      expect kind problem c = ⟨none, [SyntaxError.at problem c.current], c⟩) := by
  -- asking for a token is looking for it and reporting that it is missing
  show (∃ token rest, _ ∧ _ ∧ (takeIf [kind]).andThen _ c = _) ∨
    (_ ∧ (takeIf [kind]).andThen _ c = _)
  rcases takeIf_cases [kind] c with ⟨token, rest, h, listed, eq⟩ | ⟨unlisted, eq⟩
  · refine .inl ⟨token, rest, h, by simpa using listed, ?_⟩
    have found : (takeIf [kind] c).result = some (some token) := by rw [eq]
    rw [andThen_of_some found, eq]
    rfl
  · refine .inr ⟨by simpa using unlisted, ?_⟩
    have found : (takeIf [kind] c).result = some none := by rw [eq]
    rw [andThen_of_some found, eq]
    rfl

theorem expect_of_ahead {kind : TokenKind} (problem : SyntaxProblem) {c : TokenCursor}
    {token : Token} {rest : List Token} (h : c.ahead = token :: rest) (hk : token.kind = kind) :
    expect kind problem c = ⟨some token, [], c.advance⟩ := by
  rcases expect_cases kind problem c with ⟨token', rest', h', -, eq⟩ | ⟨unlisted, -⟩
  · rw [h] at h'
    obtain ⟨rfl, rfl⟩ := List.cons.inj h'
    exact eq
  · exact absurd hk (unlisted token (by simp [h]))

/-- Steps that read without an error go on as if they began after what was read. -/
theorem andThen_of_eq {p : Parse α} {f : α → Parse β} {c after : TokenCursor} {a : α}
    (h : p c = ⟨some a, [], after⟩) : p.andThen f c = f a after := by
  have found : (p c).result = some a := by rw [h]
  rw [andThen_of_some found, h]
  rfl

/-- The errors of two steps that both have results, one after the other. -/
theorem andThen_eq_append {p : Parse α} {f : α → Parse β} {c after after' : TokenCursor} {a : α}
    {result : Option β} {errors errors' : List SyntaxError} (h : p c = ⟨some a, errors, after⟩)
    (h' : f a after = ⟨result, errors', after'⟩) :
    p.andThen f c = ⟨result, errors ++ errors', after'⟩ := by
  have found : (p c).result = some a := by rw [h]
  rw [andThen_of_some found, h, h']

/-- What goes on from a result only matters where the result was found. -/
theorem andThen_congr {p : Parse α} {f g : α → Parse β} {c : TokenCursor}
    (h : ∀ a, (p c).result = some a → f a (p c).cursor = g a (p c).cursor) :
    p.andThen f c = p.andThen g c := by
  cases found : (p c).result with
  | none => rw [andThen_of_none found, andThen_of_none found]
  | some a => rw [andThen_of_some found, andThen_of_some found, h a found]

theorem takeIf_andThen_cases (kinds : List TokenKind) (f : Option Token → Parse β)
    (c : TokenCursor) :
    (∃ token rest, c.ahead = token :: rest ∧ token.kind ∈ kinds ∧
      (takeIf kinds).andThen f c = f (some token) c.advance) ∨
    ((∀ token ∈ c.ahead.head?, token.kind ∉ kinds) ∧
      (takeIf kinds).andThen f c = f none c) := by
  rcases takeIf_cases kinds c with ⟨token, rest, h, listed, eq⟩ | ⟨unlisted, eq⟩
  · exact .inl ⟨token, rest, h, listed, andThen_of_eq eq⟩
  · exact .inr ⟨unlisted, andThen_of_eq eq⟩

/-- The token ahead is one of those looked for. -/
theorem takeIf_andThen_of_mem {kinds : List TokenKind} {c : TokenCursor} {token : Token}
    {rest : List Token} (f : Option Token → Parse β) (h : c.ahead = token :: rest)
    (listed : token.kind ∈ kinds) : (takeIf kinds).andThen f c = f (some token) c.advance :=
  andThen_of_eq (takeIf_of_mem h listed)

/-- Another token than those looked for is ahead. -/
theorem takeIf_andThen_of_not_mem {kinds : List TokenKind} {c : TokenCursor} {token : Token}
    {rest : List Token} (f : Option Token → Parse β) (h : c.ahead = token :: rest)
    (unlisted : token.kind ∉ kinds) : (takeIf kinds).andThen f c = f none c := by
  apply andThen_of_eq
  apply takeIf_of_not_mem
  simpa [h] using unlisted

/-- A chain that no operator follows ends. -/
theorem binaryTail_of_end {operators : List TokenKind} {operand : Parse Expr} {left : Expr}
    {c : TokenCursor} (h : ∀ token ∈ c.ahead.head?, token.kind ∉ operators) (fuel : List Token) :
    binaryTail operators operand fuel left c = ⟨some left, [], c⟩ := by
  cases fuel with
  | nil => rfl
  | cons token fuel => exact andThen_of_eq (takeIf_of_not_mem h)

/-- A primary expression is found by trying its forms one after the other. -/
theorem primaryWith_eq (expression : Parse Expr) :
    primaryWith expression = (do
      match ← takeIf [.kwFalse] with
      | some _ => pure (.literal (.boolean false))
      | none => match ← takeIf [.kwTrue] with
      | some _ => pure (.literal (.boolean true))
      | none => match ← takeIf [.kwNil] with
      | some _ => pure (.literal .nil)
      | none => match ← takeIf [.number, .string] with
      | some token => pure (.literal token.literal)
      | none => match ← takeIf [.identifier] with
      | some name => pure (.reference name)
      | none => match ← takeIf [.leftParen] with
      | some _ => do
        let inner ← expression
        let _ ← expect .rightParen .expectParenAfterExpression
        pure (.grouping inner)
      | none => fail .expectExpression) := by
  funext c
  cases h : c.ahead with
  | nil => simp [primaryWith, bind, andThen, takeIf, h]
  | cons token rest =>
    -- each kind is in at most one of the lists that are tried
    cases hk : token.kind <;> simp [primaryWith, bind, pure, andThen, takeIf, done, h, hk]

/-! ## What a result ensures -/

/-- Whenever a step that starts at `c` has a result, that result, the errors recorded and the
cursor after it are as stated. -/
def Ensures (p : Parse α) (c : TokenCursor)
    (post : α → List SyntaxError → TokenCursor → Prop) : Prop :=
  ∀ a, (p c).result = some a → post a (p c).errors (p c).cursor

namespace Ensures

variable {c : TokenCursor} {post : α → List SyntaxError → TokenCursor → Prop}
  {post' : β → List SyntaxError → TokenCursor → Prop}

theorem done {a : α} (h : post a [] c) : (Parse.done a).Ensures c post := by
  intro b hb
  obtain rfl := Option.some.inj hb
  exact h

theorem fail {problem : SyntaxProblem} : (Parse.fail problem : Parse α).Ensures c post := by
  intro a ha
  exact absurd ha (by simp [Parse.fail])

/-- What the second of two steps ensures may use what the first one does. -/
theorem andThen {p : Parse α} {f : α → Parse β} (hp : p.Ensures c post)
    (hf : ∀ a errors after, post a errors after →
      (f a).Ensures after fun b errors' after' => post' b (errors ++ errors') after') :
    (p.andThen f).Ensures c post' := by
  intro b hb
  cases hr : (p c).result with
  | none =>
    rw [andThen_of_none hr] at hb
    exact absurd hb (by simp)
  | some a =>
    rw [andThen_of_some hr] at hb ⊢
    exact hf a _ _ (hp a hr) b hb

theorem report {problem : SyntaxProblem} {token : Token} {f : Unit → Parse β}
    (h : (f ()).Ensures c fun b errors after =>
      post' b (SyntaxError.at problem token :: errors) after) :
    ((Parse.report problem token).andThen f).Ensures c post' := h

theorem takeIf {kinds : List TokenKind} {f : Option Token → Parse β}
    (taken : ∀ token, c.ahead = token :: c.advance.ahead → token.kind ∈ kinds →
      (f (some token)).Ensures c.advance post')
    (left : (∀ token ∈ c.ahead.head?, token.kind ∉ kinds) → (f none).Ensures c post') :
    ((Parse.takeIf kinds).andThen f).Ensures c post' := by
  intro b hb
  rcases takeIf_andThen_cases kinds f c with ⟨token, rest, hc, listed, eq⟩ | ⟨unlisted, eq⟩
  · rw [eq] at hb ⊢
    exact taken token (TokenCursor.ahead_eq_cons hc) listed b hb
  · rw [eq] at hb ⊢
    exact left unlisted b hb

theorem expect {kind : TokenKind} {problem : SyntaxProblem} {f : Token → Parse β}
    (taken : ∀ token, c.ahead = token :: c.advance.ahead → token.kind = kind →
      (f token).Ensures c.advance post') :
    ((Parse.expect kind problem).andThen f).Ensures c post' := by
  intro b hb
  rcases expect_cases kind problem c with ⟨token, rest, hc, hk, eq⟩ | ⟨-, eq⟩
  · rw [andThen_of_eq eq] at hb ⊢
    exact taken token (TokenCursor.ahead_eq_cons hc) hk b hb
  · rw [andThen_of_none (by rw [eq])] at hb
    exact absurd hb (by simp)

end Ensures

/-! ## Recovery -/

theorem recovering_of_some {step : Parse Stmt} {c : TokenCursor} {s : Stmt}
    (h : (step c).result = some s) : recovering step c = step c := by
  simp only [recovering, h]

theorem recovering_of_eq {step : Parse Stmt} {c after : TokenCursor} {s : Stmt}
    {errors : List SyntaxError} (h : step c = ⟨some s, errors, after⟩) :
    recovering step c = ⟨some s, errors, after⟩ := by
  rw [recovering_of_some (by rw [h]), h]

theorem recovering_of_skipped {step : Parse Stmt} {c : TokenCursor}
    (h : (step c).result = none) (skipped : (step c).cursor.endsSkipped c.position = true) :
    recovering step c = step c := by
  simp only [recovering, h, skipped, if_true]

theorem recovering_of_none {step : Parse Stmt} {c : TokenCursor}
    (h : (step c).result = none) (astray : (step c).cursor.endsSkipped c.position = false) :
    recovering step c =
      { step c with cursor := (step c).cursor.toBoundary c.position } := by
  simp only [recovering, h, astray, Bool.false_eq_true, if_false]

/-- Recovery makes up no result. -/
theorem result_recovering (step : Parse Stmt) (c : TokenCursor) :
    (recovering step c).result = (step c).result := by
  rw [recovering]
  split
  · rfl
  · split <;> rfl

/-- Recovery records nothing. -/
theorem errors_recovering (step : Parse Stmt) (c : TokenCursor) :
    (recovering step c).errors = (step c).errors := by
  rw [recovering]
  split
  · rfl
  · split <;> rfl

/-- Recovery only concerns steps without a result. -/
theorem Ensures.recovering {step : Parse Stmt} {c : TokenCursor}
    {post : Stmt → List SyntaxError → TokenCursor → Prop} (h : step.Ensures c post) :
    (recovering step).Ensures c post := by
  intro s hs
  cases hr : (step c).result with
  | some s' =>
    rw [recovering_of_some hr] at hs ⊢
    exact h s hs
  | none =>
    have dropped : (Parse.recovering step c).result = none := by rw [result_recovering, hr]
    exact absurd (hs.symm.trans dropped) (by simp)

/-- A declaration without recovery. -/
def attempt (room : Nat) : Parse Stmt := do
  match ← takeIf [.kwVar] with
  | some _ => varDeclaration (expression room)
  | none => statementWith (expression room) (block room)

theorem declaration_eq (room : Nat) : declaration room = recovering (attempt room) := rfl

/-- An opening brace begins a block. -/
theorem attempt_of_brace (room : Nat) {c : TokenCursor} {opening : Token} {rest : List Token}
    (h : c.ahead = opening :: rest) (ho : opening.kind = .leftBrace) :
    attempt room c = block room c.advance := by
  have no_var : opening.kind ∉ [TokenKind.kwVar] := by simp [ho]
  have no_print : opening.kind ∉ [TokenKind.kwPrint] := by simp [ho]
  calc attempt room c
      = statementWith (expression room) (block room) c := takeIf_andThen_of_not_mem _ h no_var
    _ = _ := takeIf_andThen_of_not_mem _ h no_print
    _ = block room c.advance := takeIf_andThen_of_mem _ h (by simp [ho])

/-! ## What holds of every step -/

/-- The kinds of the tokens that expressions are made of. -/
def expressionKinds : List TokenKind :=
  [.leftParen, .rightParen, .minus, .plus, .slash, .star, .bang, .bangEqual, .equal, .equalEqual,
    .greater, .greaterEqual, .less, .lessEqual, .identifier, .string, .number, .kwFalse, .kwNil,
    .kwTrue]

theorem expressionKinds_of_operatorKinds : ∀ kind ∈ operatorKinds, kind ∈ expressionKinds := by
  decide

/-- What one level of operators keeps, all levels together keep. -/
theorem equality_of_levels {R : Parse Expr → Parse Expr → Prop}
    (level : ∀ {operators : List TokenKind} {operand operand' : Parse Expr},
      (∀ kind ∈ operators, kind ∈ operatorKinds) → R operand operand' →
      R (binaryLevel operators operand) (binaryLevel operators operand'))
    {unary unary' : Parse Expr} (h : R unary unary') : R (equality unary) (equality unary') := by
  have factor : R (factor unary) (factor unary') := level (by decide) h
  have term : R (term unary) (term unary') := level (by decide) factor
  have comparison : R (comparison unary) (comparison unary') := level (by decide) term
  exact level (by decide) comparison

/-- A relation of steps that holds of a basic step and itself and that doing one step after another
keeps. A property of steps is a relation that leaves the second step out of account. -/
structure Sequential (R : (α : Type) → Parse α → Parse α → Prop) : Prop where
  done : ∀ {α : Type} (a : α), R α (done a) (done a)
  andThen : ∀ {α β : Type} {p p' : Parse α} {f f' : α → Parse β},
    R α p p' → (∀ a, R β (f a) (f' a)) → R β (p.andThen f) (p'.andThen f')
  takeIf : ∀ {kinds : List TokenKind}, (∀ kind ∈ kinds, kind ∈ expressionKinds) →
    R (Option Token) (takeIf kinds) (takeIf kinds)

/-- A relation of steps that chains of operators keep. -/
structure LevelClosed (R : (α : Type) → Parse α → Parse α → Prop) : Prop extends Sequential R where
  binaryLevel : ∀ {operators : List TokenKind} {operand operand' : Parse Expr},
    (∀ kind ∈ operators, kind ∈ expressionKinds) → R Expr operand operand' →
    R Expr (binaryLevel operators operand) (binaryLevel operators operand')

/-- A relation of steps that the grammar of expressions keeps, with less room on the left. -/
structure ExpressionClosed (R : (α : Type) → Parse α → Parse α → Prop) : Prop
    extends LevelClosed R where
  fail : ∀ {α : Type} {problem : SyntaxProblem}, problem ≠ .invalidTarget →
    R α (fail problem) (fail problem)
  overflow : ∀ other : Parse Expr, R Expr (Parse.fail .tooMuchNesting) other
  assignment : ∀ {room room' : Nat}, R Expr (unary room) (unary room') →
    R Expr (expression room) (expression room') →
    R Expr (expression (room + 1)) (expression (room' + 1))

/-- A relation of steps that statements without a block keep. -/
structure SimpleClosed (R : (α : Type) → Parse α → Parse α → Prop) : Prop
    extends ExpressionClosed R where
  takeAny : ∀ {kinds : List TokenKind}, TokenKind.eof ∉ kinds →
    R (Option Token) (Parse.takeIf kinds) (Parse.takeIf kinds)

/-- A relation of steps that the grammar of statements keeps, with less room on the left. -/
structure StatementClosed (R : (α : Type) → Parse α → Parse α → Prop) : Prop
    extends ExpressionClosed R where
  takeAny : ∀ {kinds : List TokenKind}, TokenKind.eof ∉ kinds →
    R (Option Token) (Parse.takeIf kinds) (Parse.takeIf kinds)
  recovering : ∀ {step step' : Parse Stmt}, R Stmt step step' →
    R Stmt (recovering step) (recovering step')
  blockWith : ∀ {declaration declaration' : Parse Stmt}, R Stmt declaration declaration' →
    R Stmt (blockWith declaration) (blockWith declaration')
  overdeepBlock : ∀ other : Parse Stmt, R Stmt overdeepBlock other

variable {R : (α : Type) → Parse α → Parse α → Prop}

/-- The two ways to go on after looking for a token. -/
theorem Sequential.choice (closed : Sequential R) {kinds : List TokenKind}
    (listed : ∀ kind ∈ kinds, kind ∈ expressionKinds) {f f' : Option Token → Parse β}
    (taken : ∀ token, R β (f (some token)) (f' (some token))) (left : R β (f none) (f' none)) :
    R β ((Parse.takeIf kinds).andThen f) ((Parse.takeIf kinds).andThen f') := by
  refine closed.andThen (closed.takeIf listed) fun found => ?_
  cases found with
  | none => exact left
  | some token => exact taken token

/-- What steps in sequence keep holds of the rest of a chain of operators. -/
theorem Sequential.binaryTail (closed : Sequential R) {operators : List TokenKind}
    {operand operand' : Parse Expr} (listed : ∀ kind ∈ operators, kind ∈ expressionKinds)
    (h : R Expr operand operand') (fuel : List Token) (left : Expr) :
    R Expr (binaryTail operators operand fuel left) (binaryTail operators operand' fuel left) := by
  induction fuel generalizing left with
  | nil => exact closed.done left
  | cons token fuel ih =>
    refine closed.choice listed (fun operator => ?_) (closed.done left)
    exact closed.andThen h fun right => ih (.binary left operator right)

namespace LevelClosed

theorem equality (closed : LevelClosed R) {unary unary' : Parse Expr} (h : R Expr unary unary') :
    R Expr (equality unary) (equality unary') := by
  refine equality_of_levels (fun listed related => ?_) h
  exact closed.binaryLevel (fun kind hk => expressionKinds_of_operatorKinds kind (listed kind hk))
    related

/-- An assignment is a sequence of steps, one of which reports a target that is not a name. -/
theorem assignment (closed : LevelClosed R)
    (report : ∀ token : Token, R Unit (report .invalidTarget token) (report .invalidTarget token))
    {room room' : Nat} (hu : R Expr (unary room) (unary room'))
    (he : R Expr (expression room) (expression room')) :
    R Expr (expression (room + 1)) (expression (room' + 1)) := by
  show R Expr (assignmentWith (unary room) (expression room))
    (assignmentWith (unary room') (expression room'))
  refine closed.andThen (closed.equality hu) fun target => ?_
  refine closed.choice (by decide) (fun equals => ?_) (closed.done target)
  refine closed.andThen he fun value => ?_
  cases target with
  | reference name => exact closed.done _
  | _ => exact closed.andThen (report equals) fun _ => closed.done _

end LevelClosed

namespace ExpressionClosed

theorem expect (closed : ExpressionClosed R) {kind : TokenKind} (listed : kind ∈ expressionKinds)
    {problem : SyntaxProblem} (h : problem ≠ .invalidTarget) :
    R Token (expect kind problem) (expect kind problem) :=
  closed.choice (by simpa using listed) (fun token => closed.done token) (closed.fail h)

theorem primaryWith (closed : ExpressionClosed R) {expression expression' : Parse Expr}
    (he : R Expr expression expression') :
    R Expr (primaryWith expression) (primaryWith expression') := by
  rw [primaryWith_eq, primaryWith_eq]
  refine closed.choice (by decide) (fun _ => closed.done _) ?_
  refine closed.choice (by decide) (fun _ => closed.done _) ?_
  refine closed.choice (by decide) (fun _ => closed.done _) ?_
  refine closed.choice (by decide) (fun _ => closed.done _) ?_
  refine closed.choice (by decide) (fun _ => closed.done _) ?_
  refine closed.choice (by decide) (fun _ => ?_) (closed.fail (by decide))
  refine closed.andThen he fun inner => ?_
  exact closed.andThen (closed.expect (by decide) (by decide)) fun _ => closed.done _

theorem unaryWith (closed : ExpressionClosed R)
    {operand operand' expression expression' : Parse Expr} (ho : R Expr operand operand')
    (he : R Expr expression expression') :
    R Expr (unaryWith operand expression) (unaryWith operand' expression') :=
  closed.choice (by decide) (fun _ => closed.andThen ho fun _ => closed.done _)
    (closed.primaryWith he)

/-- What the grammar keeps holds of expressions with any room and with more. -/
theorem expression_and_unary (closed : ExpressionClosed R) {room room' : Nat}
    (le : room ≤ room') :
    R Expr (expression room) (expression room') ∧ R Expr (unary room) (unary room') := by
  -- what is in an expression has one level less, and so has the operand of a unary operator
  induction room generalizing room' with
  | zero =>
    have first : R Expr (expression 0) (expression room') := closed.overflow _
    have larger : unary room' = Parse.unaryWith (operand room') (Parse.expression room') :=
      funext (unary_eq room')
    refine ⟨first, ?_⟩
    rw [larger]
    exact closed.unaryWith (closed.overflow _) first
  | succ room ih =>
    cases room' with
    | zero => exact absurd le (Nat.not_succ_le_zero room)
    | succ room' =>
      have smaller := ih (Nat.le_of_succ_le_succ le)
      have inner : R Expr (expression (room + 1)) (expression (room' + 1)) :=
        closed.assignment smaller.2 smaller.1
      exact ⟨inner, closed.unaryWith smaller.2 inner⟩

theorem expression (closed : ExpressionClosed R) {room room' : Nat} (le : room ≤ room') :
    R Expr (expression room) (expression room') :=
  (closed.expression_and_unary le).1

end ExpressionClosed

namespace SimpleClosed

theorem choiceAny (closed : SimpleClosed R) {kinds : List TokenKind}
    (readable : TokenKind.eof ∉ kinds) {f f' : Option Token → Parse β}
    (taken : ∀ token, R β (f (some token)) (f' (some token))) (left : R β (f none) (f' none)) :
    R β ((Parse.takeIf kinds).andThen f) ((Parse.takeIf kinds).andThen f') := by
  refine closed.andThen (closed.takeAny readable) fun found => ?_
  cases found with
  | none => exact left
  | some token => exact taken token

theorem expectAny (closed : SimpleClosed R) {kind : TokenKind} (readable : kind ≠ .eof)
    {problem : SyntaxProblem} (h : problem ≠ .invalidTarget) :
    R Token (expect kind problem) (expect kind problem) :=
  closed.choiceAny (by simpa using readable.symm) (fun token => closed.done token)
    (closed.fail h)

section

variable {expression expression' : Parse Expr}

theorem expressionStatement (closed : SimpleClosed R) (he : R Expr expression expression') :
    R Stmt (expressionStatement expression) (expressionStatement expression') :=
  closed.andThen he fun _ =>
    closed.andThen (closed.expectAny (by decide) (by decide)) fun _ => closed.done _

theorem printStatement (closed : SimpleClosed R) (he : R Expr expression expression') :
    R Stmt (printStatement expression) (printStatement expression') :=
  closed.andThen he fun _ =>
    closed.andThen (closed.expectAny (by decide) (by decide)) fun _ => closed.done _

theorem initializer (closed : SimpleClosed R) (he : R Expr expression expression') :
    R (Option Expr) (initializer expression) (initializer expression') :=
  closed.choice (by decide) (fun _ => closed.andThen he fun value => closed.done (some value))
    (closed.done none)

theorem varDeclaration (closed : SimpleClosed R) (he : R Expr expression expression') :
    R Stmt (varDeclaration expression) (varDeclaration expression') :=
  closed.andThen (closed.expectAny (by decide) (by decide)) fun _ =>
    closed.andThen (closed.initializer he) fun _ =>
      closed.andThen (closed.expectAny (by decide) (by decide)) fun _ => closed.done _

end

end SimpleClosed

namespace StatementClosed

/-- Statements without a block are among the others. -/
theorem simple (closed : StatementClosed R) : SimpleClosed R where
  toExpressionClosed := closed.toExpressionClosed
  takeAny := closed.takeAny

section

variable {expression expression' : Parse Expr} {block block' : Parse Stmt}

theorem statementWith (closed : StatementClosed R) (he : R Expr expression expression')
    (hb : R Stmt block block') :
    R Stmt (statementWith expression block) (statementWith expression' block') :=
  closed.simple.choiceAny (by decide) (fun _ => closed.simple.printStatement he)
    (closed.simple.choiceAny (by decide) (fun _ => hb) (closed.simple.expressionStatement he))

theorem declarationWith (closed : StatementClosed R) (he : R Expr expression expression')
    (hb : R Stmt block block') :
    R Stmt (declarationWith expression block) (declarationWith expression' block') :=
  closed.recovering (closed.simple.choiceAny (by decide) (fun _ => closed.simple.varDeclaration he)
    (closed.statementWith he hb))

end

/-- What the grammar keeps holds of blocks with any room and with more. -/
theorem block (closed : StatementClosed R) {room room' : Nat} (le : room ≤ room') :
    R Stmt (block room) (block room') := by
  induction room generalizing room' with
  | zero => exact closed.overdeepBlock _
  | succ room ih =>
    cases room' with
    | zero => exact absurd le (Nat.not_succ_le_zero room)
    | succ room' =>
      have smaller := Nat.le_of_succ_le_succ le
      exact closed.blockWith (closed.declarationWith (closed.expression smaller) (ih smaller))

/-- What the grammar keeps holds of declarations with any room and with more. -/
theorem declaration (closed : StatementClosed R) {room room' : Nat} (le : room ≤ room') :
    R Stmt (declaration room) (declaration room') :=
  closed.declarationWith (closed.expression le) (closed.block le)

end StatementClosed

end Parse

end LoxCheck
