import LoxCheck.Proofs.SourceOrder

/-!
# The grammar looks at kinds alone

Two token sequences with the same kinds are parsed in step. Wherever one parse takes a token for a
tree or reports one, the other takes or reports the token at the same place, so that the trees have
one shape and the reports one order, whatever the texts, values and lines of the tokens are.
-/

namespace LoxCheck

/-! ## What two parses have in common -/

/-- A relation of the tokens of one sequence with those of another that only pairs tokens of the
same kind. -/
structure Pairing where
  rel : Token → Token → Prop
  kind : ∀ {token token' : Token}, rel token token' → token.kind = token'.kind

/-- Tokens of the same kind at the same place of two sequences. -/
def Pairing.byPlace (tokens tokens' : List Token) : Pairing where
  rel token token' := token.kind = token'.kind ∧
    ∃ place : Nat, tokens[place]? = some token ∧ tokens'[place]? = some token'
  kind paired := paired.1

/-- Two leaves are what two paired tokens say. -/
def Leaf.Alike (P : Pairing) (leaf leaf' : Leaf) : Prop :=
  ∃ token token', P.rel token token' ∧ leaf.ReadFrom token ∧ leaf'.ReadFrom token'

/-- What all tokens of some kinds say, paired tokens of these kinds say. -/
theorem Leaf.Alike.of_rel {P : Pairing} {kinds : List TokenKind} (leaf : Token → Leaf)
    (read : ∀ token : Token, token.kind ∈ kinds → (leaf token).ReadFrom token)
    {token token' : Token} (paired : P.rel token token') (listed : token.kind ∈ kinds) :
    Leaf.Alike P (leaf token) (leaf token') := by
  have listed' : token'.kind ∈ kinds := by rwa [← P.kind paired]
  exact ⟨token, token', paired, read token listed, read token' listed'⟩

/-- Expressions of one shape whose names, operators and literals come from paired tokens. -/
inductive Expr.Alike (P : Pairing) : Expr → Expr → Prop where
  | literal {value value' : Value} : Leaf.Alike P (.literal value) (.literal value') →
    Alike P (.literal value) (.literal value')
  | grouping {inner inner' : Expr} : Alike P inner inner' →
    Alike P (.grouping inner) (.grouping inner')
  | unary {operator operator' : Token} {operand operand' : Expr} :
    Leaf.Alike P (.operator operator) (.operator operator') → Alike P operand operand' →
    Alike P (.unary operator operand) (.unary operator' operand')
  | binary {left left' right right' : Expr} {operator operator' : Token} : Alike P left left' →
    Leaf.Alike P (.operator operator) (.operator operator') → Alike P right right' →
    Alike P (.binary left operator right) (.binary left' operator' right')
  | reference {name name' : Token} : Leaf.Alike P (.name name) (.name name') →
    Alike P (.reference name) (.reference name')
  | assign {name name' : Token} {value value' : Expr} : Leaf.Alike P (.name name) (.name name') →
    Alike P value value' → Alike P (.assign name value) (.assign name' value')

/-- Statements of one shape whose names, operators and literals come from paired tokens. -/
inductive Stmt.Alike (P : Pairing) : Stmt → Stmt → Prop where
  | expression {expr expr' : Expr} : Expr.Alike P expr expr' →
    Alike P (.expression expr) (.expression expr')
  | print {expr expr' : Expr} : Expr.Alike P expr expr' → Alike P (.print expr) (.print expr')
  | declaration {name name' : Token} {value value' : Option Expr} :
    Leaf.Alike P (.name name) (.name name') → Option.Rel (Expr.Alike P) value value' →
    Alike P (.declaration name value) (.declaration name' value')
  | block {statements statements' : List Stmt} : List.Forall₂ (Alike P) statements statements' →
    Alike P (.block statements) (.block statements')

/-- Reports of one problem at paired tokens. -/
inductive SyntaxError.Alike (P : Pairing) : SyntaxError → SyntaxError → Prop where
  | at (problem : SyntaxProblem) {token token' : Token} : P.rel token token' →
    Alike P (SyntaxError.at problem token) (SyntaxError.at problem token')

namespace TokenCursor

/-- Cursors at the same place of paired sequences. -/
structure Alike (P : Pairing) (c c' : TokenCursor) : Prop where
  position : c.position = c'.position
  previous : P.rel c.previous c'.previous
  ahead : List.Forall₂ P.rel c.ahead c'.ahead
  stop : P.rel c.stop c'.stop
  skippedTo : c.skippedTo = c'.skippedTo

variable {P : Pairing}

/-! ## Cursors in step -/

/-- Both cursors are at the end, or both have a token ahead. -/
theorem Alike.ahead_cases {c c' : TokenCursor} (h : c.Alike P c') :
    (c.ahead = [] ∧ c'.ahead = []) ∨
      ∃ token token' rest rest', c.ahead = token :: rest ∧ c'.ahead = token' :: rest' ∧
        P.rel token token' ∧ List.Forall₂ P.rel rest rest' := by
  have paired := h.ahead
  cases hc : c.ahead with
  | nil =>
    rw [hc] at paired
    exact .inl ⟨rfl, List.forall₂_nil_left_iff.1 paired⟩
  | cons token rest =>
    rw [hc] at paired
    obtain ⟨token', rest', first, others, hc'⟩ := List.forall₂_cons_left_iff.1 paired
    exact .inr ⟨token, token', rest, rest', rfl, hc', first, others⟩

theorem Alike.current {c c' : TokenCursor} (h : c.Alike P c') :
    P.rel c.current c'.current := by
  rcases h.ahead_cases with ⟨hc, hc'⟩ | ⟨token, token', rest, rest', hc, hc', first, -⟩
  · rw [TokenCursor.current, TokenCursor.current, hc, hc']
    exact h.stop
  · rw [current_of_ahead hc, current_of_ahead hc']
    exact first

theorem Alike.atEnd {c c' : TokenCursor} (h : c.Alike P c') : c.atEnd = c'.atEnd := by
  rcases h.ahead_cases with ⟨hc, hc'⟩ | ⟨token, token', rest, rest', hc, hc', -, -⟩
  · rw [TokenCursor.atEnd, TokenCursor.atEnd, hc, hc']
  · rw [TokenCursor.atEnd, TokenCursor.atEnd, hc, hc', List.isEmpty_cons, List.isEmpty_cons]

theorem Alike.advance {c c' : TokenCursor} (h : c.Alike P c') : c.advance.Alike P c'.advance := by
  rcases h.ahead_cases with ⟨hc, hc'⟩ | ⟨token, token', rest, rest', hc, hc', first, others⟩
  · rw [advance_of_end hc, advance_of_end hc']
    exact h
  · rw [advance_of_ahead hc, advance_of_ahead hc']
    exact ⟨congrArg (· + 1) h.position, first, others, h.stop, h.skippedTo⟩

theorem Alike.skip {c c' : TokenCursor} (h : c.Alike P c') (n : Nat) :
    (c.skip n).Alike P (c'.skip n) := by
  induction n generalizing c c' with
  | zero => exact h
  | succ n ih => exact ih h.advance

theorem Alike.endsSkipped {c c' : TokenCursor} (h : c.Alike P c') (start : Nat) :
    c.endsSkipped start = c'.endsSkipped start := by
  rw [TokenCursor.endsSkipped, TokenCursor.endsSkipped, h.skippedTo, h.position]

/-- Statement boundaries are found by kinds. -/
theorem boundary_eq {previous previous' : Token} {ahead ahead' : List Token}
    (behind : P.rel previous previous') (h : List.Forall₂ P.rel ahead ahead') :
    boundary previous ahead = boundary previous' ahead' := by
  induction h generalizing previous previous' with
  | nil => rfl
  | cons first _ ih => rw [boundary, boundary, P.kind behind, P.kind first, ih first]

/-- Closing braces are found by kinds. -/
theorem blockLength_eq {ahead ahead' : List Token} (h : List.Forall₂ P.rel ahead ahead')
    (depth : Nat) : blockLength depth ahead = blockLength depth ahead' := by
  induction h generalizing depth with
  | nil => rfl
  | cons first _ ih => simp only [blockLength, P.kind first, ih]

theorem Alike.toBoundary {c c' : TokenCursor} (h : c.Alike P c') (start : Int) :
    (c.toBoundary start).Alike P (c'.toBoundary start) := by
  have discarded : (if c.position = start then c.advance else c).Alike P
      (if c'.position = start then c'.advance else c') := by
    rw [h.position]
    split
    · exact h.advance
    · exact h
  rw [TokenCursor.toBoundary, TokenCursor.toBoundary,
    boundary_eq discarded.previous discarded.ahead]
  exact discarded.skip _

theorem Alike.skipBlock {c c' : TokenCursor} (h : c.Alike P c') :
    c.skipBlock.Alike P c'.skipBlock := by
  have after := h.skip (blockLength 0 c.ahead)
  unfold TokenCursor.skipBlock
  rw [← blockLength_eq h.ahead]
  exact ⟨after.position, after.previous, after.ahead, after.stop, congrArg some after.position⟩

end TokenCursor

/-! ## Steps in step -/

/-- Outcomes with related results or none, reports at paired tokens, and cursors at the same
place. -/
structure Outcome.Alike (P : Pairing) {α : Type} (A : α → α → Prop) (o o' : Outcome α) : Prop where
  result : Option.Rel A o.result o'.result
  errors : List.Forall₂ (SyntaxError.Alike P) o.errors o'.errors
  cursor : o.cursor.Alike P o'.cursor

/-- Both outcomes lack a result, or both have one. -/
theorem Outcome.Alike.result_cases {P : Pairing} {α : Type} {A : α → α → Prop} {o o' : Outcome α}
    (h : o.Alike P A o') :
    (o.result = none ∧ o'.result = none) ∨
      ∃ a a', o.result = some a ∧ o'.result = some a' ∧ A a a' := by
  obtain ⟨result, _, _⟩ := o
  obtain ⟨result', _, _⟩ := o'
  have related : Option.Rel A result result' := h.result
  cases related with
  | none => exact .inl ⟨rfl, rfl⟩
  | some both => exact .inr ⟨_, _, rfl, rfl, both⟩

/-- Statements of one shape, reports at paired tokens, and cursors at the same place. -/
structure Declarations.Alike (P : Pairing) (d d' : Declarations) : Prop where
  statements : List.Forall₂ (Stmt.Alike P) d.statements d'.statements
  errors : List.Forall₂ (SyntaxError.Alike P) d.errors d'.errors
  cursor : d.cursor.Alike P d'.cursor

namespace Parse

/-- Steps that are in step wherever they begin at the same place. -/
def Alike (P : Pairing) {α : Type} (A : α → α → Prop) (p p' : Parse α) : Prop :=
  ∀ c c' : TokenCursor, c.Alike P c' → (p c).Alike P A (p' c')

variable {P : Pairing} {α β : Type} {A : α → α → Prop} {B : β → β → Prop}

theorem Alike.done {a a' : α} (h : A a a') : Alike P A (done a) (done a') :=
  fun _ _ cursor => ⟨.some h, .nil, cursor⟩

theorem Alike.andThen {p p' : Parse α} {f f' : α → Parse β} (hp : Alike P A p p')
    (hf : ∀ a a', A a a' → Alike P B (f a) (f' a')) :
    Alike P B (p.andThen f) (p'.andThen f') := by
  intro c c' cursor
  have first := hp c c' cursor
  rcases first.result_cases with ⟨hr, hr'⟩ | ⟨a, a', hr, hr', both⟩
  · rw [andThen_of_none hr, andThen_of_none hr']
    exact ⟨.none, first.errors, first.cursor⟩
  · have second := hf a a' both _ _ first.cursor
    rw [andThen_of_some hr, andThen_of_some hr']
    exact ⟨second.result, List.rel_append first.errors second.errors, second.cursor⟩

theorem alike_fail (problem : SyntaxProblem) : Alike P A (fail problem) (fail problem) :=
  fun _ _ cursor => ⟨.none, .cons (.at problem cursor.current) .nil, cursor⟩

theorem alike_report (problem : SyntaxProblem) {token token' : Token} (h : P.rel token token') :
    Alike P Eq (report problem token) (report problem token') :=
  fun _ _ cursor => ⟨.some rfl, .cons (.at problem h) .nil, cursor⟩

/-- Looking for a token goes one of two ways, and the kind ahead says which. -/
theorem Alike.choice {kinds : List TokenKind} {f f' : Option Token → Parse β}
    (taken : ∀ token token', P.rel token token' → token.kind ∈ kinds →
      Alike P B (f (some token)) (f' (some token')))
    (left : Alike P B (f none) (f' none)) :
    Alike P B ((takeIf kinds).andThen f) ((takeIf kinds).andThen f') := by
  intro c c' cursor
  rcases cursor.ahead_cases with ⟨hc, hc'⟩ | ⟨token, token', rest, rest', hc, hc', first, -⟩
  · rw [andThen_of_eq (takeIf_of_not_mem (by simp [hc])),
      andThen_of_eq (takeIf_of_not_mem (by simp [hc']))]
    exact left c c' cursor
  · by_cases listed : token.kind ∈ kinds
    · have listed' : token'.kind ∈ kinds := by rwa [← P.kind first]
      rw [takeIf_andThen_of_mem f hc listed, takeIf_andThen_of_mem f' hc' listed']
      exact taken token token' first listed _ _ cursor.advance
    · have unlisted' : token'.kind ∉ kinds := by rwa [← P.kind first]
      rw [takeIf_andThen_of_not_mem f hc listed, takeIf_andThen_of_not_mem f' hc' unlisted']
      exact left c c' cursor

theorem alike_expect (kind : TokenKind) (problem : SyntaxProblem) :
    Alike P (fun token token' => P.rel token token' ∧ token.kind = kind) (expect kind problem)
      (expect kind problem) := by
  refine .choice (fun token token' paired listed => ?_) (alike_fail problem)
  exact .done ⟨paired, by simpa using listed⟩

/-! ## Expressions -/

section

variable {unary unary' expression expression' : Parse Expr}

/-- Paired operators stand between the operands of two chains. -/
theorem alike_binaryTail {operators : List TokenKind}
    (listed : ∀ kind ∈ operators, kind ∈ operatorKinds) {operand operand' : Parse Expr}
    (ho : Alike P (Expr.Alike P) operand operand') {fuel fuel' : List Token}
    (h : List.Forall₂ P.rel fuel fuel') {left left' : Expr} (hl : Expr.Alike P left left') :
    Alike P (Expr.Alike P) (binaryTail operators operand fuel left)
      (binaryTail operators operand' fuel' left') := by
  induction h generalizing left left' with
  | nil => exact .done hl
  | cons _ _ ih =>
    refine .choice (fun operator operator' paired hk => ?_) (.done hl)
    have read : Leaf.Alike P (.operator operator) (.operator operator') :=
      .of_rel .operator (fun _ h => .operator (listed _ h)) paired hk
    exact ho.andThen fun _ _ right => ih (.binary hl read right)

theorem alike_binaryLevel {operators : List TokenKind}
    (listed : ∀ kind ∈ operators, kind ∈ operatorKinds) {operand operand' : Parse Expr}
    (ho : Alike P (Expr.Alike P) operand operand') :
    Alike P (Expr.Alike P) (binaryLevel operators operand) (binaryLevel operators operand') :=
  ho.andThen fun _ _ hl c c' cursor => alike_binaryTail listed ho cursor.ahead hl c c' cursor

theorem alike_equality (hu : Alike P (Expr.Alike P) unary unary') :
    Alike P (Expr.Alike P) (equality unary) (equality unary') :=
  equality_of_levels (fun listed ho => alike_binaryLevel listed ho) hu

/-- Targets of one shape are both names or both something else. -/
theorem alike_assignmentWith (hu : Alike P (Expr.Alike P) unary unary')
    (he : Alike P (Expr.Alike P) expression expression') :
    Alike P (Expr.Alike P) (assignmentWith unary expression)
      (assignmentWith unary' expression') := by
  refine (alike_equality hu).andThen fun target target' both => ?_
  refine .choice (fun equals equals' paired _ => ?_) (.done both)
  refine he.andThen fun value value' read => ?_
  have invalid : Alike P Eq (report .invalidTarget equals) (report .invalidTarget equals') :=
    alike_report .invalidTarget paired
  have kept := both
  cases both with
  | reference name => exact .done (.assign name read)
  | literal _ => exact invalid.andThen fun _ _ _ => .done kept
  | grouping _ => exact invalid.andThen fun _ _ _ => .done kept
  | unary _ _ => exact invalid.andThen fun _ _ _ => .done kept
  | binary _ _ _ => exact invalid.andThen fun _ _ _ => .done kept
  | assign _ _ => exact invalid.andThen fun _ _ _ => .done kept

theorem alike_primaryWith (he : Alike P (Expr.Alike P) expression expression') :
    Alike P (Expr.Alike P) (primaryWith expression) (primaryWith expression') := by
  rw [primaryWith_eq, primaryWith_eq]
  -- a keyword says the same in both sequences, a number or a string what its own token carries
  refine .choice (fun _ _ paired hk => .done (.literal ?_)) ?_
  · exact .of_rel (fun _ => .literal (.boolean false)) (fun _ h => .kwFalse (by simpa using h))
      paired hk
  refine .choice (fun _ _ paired hk => .done (.literal ?_)) ?_
  · exact .of_rel (fun _ => .literal (.boolean true)) (fun _ h => .kwTrue (by simpa using h))
      paired hk
  refine .choice (fun _ _ paired hk => .done (.literal ?_)) ?_
  · exact .of_rel (fun _ => .literal .nil) (fun _ h => .kwNil (by simpa using h)) paired hk
  refine .choice (fun _ _ paired hk => .done (.literal ?_)) ?_
  · exact .of_rel (.literal ·.literal) (fun _ h => .literal (by simpa using h)) paired hk
  refine .choice (fun _ _ paired hk => .done (.reference ?_)) ?_
  · exact .of_rel .name (fun _ h => .name (by simpa using h)) paired hk
  refine .choice (fun _ _ _ _ => ?_) (alike_fail .expectExpression)
  refine he.andThen fun _ _ inner => ?_
  exact (alike_expect .rightParen .expectParenAfterExpression).andThen fun _ _ _ =>
    .done (.grouping inner)

theorem alike_unaryWith {operand operand' : Parse Expr}
    (ho : Alike P (Expr.Alike P) operand operand')
    (he : Alike P (Expr.Alike P) expression expression') :
    Alike P (Expr.Alike P) (unaryWith operand expression) (unaryWith operand' expression') := by
  have listed : ∀ kind ∈ [TokenKind.bang, .minus], kind ∈ operatorKinds := by decide
  refine .choice (fun _ _ paired hk => ?_) (alike_primaryWith he)
  refine ho.andThen fun _ _ inner => .done (.unary ?_ inner)
  exact .of_rel .operator (fun _ h => .operator (listed _ h)) paired hk

theorem alike_expression_and_unary (room : Nat) :
    Alike P (Expr.Alike P) (Parse.expression room) (Parse.expression room) ∧
      Alike P (Expr.Alike P) (Parse.unary room) (Parse.unary room) := by
  -- what is in an expression has one level less, and so has the operand of a unary operator
  induction room with
  | zero => exact ⟨alike_fail _, alike_unaryWith (alike_fail _) (alike_fail _)⟩
  | succ room ih =>
    have inner : Alike P (Expr.Alike P) (Parse.expression (room + 1))
        (Parse.expression (room + 1)) := alike_assignmentWith ih.2 ih.1
    exact ⟨inner, alike_unaryWith ih.2 inner⟩

theorem alike_expression (room : Nat) :
    Alike P (Expr.Alike P) (Parse.expression room) (Parse.expression room) :=
  (alike_expression_and_unary room).1

end

/-! ## Statements -/

section

variable {expression expression' : Parse Expr} {block block' : Parse Stmt}

/-- An expression with a semicolon behind it. -/
theorem alike_terminated (he : Alike P (Expr.Alike P) expression expression')
    (problem : SyntaxProblem) {make : Expr → Stmt}
    (made : ∀ expr expr', Expr.Alike P expr expr' → Stmt.Alike P (make expr) (make expr')) :
    Alike P (Stmt.Alike P)
      (expression.andThen fun expr => (expect .semicolon problem).andThen fun _ =>
        done (make expr))
      (expression'.andThen fun expr => (expect .semicolon problem).andThen fun _ =>
        done (make expr)) := by
  refine he.andThen fun expr expr' both => ?_
  exact (alike_expect .semicolon problem).andThen fun _ _ _ => .done (made expr expr' both)

theorem alike_initializer (he : Alike P (Expr.Alike P) expression expression') :
    Alike P (Option.Rel (Expr.Alike P)) (initializer expression) (initializer expression') :=
  .choice (fun _ _ _ _ => he.andThen fun _ _ value => .done (.some value)) (.done .none)

theorem alike_varDeclaration (he : Alike P (Expr.Alike P) expression expression') :
    Alike P (Stmt.Alike P) (varDeclaration expression) (varDeclaration expression') := by
  refine (alike_expect .identifier .expectVariableName).andThen fun name name' paired => ?_
  have read : Leaf.Alike P (.name name) (.name name') :=
    ⟨name, name', paired.1, .name paired.2, .name (P.kind paired.1 ▸ paired.2)⟩
  refine (alike_initializer he).andThen fun _ _ value => ?_
  exact (alike_expect .semicolon .expectSemicolonAfterDeclaration).andThen fun _ _ _ =>
    .done (.declaration read value)

/-- Recovery goes to the same place, or stays at the same place. -/
theorem Alike.recovering {step step' : Parse Stmt} (h : Alike P (Stmt.Alike P) step step') :
    Alike P (Stmt.Alike P) (recovering step) (recovering step') := by
  intro c c' cursor
  have outcome := h c c' cursor
  rcases outcome.result_cases with ⟨hr, hr'⟩ | ⟨a, a', hr, hr', -⟩
  · have ends : (step c).cursor.endsSkipped c.position =
        (step' c').cursor.endsSkipped c'.position := by
      rw [outcome.cursor.endsSkipped, cursor.position]
    cases skipped : (step c).cursor.endsSkipped c.position with
    | true =>
      rw [recovering_of_skipped hr skipped, recovering_of_skipped hr' (ends ▸ skipped)]
      exact outcome
    | false =>
      rw [recovering_of_none hr skipped, recovering_of_none hr' (ends ▸ skipped), cursor.position]
      exact ⟨outcome.result, outcome.errors, outcome.cursor.toBoundary _⟩
  · rw [recovering_of_some hr, recovering_of_some hr']
    exact outcome

theorem alike_declarationWith (he : Alike P (Expr.Alike P) expression expression')
    (hb : Alike P (Stmt.Alike P) block block') :
    Alike P (Stmt.Alike P) (declarationWith expression block)
      (declarationWith expression' block') := by
  refine .recovering (.choice (fun _ _ _ _ => alike_varDeclaration he) ?_)
  refine .choice (fun _ _ _ _ => alike_terminated he _ fun _ _ => .print) ?_
  refine .choice (fun _ _ _ _ => hb) ?_
  exact alike_terminated he _ fun _ _ => .expression

end

/-- Declarations are read in step, dropped ones too. -/
theorem Alike.declarations {declaration declaration' : Parse Stmt}
    (h : Alike P (Stmt.Alike P) declaration declaration') (stops : List TokenKind)
    {fuel fuel' : List Token} (paired : List.Forall₂ P.rel fuel fuel') {c c' : TokenCursor}
    (cursor : c.Alike P c') :
    (declarations stops declaration fuel c).Alike P
      (declarations stops declaration' fuel' c') := by
  induction paired generalizing c c' with
  | nil => exact ⟨.nil, .nil, cursor⟩
  | cons _ _ ih =>
    unfold Parse.declarations
    rw [cursor.atEnd, P.kind cursor.current]
    split
    · exact ⟨.nil, .nil, cursor⟩
    · have first := h c c' cursor
      have others := ih first.cursor
      refine ⟨List.rel_append ?_ others.statements, List.rel_append first.errors others.errors,
        others.cursor⟩
      rcases first.result_cases with ⟨hr, hr'⟩ | ⟨a, a', hr, hr', both⟩
      · rw [hr, hr']
        exact .nil
      · rw [hr, hr']
        exact .cons both .nil

theorem Alike.blockWith {declaration declaration' : Parse Stmt}
    (h : Alike P (Stmt.Alike P) declaration declaration') :
    Alike P (Stmt.Alike P) (blockWith declaration) (blockWith declaration') := by
  intro c c' cursor
  have body := h.declarations [.rightBrace] cursor.ahead cursor
  have closing := alike_expect .rightBrace .expectBraceAfterBlock _ _ body.cursor
  refine ⟨?_, List.rel_append body.errors closing.errors, closing.cursor⟩
  unfold Parse.blockWith
  rcases closing.result_cases with ⟨hr, hr'⟩ | ⟨a, a', hr, hr', -⟩
  · simp only [hr, hr']
    exact .none
  · simp only [hr, hr']
    exact .some (.block body.statements)

theorem alike_overdeepBlock : Alike P (Stmt.Alike P) overdeepBlock overdeepBlock :=
  fun _ _ cursor => ⟨.none, .cons (.at .tooMuchNesting cursor.current) .nil, cursor.skipBlock⟩

theorem alike_block (room : Nat) : Alike P (Stmt.Alike P) (block room) (block room) := by
  induction room with
  | zero => exact alike_overdeepBlock
  | succ room ih => exact (alike_declarationWith (alike_expression room) ih).blockWith

/-- Programs are read in step. -/
theorem alike_program (room : Nat) {c c' : TokenCursor} (cursor : c.Alike P c') :
    (program room c).Alike P (program room c') :=
  (alike_declarationWith (alike_expression room) (alike_block room)).declarations []
    cursor.ahead cursor

end Parse

/-! ## The whole parse -/

namespace Pairing

variable {P : Pairing}

/-- Where one sequence is cut, a paired one can be cut. -/
theorem exists_cut {front back tokens' : List Token}
    (h : List.Forall₂ P.rel (front ++ back) tokens') :
    ∃ front' back', tokens' = front' ++ back' ∧ List.Forall₂ P.rel front front' ∧
      List.Forall₂ P.rel back back' := by
  have taken := List.forall₂_take front.length h
  have left := List.forall₂_drop front.length h
  rw [List.take_left] at taken
  rw [List.drop_left] at left
  exact ⟨_, _, (List.take_append_drop front.length tokens').symm, taken, left⟩

theorem exists_getLast? {tokens tokens' : List Token} (h : List.Forall₂ P.rel tokens tokens')
    {last : Token} (present : tokens.getLast? = some last) :
    ∃ last', tokens'.getLast? = some last' ∧ P.rel last last' := by
  obtain ⟨body, rfl⟩ := List.getLast?_eq_some_iff.1 present
  obtain ⟨body', back', rfl, -, back⟩ := exists_cut h
  obtain ⟨last', more', paired, others, rfl⟩ := List.forall₂_cons_left_iff.1 back
  obtain rfl := List.forall₂_nil_left_iff.1 others
  exact ⟨last', List.getLast?_concat, paired⟩

theorem map_kind_eq {tokens tokens' : List Token} (h : List.Forall₂ P.rel tokens tokens') :
    tokens.map (·.kind) = tokens'.map (·.kind) := by
  induction h with
  | nil => rfl
  | cons first _ ih => rw [List.map_cons, List.map_cons, P.kind first, ih]

/-- Sequences with the same kinds are paired place by place. -/
theorem forall₂_byPlace {tokens tokens' : List Token}
    (kinds : tokens.map (·.kind) = tokens'.map (·.kind)) :
    List.Forall₂ (byPlace tokens tokens').rel tokens tokens' := by
  have length : tokens.length = tokens'.length := by simpa using congrArg List.length kinds
  refine List.forall₂_of_length_eq_of_get length fun place h h' => ?_
  have kind : tokens[place].kind = tokens'[place].kind := by
    have here := congrArg (·[place]?) kinds
    simpa [h, h'] using here
  exact ⟨kind, place, List.getElem?_eq_getElem h, List.getElem?_eq_getElem h'⟩

end Pairing

/-- Parses of paired sequences begin at the same place. -/
theorem TokenCursor.exists_alike {P : Pairing} {tokens tokens' : List Token}
    (h : List.Forall₂ P.rel tokens tokens') {last : Token} (present : tokens.getLast? = some last)
    (ends : last.kind = .eof) :
    ∃ c c', ofTokens? tokens = some c ∧ ofTokens? tokens' = some c' ∧ c.Alike P c' := by
  obtain ⟨last', present', final⟩ := Pairing.exists_getLast? h present
  obtain ⟨ahead, stop, more, rfl, readable, hstop⟩ := exists_readable present ends
  obtain ⟨ahead', back', rfl, front, back⟩ := Pairing.exists_cut h
  obtain ⟨stop', more', first, -, rfl⟩ := List.forall₂_cons_left_iff.1 back
  -- the first end of the other sequence is at the same place
  have readable' : ∀ token ∈ ahead', token.kind ≠ .eof := by
    have none_before : TokenKind.eof ∉ ahead'.map (·.kind) := by
      rw [← Pairing.map_kind_eq front]
      simpa using readable
    simpa using none_before
  have hstop' : stop'.kind = .eof := by rw [← P.kind first, hstop]
  have ends' : last'.kind = .eof := by rw [← P.kind final, ends]
  exact ⟨_, _, ofTokens?_append_cons readable hstop present ends,
    ofTokens?_append_cons readable' hstop' present' ends', rfl, final, front, first, rfl⟩

/-- Two sequences with the same kinds, both with an end-of-source token at the end, are parsed in
step under any limit: the statements are of one shape, their names, operators and literals are what
the tokens at the same places of the two sequences say, and the errors report the same problems in
the same order, each at the token at the same place. -/
theorem parse_alike {tokens tokens' : List Token}
    (kinds : tokens.map (·.kind) = tokens'.map (·.kind)) {last : Token}
    (present : tokens.getLast? = some last) (ends : last.kind = .eof) (maxDepth : Int) :
    ∃ d d', parse tokens maxDepth = .ok d ∧ parse tokens' maxDepth = .ok d' ∧
      List.Forall₂ (Stmt.Alike (.byPlace tokens tokens')) d.statements d'.statements ∧
      List.Forall₂ (SyntaxError.Alike (.byPlace tokens tokens')) d.errors d'.errors := by
  obtain ⟨c, c', found, found', cursor⟩ :=
    TokenCursor.exists_alike (Pairing.forall₂_byPlace kinds) present ends
  have program := Parse.alike_program (room maxDepth 0) cursor
  exact ⟨_, _, by rw [parse, found], by rw [parse, found'], program.statements, program.errors⟩

/-- A sequence that has nothing but its kinds in common with `brokenBeforePrint`: some of its words
are none of their kinds, some of its values are missing or too many, and it is on three lines. -/
def rewordedBeforePrint : List Token :=
  [⟨.number, "", .nil, 1⟩, ⟨.equal, "is", .nil, 1⟩, ⟨.identifier, "2", .number .one, 1⟩,
    ⟨.semicolon, "", .nil, 1⟩, ⟨.rightParen, "(", .nil, 2⟩, ⟨.identifier, "y", .nil, 2⟩,
    ⟨.semicolon, ";", .nil, 2⟩, ⟨.kwPrint, "var", .nil, 3⟩, ⟨.minus, "-", .nil, 3⟩,
    ⟨.identifier, "z", .text "z", 3⟩, ⟨.semicolon, ";", .nil, 3⟩, ⟨.eof, "end", .nil, 3⟩]

/-- The second parse reports its own words and lines where the first one reports `=` and `)`. -/
theorem parse_alike_rewordedBeforePrint :
    ∃ d d', parse brokenBeforePrint 64 = .ok d ∧ parse rewordedBeforePrint 64 = .ok d' ∧
      d'.errors = [⟨1, .invalidTarget, some "is"⟩, ⟨2, .expectExpression, some "("⟩] ∧
      List.Forall₂ (Stmt.Alike (.byPlace brokenBeforePrint rewordedBeforePrint)) d.statements
        d'.statements ∧
      List.Forall₂ (SyntaxError.Alike (.byPlace brokenBeforePrint rewordedBeforePrint)) d.errors
        d'.errors := by
  obtain ⟨d, d', hd, hd', statements, errors⟩ :=
    @parse_alike brokenBeforePrint rewordedBeforePrint rfl _ rfl rfl 64
  have computed : some d'.errors =
      (parse rewordedBeforePrint 64).toOption.map (·.errors) := by rw [hd']; rfl
  exact ⟨d, d', hd, hd', Option.some.inj computed, statements, errors⟩

end LoxCheck
