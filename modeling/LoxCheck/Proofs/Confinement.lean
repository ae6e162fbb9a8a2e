import LoxCheck.Proofs.ProgressTheorems

/-!
# Steps end at a semicolon

No expression reads a semicolon, and a statement reads at most the first one it meets and stops
there. So what a declaration makes of the tokens up to a semicolon, recovery included, does not
depend on what follows the semicolon.
-/

namespace LoxCheck

namespace Parse

variable {α β : Type} {extra : Nat}

/-- Before tokens that end with a semicolon, the step has one outcome whatever follows, and it does
not go beyond the tokens before the semicolon, or by no more than `extra` if it has a result. -/
def Confined (extra : Nat) (p : Parse α) : Prop :=
  ∀ (inside : List Token) (semicolon : Token), semicolon.kind = .semicolon →
    ∃ (result : Option α) (errors : List SyntaxError) (n : Nat),
      n ≤ inside.length + (if result.isSome then extra else 0) ∧
      ∀ (c : TokenCursor) (rest : List Token), c.ahead = inside ++ semicolon :: rest →
        p c = ⟨result, errors, c.skip n⟩

theorem current_of_append {c : TokenCursor} {inside rest : List Token} {semicolon : Token}
    (hc : c.ahead = inside ++ semicolon :: rest) : c.current = inside.headD semicolon := by
  rw [TokenCursor.current, hc]
  cases inside <;> rfl

/-- What is left of the tokens before the semicolon. -/
theorem ahead_skip_of_le {c : TokenCursor} {inside rest : List Token} {semicolon : Token} {n : Nat}
    (hc : c.ahead = inside ++ semicolon :: rest) (bound : n ≤ inside.length) :
    (c.skip n).ahead = inside.drop n ++ semicolon :: rest := by
  rw [TokenCursor.ahead_skip, hc, List.drop_append_of_le_length bound]

/-- Nothing is read. -/
theorem Confined.stay {p : Parse α} {f : Token → Option α × List SyntaxError}
    (h : ∀ c, p c = ⟨(f c.current).1, (f c.current).2, c⟩) : Confined extra p := by
  intro inside semicolon _
  refine ⟨(f (inside.headD semicolon)).1, (f (inside.headD semicolon)).2, 0, Nat.zero_le _, ?_⟩
  intro c rest hc
  rw [h, current_of_append hc, TokenCursor.skip_zero]

theorem Confined.andThen {p : Parse α} {f : α → Parse β} (hp : Confined 0 p)
    (hf : ∀ a, Confined extra (f a)) : Confined extra (p.andThen f) := by
  intro inside semicolon hs
  obtain ⟨result, errors, n, bound, first⟩ := hp inside semicolon hs
  have bound : n ≤ inside.length := by simpa using bound
  cases result with
  | none =>
    refine ⟨none, errors, n, by simpa using bound, fun c rest hc => ?_⟩
    rw [andThen_of_none (by rw [first c rest hc]), first c rest hc]
  | some a =>
    obtain ⟨result', errors', n', bound', second⟩ := hf a (inside.drop n) semicolon hs
    rw [List.length_drop] at bound'
    refine ⟨result', errors ++ errors', n + n', by omega, fun c rest hc => ?_⟩
    have found : (p c).result = some a := by rw [first c rest hc]
    rw [andThen_of_some found, first c rest hc, second _ rest (ahead_skip_of_le hc bound),
      TokenCursor.skip_skip]

/-- A semicolon is not taken for any other token. -/
theorem confined_takeIf {kinds : List TokenKind} (h : TokenKind.semicolon ∉ kinds) :
    Confined 0 (takeIf kinds) := by
  intro inside semicolon hs
  by_cases listed : (inside.headD semicolon).kind ∈ kinds
  · -- the token ahead is the semicolon if nothing stands before it
    cases inside with
    | nil => exact absurd (hs ▸ listed) h
    | cons token inside =>
      refine ⟨some (some token), [], 1, by simp, fun c rest hc => ?_⟩
      exact takeIf_of_mem hc listed
  · refine ⟨some none, [], 0, Nat.zero_le _, fun c rest hc => ?_⟩
    apply takeIf_of_not_mem
    rw [hc]
    cases inside <;> simpa using listed

/-- As fuel for a chain, the tokens before the semicolon are enough. -/
theorem binaryTail_eq_of_fuel {operators : List TokenKind} {operand : Parse Expr}
    (h : TokenKind.semicolon ∉ operators) (ho : Confined 0 operand) {semicolon : Token}
    (hs : semicolon.kind = .semicolon) {rest : List Token} (fuel fuel' : List Token) :
    ∀ {inside : List Token} {left : Expr} {c : TokenCursor},
      c.ahead = inside ++ semicolon :: rest → inside.length ≤ fuel.length →
      inside.length ≤ fuel'.length →
      binaryTail operators operand fuel left c = binaryTail operators operand fuel' left c := by
  induction fuel generalizing fuel' with
  | nil =>
    intro inside left c hc enough _
    obtain rfl := List.length_eq_zero_iff.1 (Nat.le_zero.1 enough)
    have ended : ∀ token ∈ c.ahead.head?, token.kind ∉ operators := by simpa [hc, hs] using h
    rw [binaryTail_of_end ended, binaryTail_of_end ended]
  | cons token fuel ih =>
    intro inside left c hc enough enough'
    by_cases ended : ∀ token ∈ c.ahead.head?, token.kind ∉ operators
    · rw [binaryTail_of_end ended, binaryTail_of_end ended]
    · cases inside with
      | nil => exact absurd (by simpa [hc, hs] using h) ended
      | cons operator inside =>
        have listed : operator.kind ∈ operators := by simpa [hc] using ended
        have after := TokenCursor.ahead_advance_of_ahead hc
        rw [List.length_cons] at enough enough'
        obtain ⟨token', fuel', rfl⟩ := List.exists_cons_of_length_pos (by omega : 0 < fuel'.length)
        rw [List.length_cons] at enough enough'
        have step : ∀ (token : Token) (fuel : List Token),
            binaryTail operators operand (token :: fuel) left c =
              operand.andThen (fun right =>
                binaryTail operators operand fuel (.binary left operator right)) c.advance :=
          fun _ _ => takeIf_andThen_of_mem _ hc listed
        obtain ⟨result, errors, n, bound, outcome⟩ := ho inside semicolon hs
        have bound : n ≤ inside.length := by simpa using bound
        have right := outcome c.advance rest after
        have left_over := ahead_skip_of_le after bound
        -- the operator is out of the way, so that both fuels have lost one token with it
        rw [step, step]
        cases result with
        | none => rw [andThen_of_none (by rw [right]), andThen_of_none (by rw [right])]
        | some tree =>
          have found : (operand c.advance).result = some tree := by rw [right]
          have others := @ih fuel' (inside.drop n) (.binary left operator tree) _ left_over
            (by rw [List.length_drop]; omega) (by rw [List.length_drop]; omega)
          rw [andThen_of_some found, andThen_of_some found, right, others]

theorem semicolon_not_mem {kinds : List TokenKind} (listed : ∀ kind ∈ kinds, kind ∈ expressionKinds) :
    TokenKind.semicolon ∉ kinds :=
  fun h => absurd (listed _ h) (by decide)

theorem confined_sequential : Sequential fun _ p _ => Confined 0 p where
  done a := .stay (f := fun _ => (some a, [])) fun _ => rfl
  andThen := Confined.andThen
  takeIf listed := confined_takeIf (semicolon_not_mem listed)

theorem confined_level : LevelClosed fun _ p _ => Confined 0 p where
  toSequential := confined_sequential
  binaryLevel {operators operand _} listed ho := by
    refine ho.andThen fun left inside semicolon hs => ?_
    obtain ⟨result, errors, n, bound, tail⟩ :=
      @Sequential.binaryTail _ confined_sequential _ operand operand listed ho inside left
        inside semicolon hs
    refine ⟨result, errors, n, bound, fun c rest hc => ?_⟩
    have enough : inside.length ≤ c.ahead.length := by
      rw [hc, List.length_append]
      omega
    rw [← tail c rest hc]
    exact binaryTail_eq_of_fuel (semicolon_not_mem listed) ho hs _ _ hc enough (Nat.le_refl _)

theorem confined_fail {problem : SyntaxProblem} : Confined 0 (fail problem : Parse α) :=
  .stay (f := fun token => (none, [SyntaxError.at problem token])) fun _ => rfl

theorem confined_closed : ExpressionClosed fun _ p _ => Confined 0 p where
  toLevelClosed := confined_level
  fail _ := confined_fail
  overflow _ := confined_fail
  assignment := @LevelClosed.assignment _ confined_level fun token =>
    .stay (f := fun _ => (some (), [SyntaxError.at .invalidTarget token])) fun _ => rfl

/-- No expression goes beyond a semicolon or looks beyond it. -/
theorem confined_expression (room : Nat) : Confined 0 (expression room) :=
  confined_closed.expression (Nat.le_refl room)

/-! ## Statements -/

/-- A semicolon that is asked for is read, and nothing after it. -/
theorem confined_semicolon (problem : SyntaxProblem) (statement : Stmt) :
    Confined 1 ((expect .semicolon problem).andThen fun _ => done statement) := by
  intro inside semicolon hs
  by_cases closed : (inside.headD semicolon).kind = .semicolon
  · refine ⟨some statement, [], 1, by simp, fun c rest hc => ?_⟩
    have next : c.ahead = inside.headD semicolon :: c.advance.ahead := by
      cases inside <;> exact TokenCursor.ahead_eq_cons hc
    exact andThen_of_eq (expect_of_ahead problem next closed)
  · refine ⟨none, [SyntaxError.at problem (inside.headD semicolon)], 0, Nat.zero_le _, ?_⟩
    intro c rest hc
    have current := current_of_append hc
    rcases expect_cases .semicolon problem c with ⟨token, more, next, hk, -⟩ | ⟨-, eq⟩
    · rw [TokenCursor.current_of_ahead next] at current
      exact absurd (current ▸ hk) closed
    · rw [andThen_of_none (by rw [eq]), eq, current, TokenCursor.skip_zero]

theorem Confined.choice {kinds : List TokenKind} (h : TokenKind.semicolon ∉ kinds)
    {f : Option Token → Parse β} (taken : ∀ token, Confined extra (f (some token)))
    (left : Confined extra (f none)) : Confined extra ((takeIf kinds).andThen f) := by
  apply (confined_takeIf h).andThen
  intro found
  cases found with
  | some token => exact taken token
  | none => exact left

theorem confined_expressionStatement {expression : Parse Expr} (he : Confined 0 expression) :
    Confined 1 (expressionStatement expression) :=
  he.andThen fun _ => confined_semicolon _ _

theorem confined_printStatement {expression : Parse Expr} (he : Confined 0 expression) :
    Confined 1 (printStatement expression) :=
  he.andThen fun _ => confined_semicolon _ _

theorem confined_varDeclaration {expression : Parse Expr} (he : Confined 0 expression) :
    Confined 1 (varDeclaration expression) := by
  have name : Confined 0 (expect .identifier .expectVariableName) :=
    confined_closed.expect (by decide) (by decide)
  have value : Confined 0 (initializer expression) := by
    apply Confined.choice (by decide)
    · exact fun _ => he.andThen fun _ => confined_closed.done _
    · exact confined_closed.done _
  exact name.andThen fun _ => value.andThen fun _ => confined_semicolon _ _

/-- A statement that is not a block. -/
def unbracedStatement (expression : Parse Expr) : Parse Stmt := do
  match ← takeIf [.kwPrint] with
  | some _ => printStatement expression
  | none => expressionStatement expression

/-- A declaration that is not a block, without recovery. -/
def unbraced (expression : Parse Expr) : Parse Stmt := do
  match ← takeIf [.kwVar] with
  | some _ => varDeclaration expression
  | none => unbracedStatement expression

theorem SimpleClosed.unbraced {R : (α : Type) → Parse α → Parse α → Prop} (closed : SimpleClosed R)
    {expression expression' : Parse Expr} (he : R Expr expression expression') :
    R Stmt (unbraced expression) (unbraced expression') :=
  closed.choiceAny (by decide) (fun _ => closed.varDeclaration he)
    (closed.choiceAny (by decide) (fun _ => closed.printStatement he)
      (closed.expressionStatement he))

theorem confined_unbraced {expression : Parse Expr} (he : Confined 0 expression) :
    Confined 1 (unbraced expression) := by
  have statement : Confined 1 (unbracedStatement expression) := by
    apply Confined.choice (by decide)
    · exact fun _ => confined_printStatement he
    · exact confined_expressionStatement he
  apply Confined.choice (by decide)
  · exact fun _ => confined_varDeclaration he
  · exact statement

theorem statementWith_eq_unbraced (expression : Parse Expr) (block : Parse Stmt) {c : TokenCursor}
    (h : ∀ token ∈ c.ahead.head?, token.kind ≠ .leftBrace) :
    statementWith expression block c = unbracedStatement expression c := by
  rcases takeIf_cases [.kwPrint] c with ⟨token, rest, -, -, eq⟩ | ⟨-, eq⟩
  · have left : statementWith expression block c = printStatement expression c.advance :=
      andThen_of_eq eq
    have right : unbracedStatement expression c = printStatement expression c.advance :=
      andThen_of_eq eq
    rw [left, right]
  · have no_brace : takeIf [.leftBrace] c = ⟨some none, [], c⟩ :=
      takeIf_of_not_mem (by simpa using h)
    have left : statementWith expression block c = expressionStatement expression c :=
      (andThen_of_eq eq).trans (andThen_of_eq no_brace)
    have right : unbracedStatement expression c = expressionStatement expression c :=
      andThen_of_eq eq
    rw [left, right]

/-- Before any token but an opening brace, a declaration is not a block. -/
theorem attempt_eq_unbraced (room : Nat) {c : TokenCursor}
    (h : ∀ token ∈ c.ahead.head?, token.kind ≠ .leftBrace) :
    attempt room c = unbraced (expression room) c := by
  rcases takeIf_cases [.kwVar] c with ⟨token, rest, -, -, eq⟩ | ⟨-, eq⟩
  · have left : attempt room c = varDeclaration (expression room) c.advance := andThen_of_eq eq
    have right : unbraced (expression room) c = varDeclaration (expression room) c.advance :=
      andThen_of_eq eq
    rw [left, right]
  · have left : attempt room c = statementWith (expression room) (block room) c := andThen_of_eq eq
    have right : unbraced (expression room) c = unbracedStatement (expression room) c :=
      andThen_of_eq eq
    rw [left, right]
    exact statementWith_eq_unbraced _ _ h

/-! ## Recovery -/

theorem boundary_of_semicolon {previous : Token} (hs : previous.kind = .semicolon)
    (tokens : List Token) : TokenCursor.boundary previous tokens = 0 := by
  cases tokens <;> simp [TokenCursor.boundary, hs]

/-- A semicolon ends the search for a statement boundary. -/
theorem exists_boundary (previous : Token) (inside : List Token) {semicolon : Token}
    (hs : semicolon.kind = .semicolon) :
    ∃ n, n ≤ inside.length + 1 ∧
      ∀ rest, TokenCursor.boundary previous (inside ++ semicolon :: rest) = n := by
  induction inside generalizing previous with
  | nil =>
    by_cases ended : previous.kind = .semicolon
    · exact ⟨0, Nat.zero_le _, fun rest => by simp [TokenCursor.boundary, ended]⟩
    · refine ⟨1, Nat.le_refl _, fun rest => ?_⟩
      -- the search passes the semicolon, and stops right behind it
      have after : TokenCursor.boundary semicolon rest = 0 := boundary_of_semicolon hs rest
      have other : semicolon.kind.startsStatement = false := by
        rw [hs]
        rfl
      simp [TokenCursor.boundary, ended, other, after]
  | cons token inside ih =>
    by_cases ended : (previous.kind = .semicolon || token.kind.startsStatement) = true
    · refine ⟨0, Nat.zero_le _, fun rest => ?_⟩
      rw [List.cons_append, TokenCursor.boundary, if_pos ended]
    · obtain ⟨n, bound, eq⟩ := ih token
      refine ⟨n + 1, Nat.succ_le_succ bound, fun rest => ?_⟩
      rw [List.cons_append, TokenCursor.boundary, if_neg ended, eq]

/-- Recovery from within the tokens before a semicolon stops behind the semicolon at the latest. -/
theorem exists_toBoundary {inside : List Token} {semicolon : Token}
    (hs : semicolon.kind = .semicolon) {n : Nat} (bound : n ≤ inside.length) :
    ∃ m, m ≤ inside.length + 1 ∧
      ∀ (c : TokenCursor) (rest : List Token), c.ahead = inside ++ semicolon :: rest →
        (c.skip n).toBoundary c.position = c.skip m := by
  have recovers : ∀ (c : TokenCursor) (rest : List Token),
      c.ahead = inside ++ semicolon :: rest →
      (c.skip n).toBoundary c.position =
        c.skip (max n 1 + TokenCursor.boundary (c.skip (max n 1)).previous
          (c.skip (max n 1)).ahead) := by
    intro c rest hc
    have within : n ≤ c.ahead.length := by
      rw [hc, List.length_append]
      omega
    rw [TokenCursor.toBoundary_skip within, TokenCursor.skip_skip]
  have positive : 0 < max n 1 := by omega
  by_cases short : max n 1 ≤ inside.length
  · have within : max n 1 - 1 < inside.length := by omega
    obtain ⟨m, bound', eq⟩ :=
      exists_boundary inside[max n 1 - 1] (inside.drop (max n 1)) hs
    rw [List.length_drop] at bound'
    refine ⟨max n 1 + m, by omega, fun c rest hc => ?_⟩
    have previous : (c.skip (max n 1)).previous = inside[max n 1 - 1] := by
      have within' : max n 1 - 1 < c.ahead.length := by
        rw [hc, List.length_append]
        omega
      have last := TokenCursor.previous_skip within'
      rw [show max n 1 - 1 + 1 = max n 1 by omega] at last
      simp only [last, hc, List.getElem_append_left within]
    rw [recovers c rest hc, previous, ahead_skip_of_le hc short, eq]
  · -- the semicolon is the only token, and it is the one that is discarded
    obtain rfl : inside = [] := List.length_eq_zero_iff.1 (by omega)
    obtain rfl : n = 0 := Nat.le_zero.1 bound
    refine ⟨1, Nat.le_refl _, fun c rest hc => ?_⟩
    have previous : (c.skip 1).previous = semicolon := by
      rw [TokenCursor.skip_one, TokenCursor.advance_of_ahead hc]
    rw [recovers c rest hc]
    show c.skip (1 + TokenCursor.boundary (c.skip 1).previous _) = _
    rw [previous, boundary_of_semicolon hs]

/-- Before tokens without an opening brace that end with a semicolon, what a declaration finds before
any recovery does not depend on what follows. -/
theorem exists_attempt_of_segment (room : Nat) {inside : List Token} {semicolon : Token}
    (hs : semicolon.kind = .semicolon) (unbraced : ∀ token ∈ inside, token.kind ≠ .leftBrace) :
    ∃ (result : Option Stmt) (errors : List SyntaxError) (n : Nat),
      n ≤ inside.length + (if result.isSome then 1 else 0) ∧
      ∀ (c : TokenCursor) (rest : List Token), c.ahead = inside ++ semicolon :: rest →
        attempt room c = ⟨result, errors, c.skip n⟩ := by
  obtain ⟨result, errors, n, bound, outcome⟩ :=
    confined_unbraced (confined_expression room) inside semicolon hs
  refine ⟨result, errors, n, bound, fun c rest hc => ?_⟩
  have no_brace : ∀ token ∈ c.ahead.head?, token.kind ≠ .leftBrace := by
    rw [hc]
    cases inside with
    | nil => simp [hs]
    | cons token inside => simpa using unbraced token List.mem_cons_self
  rw [attempt_eq_unbraced room no_brace, outcome c rest hc]

/-- A declaration that moves by a number of tokens moves by at least one. -/
theorem pos_of_declaration {room n : Nat} {c : TokenCursor} (nonempty : c.ahead ≠ [])
    (bound : n ≤ c.ahead.length) (moved : (declaration room c).cursor = c.skip n) : 0 < n := by
  obtain ⟨m, positive, onward⟩ := declaration_progress room nonempty
  have place := onward.position
  rw [moved, TokenCursor.position_skip bound] at place
  omega

/-- Before such tokens a declaration has one outcome whatever follows, recovery included, and stops
behind the semicolon at the latest. -/
theorem exists_declaration_of_segment (room : Nat) {inside : List Token} {semicolon : Token}
    (hs : semicolon.kind = .semicolon) (unbraced : ∀ token ∈ inside, token.kind ≠ .leftBrace) :
    ∃ (result : Option Stmt) (errors : List SyntaxError) (n : Nat),
      0 < n ∧ n ≤ inside.length + 1 ∧
      ∀ (c : TokenCursor) (rest : List Token), c.Fresh → c.ahead = inside ++ semicolon :: rest →
        declaration room c = ⟨result, errors, c.skip n⟩ := by
  -- that a token is read is seen from one cursor before these tokens
  suffices h : ∃ (result : Option Stmt) (errors : List SyntaxError) (n : Nat),
      n ≤ inside.length + 1 ∧
      ∀ (c : TokenCursor) (rest : List Token), c.Fresh → c.ahead = inside ++ semicolon :: rest →
        declaration room c = ⟨result, errors, c.skip n⟩ by
    obtain ⟨result, errors, n, bound, outcome⟩ := h
    let c := TokenCursor.start (inside ++ [semicolon]) semicolon semicolon
    have read := outcome c [] (TokenCursor.fresh_start _ _ _) rfl
    have nonempty : c.ahead ≠ [] := List.append_ne_nil_of_right_ne_nil _ (List.cons_ne_nil _ _)
    have within : n ≤ c.ahead.length := by
      show n ≤ (inside ++ [semicolon]).length
      rw [List.length_append, List.length_singleton]
      exact bound
    exact ⟨result, errors, n, pos_of_declaration nonempty within (by rw [read]), bound, outcome⟩
  obtain ⟨result, errors, n, bound, attempted⟩ := exists_attempt_of_segment room hs unbraced
  cases result with
  | some statement =>
    refine ⟨some statement, errors, n, by simpa using bound, fun c rest _ hc => ?_⟩
    exact recovering_of_eq (attempted c rest hc)
  | none =>
    have bound : n ≤ inside.length := by simpa using bound
    obtain ⟨m, bound', recovers⟩ := exists_toBoundary hs bound
    refine ⟨none, errors, m, bound', fun c rest fresh hc => ?_⟩
    have failed : (attempt room c).result = none := by rw [attempted c rest hc]
    -- no block was skipped, so that recovery does look for a boundary
    have astray : (attempt room c).cursor.endsSkipped c.position = false := by
      rw [attempted c rest hc]
      exact fresh.endsSkipped_skip n
    rw [declaration_eq, recovering_of_none failed astray, attempted c rest hc, recovers c rest hc]

end Parse

end LoxCheck
