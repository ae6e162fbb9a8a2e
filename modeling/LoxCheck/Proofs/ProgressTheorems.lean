import LoxCheck.Proofs.StepTheorems

/-!
# Progress

Two properties of every step of the grammar: it only moves on, and without a result it has recorded
an error. A declaration moves on by at least one token, so that the tokens ahead are fuel enough for
a sequence of declarations.
-/

namespace LoxCheck

namespace Parse

variable {α β : Type}

/-! ## Steps move on -/

/-- A step that leaves the cursor where it was or further on. -/
def Moves (p : Parse α) : Prop := ∀ c : TokenCursor, ∃ n, c.Onward (p c).cursor n

/-- A step that reads at least one token whenever it has a result. -/
def Takes (p : Parse α) : Prop :=
  ∀ (c : TokenCursor) (a : α), (p c).result = some a → ∃ n, 0 < n ∧ c.Onward (p c).cursor n

theorem Moves.andThen {p : Parse α} {f : α → Parse β} (hp : Moves p) (hf : ∀ a, Moves (f a)) :
    Moves (p.andThen f) := by
  intro c
  obtain ⟨m, first⟩ := hp c
  cases hr : (p c).result with
  | none =>
    rw [andThen_of_none hr]
    exact ⟨m, first⟩
  | some a =>
    obtain ⟨n, second⟩ := hf a (p c).cursor
    rw [andThen_of_some hr]
    exact ⟨m + n, first.trans second⟩

theorem onward_advance {c : TokenCursor} {token : Token} {rest : List Token}
    (h : c.ahead = token :: rest) : c.Onward c.advance 1 := by
  have bound : 1 ≤ c.ahead.length := by
    rw [h, List.length_cons]
    omega
  exact .skip bound

theorem moves_takeIf (kinds : List TokenKind) : Moves (takeIf kinds) := by
  intro c
  rcases takeIf_cases kinds c with ⟨token, rest, h, -, eq⟩ | ⟨-, eq⟩
  · rw [eq]
    exact ⟨1, onward_advance h⟩
  · rw [eq]
    exact ⟨0, .refl c⟩

theorem Moves.declarations {declaration : Parse Stmt} (h : Moves declaration)
    (stops : List TokenKind) (fuel : List Token) (c : TokenCursor) :
    ∃ n, c.Onward (declarations stops declaration fuel c).cursor n := by
  induction fuel generalizing c with
  | nil => exact ⟨0, .refl c⟩
  | cons token fuel ih =>
    unfold Parse.declarations
    split
    · exact ⟨0, .refl c⟩
    · obtain ⟨m, first⟩ := h c
      obtain ⟨n, others⟩ := ih (declaration c).cursor
      exact ⟨m + n, first.trans others⟩

theorem moves_sequential : Sequential fun _ p _ => Moves p where
  done _ c := ⟨0, .refl c⟩
  andThen := Moves.andThen
  takeIf _ := moves_takeIf _

theorem moves_expect (kind : TokenKind) (problem : SyntaxProblem) : Moves (expect kind problem) := by
  refine (moves_takeIf [kind]).andThen fun found => ?_
  cases found <;> exact fun c => ⟨0, .refl c⟩

theorem moves_level : LevelClosed fun _ p _ => Moves p where
  toSequential := moves_sequential
  binaryLevel {_ operand _} listed h := h.andThen fun left c =>
    @Sequential.binaryTail _ moves_sequential _ operand operand listed h c.ahead left c

theorem moves_fail {problem : SyntaxProblem} : Moves (fail problem : Parse α) :=
  fun c => ⟨0, .refl c⟩

theorem moves_closed : StatementClosed fun _ p _ => Moves p where
  toLevelClosed := moves_level
  fail _ := moves_fail
  overflow _ := moves_fail
  assignment := @LevelClosed.assignment _ moves_level fun _ c => ⟨0, .refl c⟩
  takeAny _ := moves_takeIf _
  recovering {step _} h c := by
    obtain ⟨m, first⟩ := h c
    rw [recovering]
    split
    · exact ⟨m, first⟩
    · split
      · exact ⟨m, first⟩
      · -- recovery goes on from where the step stopped
        obtain ⟨n, bound, eq, -⟩ := (step c).cursor.toBoundary_onward c.position
        refine ⟨m + n, first.trans ?_⟩
        rw [eq]
        exact .skip bound
  blockWith h c := by
    obtain ⟨m, body⟩ := h.declarations [.rightBrace] c.ahead c
    obtain ⟨n, closing⟩ := moves_expect .rightBrace .expectBraceAfterBlock _
    exact ⟨m + n, body.trans closing⟩
  overdeepBlock _ c := ⟨_, c.skipBlock_onward⟩

theorem moves_expression (room : Nat) : Moves (expression room) :=
  moves_closed.expression (Nat.le_refl room)

theorem moves_block (room : Nat) : Moves (block room) :=
  moves_closed.block (Nat.le_refl room)

/-! ## Declarations make progress -/

theorem Takes.andThen_left {p : Parse α} {f : α → Parse β} (hp : Takes p)
    (hf : ∀ a, Moves (f a)) : Takes (p.andThen f) := by
  intro c b hb
  cases hr : (p c).result with
  | none =>
    rw [andThen_of_none hr] at hb
    exact absurd hb (by simp)
  | some a =>
    obtain ⟨m, positive, first⟩ := hp c a hr
    obtain ⟨n, second⟩ := hf a (p c).cursor
    rw [andThen_of_some hr]
    exact ⟨m + n, by omega, first.trans second⟩

theorem Takes.andThen_right {p : Parse α} {f : α → Parse β} (hp : Moves p)
    (hf : ∀ a, Takes (f a)) : Takes (p.andThen f) := by
  intro c b hb
  cases hr : (p c).result with
  | none =>
    rw [andThen_of_none hr] at hb
    exact absurd hb (by simp)
  | some a =>
    rw [andThen_of_some hr] at hb ⊢
    obtain ⟨m, first⟩ := hp c
    obtain ⟨n, positive, second⟩ := hf a (p c).cursor b hb
    exact ⟨m + n, by omega, first.trans second⟩

/-- Either the token looked for is read, or the step for other tokens reads one. -/
theorem Takes.choice {kinds : List TokenKind} {f : Option Token → Parse β}
    (taken : ∀ token, Moves (f (some token))) (left : Takes (f none)) :
    Takes ((takeIf kinds).andThen f) := by
  intro c b hb
  rcases takeIf_cases kinds c with ⟨token, rest, h, -, eq⟩ | ⟨-, eq⟩
  · have found : (takeIf kinds c).result = some (some token) := by rw [eq]
    obtain ⟨n, second⟩ := taken token c.advance
    rw [andThen_of_some found, eq]
    exact ⟨1 + n, by omega, (onward_advance h).trans second⟩
  · have found : (takeIf kinds c).result = some none := by rw [eq]
    rw [andThen_of_some found, eq] at hb ⊢
    exact left c b hb

theorem takes_expect (kind : TokenKind) (problem : SyntaxProblem) :
    Takes (expect kind problem) := by
  refine .choice (fun token => moves_closed.done token) ?_
  intro c a ha
  exact absurd ha (by simp [fail])

theorem takes_expressionStatement {expression : Parse Expr} (he : Moves expression) :
    Takes (expressionStatement expression) :=
  .andThen_right he fun _ =>
    (takes_expect .semicolon .expectSemicolonAfterExpression).andThen_left fun _ =>
      moves_closed.done _

/-- A block that was skipped after `start` ends beyond it. -/
theorem position_of_endsSkipped {start : Nat} {c : TokenCursor}
    (h : c.endsSkipped start = true) : start < c.position := by
  unfold TokenCursor.endsSkipped at h
  split at h
  · simp only [Bool.and_eq_true, decide_eq_true_eq, beq_iff_eq] at h
    omega
  · exact absurd h (by simp)

/-- A step with recovery reads a token, with or without a result. -/
theorem recovering_progress {step : Parse Stmt} (moves : Moves step) (takes : Takes step)
    {c : TokenCursor} (h : c.ahead ≠ []) :
    ∃ n, 0 < n ∧ c.Onward (recovering step c).cursor n := by
  obtain ⟨m, first⟩ := moves c
  have place := first.position
  cases hr : (step c).result with
  | some s =>
    rw [recovering_of_some hr]
    exact takes c s hr
  | none =>
    cases hs : (step c).cursor.endsSkipped c.position with
    | true =>
      -- a block that was skipped took the step forward
      have := position_of_endsSkipped hs
      rw [recovering_of_skipped hr hs]
      exact ⟨m, by omega, first⟩
    | false =>
      obtain ⟨n, bound, eq, positive⟩ := (step c).cursor.toBoundary_onward c.position
      rw [recovering_of_none hr hs]
      refine ⟨m + n, ?_, first.trans (eq ▸ .skip bound)⟩
      -- nothing read so far means that recovery itself discards the first token
      cases m with
      | succ m => omega
      | zero =>
        have stuck := positive (by omega) (by rwa [first.ahead, List.drop_zero])
        omega

/-- Whether it has a result or not, a declaration that begins before the end reads a token. -/
theorem declarationWith_progress {expression : Parse Expr} {block : Parse Stmt}
    (he : Moves expression) (hb : Moves block) {c : TokenCursor} (h : c.ahead ≠ []) :
    ∃ n, 0 < n ∧ c.Onward (declarationWith expression block c).cursor n := by
  have var : Moves (varDeclaration expression) :=
    @SimpleClosed.varDeclaration _ expression expression moves_closed.simple he
  have print : Moves (printStatement expression) :=
    @SimpleClosed.printStatement _ expression expression moves_closed.simple he
  have statement : Moves (statementWith expression block) :=
    @StatementClosed.statementWith _ expression expression block block moves_closed he hb
  show ∃ n, 0 < n ∧ c.Onward (recovering _ c).cursor n
  refine recovering_progress ?_ ?_ h
  · refine (moves_takeIf [.kwVar]).andThen fun found => ?_
    cases found with
    | some _ => exact var
    | none => exact statement
  · -- after `var`, `print` or an opening brace a token has been read, whatever comes next
    exact .choice (fun _ => var)
      (.choice (fun _ => print) (.choice (fun _ => hb) (takes_expressionStatement he)))

theorem declaration_progress (room : Nat) {c : TokenCursor} (h : c.ahead ≠ []) :
    ∃ n, 0 < n ∧ c.Onward (declaration room c).cursor n :=
  declarationWith_progress (moves_expression room) (moves_block room) h

/-! ## Sequences of declarations -/

/-- A step that reads at least one token unless it begins at the end. -/
def Advances (declaration : Parse Stmt) : Prop :=
  ∀ c : TokenCursor, c.ahead ≠ [] → ∃ n, 0 < n ∧ c.Onward (declaration c).cursor n

theorem Advances.length_lt {declaration : Parse Stmt} (h : Advances declaration)
    {c : TokenCursor} (nonempty : c.ahead ≠ []) :
    (declaration c).cursor.ahead.length < c.ahead.length := by
  obtain ⟨n, positive, onward⟩ := h c nonempty
  have := onward.length_ahead
  omega

/-- All declarations from a cursor up to a token of one of some kinds or the end. -/
def allDeclarations (stops : List TokenKind) (declaration : Parse Stmt) (c : TokenCursor) :
    Declarations :=
  declarations stops declaration c.ahead c

/-- More fuel than there are tokens ahead changes nothing. -/
theorem declarations_eq_all {declaration : Parse Stmt} (h : Advances declaration)
    (stops : List TokenKind) {fuel : List Token} {c : TokenCursor}
    (enough : c.ahead.length ≤ fuel.length) :
    declarations stops declaration fuel c = allDeclarations stops declaration c := by
  -- both fuels are replaced together: the induction is on the number of tokens ahead
  suffices agree : ∀ (m : Nat) (fuel fuel' : List Token) (c : TokenCursor),
      c.ahead.length ≤ m → c.ahead.length ≤ fuel.length → c.ahead.length ≤ fuel'.length →
      declarations stops declaration fuel c = declarations stops declaration fuel' c from
    agree _ _ _ _ (Nat.le_refl _) enough (Nat.le_refl _)
  intro m
  induction m with
  | zero =>
    intro fuel fuel' c hm _ _
    have ended : c.atEnd = true := by
      rw [TokenCursor.atEnd, List.isEmpty_iff, ← List.length_eq_zero_iff]
      omega
    cases fuel <;> cases fuel' <;> simp [declarations, ended]
  | succ m ih =>
    intro fuel fuel' c hm hf hf'
    cases hc : c.ahead with
    | nil =>
      have ended : c.atEnd = true := by rw [TokenCursor.atEnd, hc, List.isEmpty_nil]
      cases fuel <;> cases fuel' <;> simp [declarations, ended]
    | cons token rest =>
      have nonempty : c.ahead ≠ [] := by
        rw [hc]
        exact List.cons_ne_nil _ _
      have less := h.length_lt nonempty
      have positive := List.length_pos_iff.2 nonempty
      obtain ⟨x, fuel, rfl⟩ := List.exists_cons_of_length_pos (Nat.lt_of_lt_of_le positive hf)
      obtain ⟨y, fuel', rfl⟩ := List.exists_cons_of_length_pos (Nat.lt_of_lt_of_le positive hf')
      rw [List.length_cons] at hf hf'
      have others := ih fuel fuel' (declaration c).cursor (by omega) (by omega) (by omega)
      simp only [declarations, others]

theorem allDeclarations_of_stop {stops : List TokenKind} {declaration : Parse Stmt}
    {c : TokenCursor} (h : c.ahead = [] ∨ c.current.kind ∈ stops) :
    allDeclarations stops declaration c = ⟨[], [], c⟩ := by
  unfold allDeclarations
  cases hc : c.ahead with
  | nil => rfl
  | cons token rest =>
    have listed : c.current.kind ∈ stops := h.resolve_left (by simp [hc])
    simp [declarations, listed]

/-- The first declaration and then the others. -/
theorem allDeclarations_of_go {stops : List TokenKind} {declaration : Parse Stmt}
    (h : Advances declaration) {c : TokenCursor} (nonempty : c.ahead ≠ [])
    (going : c.current.kind ∉ stops) :
    allDeclarations stops declaration c =
      ⟨(declaration c).result.toList ++
          (allDeclarations stops declaration (declaration c).cursor).statements,
        (declaration c).errors ++
          (allDeclarations stops declaration (declaration c).cursor).errors,
        (allDeclarations stops declaration (declaration c).cursor).cursor⟩ := by
  have less := h.length_lt nonempty
  obtain ⟨token, rest, hc⟩ := List.exists_cons_of_ne_nil nonempty
  have more : c.atEnd = false := by rw [TokenCursor.atEnd, hc, List.isEmpty_cons]
  have enough : (declaration c).cursor.ahead.length ≤ rest.length := by
    rw [hc, List.length_cons] at less
    omega
  have step : allDeclarations stops declaration c =
      declarations stops declaration (token :: rest) c := by rw [allDeclarations, hc]
  rw [step, declarations, more]
  simp only [List.contains_iff_mem, going, Bool.false_or, if_false,
    declarations_eq_all h stops enough]

/-- What holds where declarations end, and before a declaration if it holds after it, holds
everywhere. -/
theorem Advances.induction {declaration : Parse Stmt} (h : Advances declaration)
    (stops : List TokenKind) {motive : TokenCursor → Prop}
    (stop : ∀ c, c.ahead = [] ∨ c.current.kind ∈ stops → motive c)
    (go : ∀ c, c.ahead ≠ [] → c.current.kind ∉ stops → motive (declaration c).cursor → motive c)
    (c : TokenCursor) : motive c := by
  generalize length : c.ahead.length = m
  induction m using Nat.strongRecOn generalizing c with
  | ind m ih =>
    by_cases ended : c.ahead = [] ∨ c.current.kind ∈ stops
    · exact stop c ended
    · rw [not_or] at ended
      -- the declaration leaves fewer tokens ahead
      have less := h.length_lt ended.1
      exact go c ended.1 ended.2 (ih _ (length ▸ less) _ rfl)

/-- Declarations end at the end of the tokens or before one that stops them. -/
theorem allDeclarations_ended {declaration : Parse Stmt} (h : Advances declaration)
    (stops : List TokenKind) (c : TokenCursor) :
    (allDeclarations stops declaration c).cursor.ahead = [] ∨
      (allDeclarations stops declaration c).cursor.current.kind ∈ stops := by
  induction c using h.induction stops with
  | stop c ended =>
    rw [allDeclarations_of_stop ended]
    exact ended
  | go c nonempty going ih =>
    rw [allDeclarations_of_go h nonempty going]
    exact ih

/-- A program is read to the end. -/
theorem ahead_program (room : Nat) (c : TokenCursor) : (program room c).cursor.ahead = [] := by
  have advances : Advances (declaration room) := fun _ => declaration_progress room
  have ended := allDeclarations_ended advances [] c
  exact ended.resolve_right (List.not_mem_nil)

/-- A block reads its declarations and then its closing brace, or reports that there is none. -/
theorem blockWith_cases (declaration : Parse Stmt) (c : TokenCursor) :
    (∃ closing rest, (allDeclarations [.rightBrace] declaration c).cursor.ahead = closing :: rest ∧
      closing.kind = .rightBrace ∧
      blockWith declaration c =
        ⟨some (.block (allDeclarations [.rightBrace] declaration c).statements),
          (allDeclarations [.rightBrace] declaration c).errors,
          (allDeclarations [.rightBrace] declaration c).cursor.advance⟩) ∨
    ((∀ token ∈ (allDeclarations [.rightBrace] declaration c).cursor.ahead.head?,
        token.kind ≠ .rightBrace) ∧
      blockWith declaration c =
        ⟨none, (allDeclarations [.rightBrace] declaration c).errors ++
          [SyntaxError.at .expectBraceAfterBlock
            (allDeclarations [.rightBrace] declaration c).cursor.current],
          (allDeclarations [.rightBrace] declaration c).cursor⟩) := by
  -- the closing brace is asked for where the declarations end
  have unfolded : blockWith declaration c =
      ⟨(expect .rightBrace .expectBraceAfterBlock
          (allDeclarations [.rightBrace] declaration c).cursor).result.map
            fun _ => .block (allDeclarations [.rightBrace] declaration c).statements,
        (allDeclarations [.rightBrace] declaration c).errors ++
          (expect .rightBrace .expectBraceAfterBlock
            (allDeclarations [.rightBrace] declaration c).cursor).errors,
        (expect .rightBrace .expectBraceAfterBlock
          (allDeclarations [.rightBrace] declaration c).cursor).cursor⟩ := rfl
  rcases expect_cases .rightBrace .expectBraceAfterBlock
    (allDeclarations [.rightBrace] declaration c).cursor with ⟨closing, rest, hc, hk, eq⟩ | ⟨hk, eq⟩
  · refine .inl ⟨closing, rest, hc, hk, ?_⟩
    rw [unfolded, eq, Option.map_some, List.append_nil]
  · refine .inr ⟨hk, ?_⟩
    rw [unfolded, eq, Option.map_none]

/-- A block whose declarations end at a closing brace is read, whatever they recorded. -/
theorem block_of_closing {room : Nat} {c after : TokenCursor} {statements : List Stmt}
    {errors : List SyntaxError} {closing : Token} {rest : List Token}
    (body : allDeclarations [.rightBrace] (declaration room) c = ⟨statements, errors, after⟩)
    (hc : after.ahead = closing :: rest) (hk : closing.kind = .rightBrace) :
    block (room + 1) c = ⟨some (.block statements), errors, after.advance⟩ := by
  show blockWith (declaration room) c = _
  rcases blockWith_cases (declaration room) c with ⟨_, _, _, _, eq⟩ | ⟨missing, -⟩
  · rw [eq, body]
  · rw [body] at missing
    exact absurd hk (missing closing (by simp [hc]))

/-! ## No result without an error -/

/-- A step that has recorded an error whenever it has no result. -/
def Explains (p : Parse α) : Prop := ∀ c : TokenCursor, (p c).result = none → (p c).errors ≠ []

theorem Explains.andThen {p : Parse α} {f : α → Parse β} (hp : Explains p)
    (hf : ∀ a, Explains (f a)) : Explains (p.andThen f) := by
  intro c
  cases hr : (p c).result with
  | none =>
    rw [andThen_of_none hr]
    exact fun _ => hp c hr
  | some a =>
    rw [andThen_of_some hr]
    intro h empty
    exact hf a _ h (List.append_eq_nil_iff.1 empty).2

theorem explains_takeIf (kinds : List TokenKind) : Explains (takeIf kinds) := by
  intro c h
  rcases takeIf_cases kinds c with ⟨token, rest, -, -, eq⟩ | ⟨-, eq⟩ <;>
    exact absurd h (by rw [eq]; simp)

theorem explains_sequential : Sequential fun _ p _ => Explains p where
  done _ _ h := absurd h (by simp [done])
  andThen := Explains.andThen
  takeIf _ := explains_takeIf _

theorem explains_level : LevelClosed fun _ p _ => Explains p where
  toSequential := explains_sequential
  binaryLevel {_ operand _} listed h := h.andThen fun left c =>
    @Sequential.binaryTail _ explains_sequential _ operand operand listed h c.ahead left c

theorem explains_fail {problem : SyntaxProblem} : Explains (fail problem : Parse α) :=
  fun _ _ => List.cons_ne_nil _ _

theorem explains_closed : StatementClosed fun _ p _ => Explains p where
  toLevelClosed := explains_level
  fail _ := explains_fail
  overflow _ := explains_fail
  assignment := @LevelClosed.assignment _ explains_level fun _ _ h =>
    absurd h (by simp [report])
  takeAny _ := explains_takeIf _
  recovering {step _} h c := by
    rw [recovering]
    split
    · exact h c
    · split <;> exact h c
  blockWith {declaration _} _ c h := by
    rcases blockWith_cases declaration c with ⟨closing, rest, -, -, eq⟩ | ⟨-, eq⟩
    · rw [eq] at h
      exact absurd h (by simp)
    · rw [eq]
      simp
  overdeepBlock _ _ _ := by simp [overdeepBlock, fail]

/-- A declaration that is dropped has been reported. -/
theorem declaration_explains (room : Nat) : Explains (declaration room) :=
  explains_closed.declaration (Nat.le_refl room)

end Parse

end LoxCheck
