import LoxCheck.Proofs.CountedGrammar
import LoxCheck.Proofs.Termination

/-!
# Counted levels are room

Every procedure of the grammar comes to what its step comes to, and closes no level but those it has
opened. By induction on the levels that can still be opened: a level that was opened is closed again
whatever was read in between, so that what follows has the same room as before.
-/

namespace LoxCheck

/-! ## Runs of steps -/

namespace ParseState

variable {α β : Type}

theorem run_andThen_of_none {step : Parse α} {next : α → Parse β} {p : ParseState}
    (h : (p.run step).1 = none) : p.run (step.andThen next) = (none, (p.run step).2) := by
  rw [run, Parse.andThen_of_none h]
  rfl

theorem run_andThen_of_some {step : Parse α} {next : α → Parse β} {p : ParseState} {a : α}
    (h : (p.run step).1 = some a) :
    p.run (step.andThen next) = (p.run step).2.run (next a) := by
  rw [run, Parse.andThen_of_some h, ← List.append_assoc]
  rfl

end ParseState

namespace Parse

/-- The declarations of a block. -/
def body (declaration : Parse Stmt) : Parse (List Stmt) := fun c =>
  let d := declarations [.rightBrace] declaration c.ahead c
  ⟨some d.statements, d.errors, d.cursor⟩

/-- A block is its declarations and then its closing brace. -/
theorem blockWith_eq (declaration : Parse Stmt) :
    blockWith declaration = (body declaration).andThen fun statements =>
      (expect .rightBrace .expectBraceAfterBlock).andThen fun _ => done (.block statements) := by
  funext c
  have read : (body declaration c).result =
      some (declarations [.rightBrace] declaration c.ahead c).statements := rfl
  have unfolded : blockWith declaration c =
      ⟨(expect .rightBrace .expectBraceAfterBlock (body declaration c).cursor).result.map
          fun _ => .block (declarations [.rightBrace] declaration c.ahead c).statements,
        (body declaration c).errors ++
          (expect .rightBrace .expectBraceAfterBlock (body declaration c).cursor).errors,
        (expect .rightBrace .expectBraceAfterBlock (body declaration c).cursor).cursor⟩ := rfl
  rw [andThen_of_some read, unfolded]
  cases closing :
    (expect .rightBrace .expectBraceAfterBlock (body declaration c).cursor).result with
  | none => rw [andThen_of_none closing, Option.map_none]
  | some brace =>
    rw [andThen_of_some closing, Option.map_some]
    simp [done]

end Parse

namespace Procedure

variable {α β : Type} {levels : Nat} {p : ParseState}

/-! ## Cursor helpers -/

@[simp]
theorem run_state (p : ParseState) : state.run p = (p, p) := rfl

@[simp]
theorem run_perform (m : Move) (p : ParseState) : (perform m).run p = ((), m.apply p) := rfl

@[simp]
theorem run_advance (p : ParseState) : advance.run p = p.advance := rfl

theorem run_takeIf (kinds : List TokenKind) (p : ParseState) :
    (takeIf kinds).run p = p.takeIf kinds := by
  obtain ⟨⟨position, previous, ahead, stop, skippedTo⟩, maxDepth, depth, errors⟩ := p
  cases ahead with
  | nil => simp [takeIf, ParseState.takeIf, ParseState.run, Parse.takeIf, TokenCursor.atEnd]
  | cons token rest =>
    by_cases listed : token.kind ∈ kinds <;>
      simp [takeIf, ParseState.takeIf, ParseState.run, ParseState.advance, Parse.takeIf,
        TokenCursor.atEnd, TokenCursor.current, TokenCursor.advance, listed]

theorem run_fail (problem : SyntaxProblem) (p : ParseState) :
    (fail problem : Procedure (Option α)).run p = p.run (Parse.fail problem) := rfl

theorem run_expect (kind : TokenKind) (problem : SyntaxProblem) (p : ParseState) :
    (expect kind problem).run p = p.expect kind problem := by
  by_cases found : p.cursor.current.kind = kind
  · simp [expect, ParseState.expect, found]
  · simp [expect, ParseState.expect, found, run_fail, ParseState.run, Parse.fail,
      ParseState.addError]

@[simp]
theorem run_enter (p : ParseState) : enter.run p = p.enter := rfl

theorem blockLength_cons (n : Nat) (token : Token) (rest : List Token) :
    TokenCursor.blockLength n (token :: rest) =
      (match openedAfter token.kind (n + 1) with
        | 0 => 0
        | m + 1 => TokenCursor.blockLength m rest) + 1 := by
  cases hk : token.kind <;> cases n <;> simp [TokenCursor.blockLength, openedAfter, hk]

/-- While `n` blocks inside a block are open, reading goes on to the closing brace of that one. -/
theorem run_closeBlocks (n : Nat) (p : ParseState) :
    (closeBlocks p.cursor.ahead (n + 1)).run p =
      ((), { p with cursor := p.cursor.skip (TokenCursor.blockLength n p.cursor.ahead) }) := by
  generalize h : p.cursor.ahead = fuel
  induction fuel generalizing p n with
  | nil => rfl
  | cons token rest ih =>
    have read : p.advance.1 = token := by
      simp [ParseState.advance, TokenCursor.advance_of_ahead h]
    have going : p.cursor.atEnd = false := by rw [TokenCursor.atEnd, h, List.isEmpty_cons]
    have turn : (closeBlocks (token :: rest) (n + 1)).run p =
        (closeBlocks rest (openedAfter token.kind (n + 1))).run p.advance.2 := by
      simp [closeBlocks, going, read]
    rw [turn, blockLength_cons]
    cases openedAfter token.kind (n + 1) with
    | zero => cases rest <;> rfl
    | succ m => exact ih m p.advance.2 (TokenCursor.ahead_advance_of_ahead h)

theorem run_skipBlock (p : ParseState) : skipBlock.run p = ((), p.skipBlock) := by
  simp only [skipBlock, run_bind, run_state, run_closeBlocks 0 p, run_perform]
  rfl

/-- The token before the current one is the one read last, and so the search for a statement
boundary sees what `boundary` is told. -/
theorem run_seekBoundary (p : ParseState) :
    (seekBoundary p.cursor.ahead).run p = ((), { p with
      cursor := p.cursor.skip (TokenCursor.boundary p.cursor.previous p.cursor.ahead) }) := by
  generalize h : p.cursor.ahead = fuel
  induction fuel generalizing p with
  | nil => rfl
  | cons token rest ih =>
    have going : p.cursor.atEnd = false := by rw [TokenCursor.atEnd, h, List.isEmpty_cons]
    have current := TokenCursor.current_of_ahead h
    have previous : p.cursor.advance.previous = token := by rw [TokenCursor.advance_of_ahead h]
    by_cases ended : p.cursor.previous.kind = .semicolon ∨ token.kind.startsStatement = true
    · simp [seekBoundary, TokenCursor.boundary, going, current, ended]
    · have turn : (seekBoundary (token :: rest)).run p = (seekBoundary rest).run p.advance.2 := by
        simp [seekBoundary, going, current, ended, Move.apply]
      have further : TokenCursor.boundary p.cursor.previous (token :: rest) =
          TokenCursor.boundary token rest + 1 := by
        simp [TokenCursor.boundary, ended]
      rw [turn, further, ih p.advance.2 (TokenCursor.ahead_advance_of_ahead h), ← previous]
      rfl

theorem run_toBoundary (start : Int) (p : ParseState) :
    (toBoundary start).run p = ((), p.toBoundary start) := by
  by_cases still : (p.cursor.position : Int) = start
  · have first : (toBoundary start).run p =
        (seekBoundary p.advance.2.cursor.ahead).run p.advance.2 := by
      simp [toBoundary, still, Move.apply]
    rw [first, run_seekBoundary, ParseState.toBoundary, TokenCursor.toBoundary, if_pos still]
    rfl
  · have first : (toBoundary start).run p = (seekBoundary p.cursor.ahead).run p := by
      simp [toBoundary, still]
    rw [first, run_seekBoundary, ParseState.toBoundary, TokenCursor.toBoundary, if_neg still]

theorem run_nested (inner full : Procedure (Option α)) (p : ParseState) :
    (nested inner full).run p = p.nested inner.run full.run := by
  rw [nested, run_bind, run_enter, ParseState.nested]
  split
  · simp only [run_bind, run_perform, run_pure]
    rfl
  · rfl

/-- Where no level can be opened, that is reported. -/
theorem run_nested_of_full {inner full : Procedure (Option α)} (closed : p.room = 0) :
    (nested inner full).run p = full.run (p.addError p.cursor.current .tooMuchNesting) := by
  rcases p.enter_cases with ⟨-, refused⟩ | ⟨opened, -⟩
  · rw [run_nested, ParseState.nested, refused]
    rfl
  · omega

theorem run_recovering (attempt : Procedure (Option Stmt)) (p : ParseState) :
    (recovering attempt).run p = ((attempt.run p).1,
      if (attempt.run p).1.isNone && !(attempt.run p).2.cursor.endsSkipped p.cursor.position then
        (attempt.run p).2.toBoundary p.cursor.position
      else (attempt.run p).2) := by
  cases result : (attempt.run p).1 with
  | some statement => simp [recovering, result]
  | none =>
    cases skipped : (attempt.run p).2.cursor.endsSkipped p.cursor.position <;>
      simp [recovering, result, skipped, run_toBoundary]

/-! ## What closes no level -/

@[simp]
theorem lawful_state (p : ParseState) : state.Lawful p := trivial

@[simp]
theorem lawful_perform {m : Move} (other : m ≠ .leave) (p : ParseState) :
    (perform m).Lawful p :=
  ⟨Move.changes other p, trivial⟩

@[simp]
theorem lawful_advance (p : ParseState) : advance.Lawful p := by simp [advance]

@[simp]
theorem lawful_takeIf (kinds : List TokenKind) (p : ParseState) : (takeIf kinds).Lawful p := by
  by_cases found : p.cursor.current.kind ∈ kinds ∧ p.cursor.atEnd = false <;>
    simp [takeIf, found]

@[simp]
theorem lawful_fail (problem : SyntaxProblem) (p : ParseState) :
    (fail problem : Procedure (Option α)).Lawful p := by
  simp [fail]

@[simp]
theorem lawful_expect (kind : TokenKind) (problem : SyntaxProblem) (p : ParseState) :
    (expect kind problem).Lawful p := by
  by_cases found : p.cursor.current.kind = kind <;> simp [expect, found]

@[simp]
theorem lawful_enter (p : ParseState) : enter.Lawful p := by simp [enter]

theorem lawful_closeBlocks (fuel : List Token) (opened : Nat) (p : ParseState) :
    (closeBlocks fuel opened).Lawful p := by
  induction fuel generalizing opened p with
  | nil => exact lawful_pure () p
  | cons token fuel ih =>
    by_cases ended : opened = 0 ∨ p.cursor.atEnd = true <;> simp [closeBlocks, ended, ih]

@[simp]
theorem lawful_skipBlock (p : ParseState) : skipBlock.Lawful p := by
  simp [skipBlock, lawful_closeBlocks]

theorem lawful_seekBoundary (fuel : List Token) (p : ParseState) :
    (seekBoundary fuel).Lawful p := by
  induction fuel generalizing p with
  | nil => exact lawful_pure () p
  | cons token fuel ih =>
    by_cases ended : (p.cursor.atEnd = true ∨ p.cursor.previous.kind = .semicolon) ∨
        p.cursor.current.kind.startsStatement = true <;>
      simp [seekBoundary, ended, ih]

@[simp]
theorem lawful_toBoundary (start : Int) (p : ParseState) : (toBoundary start).Lawful p := by
  by_cases still : (p.cursor.position : Int) = start <;>
    simp [toBoundary, still, lawful_seekBoundary]

theorem lawful_recovering {attempt : Procedure (Option Stmt)} (h : attempt.Lawful p) :
    (recovering attempt).Lawful p := by
  cases result : (attempt.run p).1 with
  | some statement => simp [recovering, h, result]
  | none =>
    cases skipped : (attempt.run p).2.cursor.endsSkipped p.cursor.position <;>
      simp [recovering, h, result, skipped]

/-! ## Steps told as procedures -/

/-- Whenever a number of levels can still be opened, a procedure comes to what a step comes to, and
closes no level but those it has opened. -/
structure Performs (levels : Nat) (proc : Procedure (Option α)) (step : Parse α) : Prop where
  run : ∀ p : ParseState, p.room = levels → p.cursor.stop.kind = .eof → proc.run p = p.run step
  lawful : ∀ p : ParseState, p.room = levels → p.cursor.stop.kind = .eof → proc.Lawful p

/-- The end of the source stays where it is. -/
theorem stop_run (proc : Procedure α) (p : ParseState) :
    (proc.run p).2.cursor.stop = p.cursor.stop := by
  obtain ⟨n, moved⟩ := (proc.reaches_run p).extends.moved
  exact moved.stop

/-- Looking for a token comes to the token or none, with as many levels and the same end. -/
theorem exists_run_takeIf (kinds : List TokenKind) (p : ParseState) :
    ∃ found after, (takeIf kinds).run p = (found, after) ∧
      p.run (Parse.takeIf kinds) = (some found, after) ∧ after.room = p.room ∧
      after.cursor.stop = p.cursor.stop := by
  have stop := stop_run (takeIf kinds) p
  rw [run_takeIf] at stop ⊢
  rcases Parse.takeIf_cases kinds p.cursor with ⟨token, _, -, -, eq⟩ | ⟨-, eq⟩
  · have read : p.run (Parse.takeIf kinds) =
        (some (some token), { p with cursor := p.cursor.advance }) := by
      rw [ParseState.run, eq, List.append_nil]
    rw [ParseState.takeIf, read] at stop ⊢
    exact ⟨some token, _, rfl, rfl, rfl, stop⟩
  · have read : p.run (Parse.takeIf kinds) = (some none, p) := by
      rw [ParseState.run, eq, List.append_nil]
    rw [ParseState.takeIf, read]
    exact ⟨none, p, rfl, rfl, rfl, rfl⟩

namespace Performs

variable {proc : Procedure (Option α)} {step : Parse α}

/-- The end of the source is still in its place behind a step. -/
theorem ends (h : Performs levels proc step) (room : p.room = levels)
    (ends : p.cursor.stop.kind = .eof) : (p.run step).2.cursor.stop.kind = .eof := by
  rw [← h.run p room ends, stop_run, ends]

theorem done (a : α) : Performs levels (pure (some a)) (Parse.done a) where
  run p _ _ := by rw [run_pure, ParseState.run, Parse.done, List.append_nil]
  lawful p _ _ := lawful_pure _ p

theorem fail (problem : SyntaxProblem) :
    Performs levels (Procedure.fail problem : Procedure (Option α)) (Parse.fail problem) where
  run p _ _ := run_fail problem p
  lawful p _ _ := lawful_fail problem p

/-- A step leaves as many levels as there were, and the end of the source where it was, and so what
follows may be anything that performs with them. -/
theorem andThen {rest : Option α → Procedure (Option β)} {next : α → Parse β}
    (first : Performs levels proc step) (given_up : rest none = pure none)
    (goes_on : ∀ a, Performs levels (rest (some a)) (next a)) :
    Performs levels (proc >>= rest) (step.andThen next) where
  run p room ends := by
    rw [run_bind, first.run p room ends]
    cases result : (p.run step).1 with
    | none => rw [given_up, run_pure, ParseState.run_andThen_of_none result]
    | some a =>
      rw [ParseState.run_andThen_of_some result]
      exact (goes_on a).run (p.run step).2 room (first.ends room ends)
  lawful p room ends := by
    refine (lawful_bind proc rest p).2 ⟨first.lawful p room ends, ?_⟩
    rw [first.run p room ends]
    cases (p.run step).1 with
    | none =>
      rw [given_up]
      exact lawful_pure none _
    | some a => exact (goes_on a).lawful (p.run step).2 room (first.ends room ends)

/-- A token that is looked for is taken, or it is left. -/
theorem takeIf {kinds : List TokenKind} {rest : Option Token → Procedure (Option β)}
    {next : Option Token → Parse β}
    (taken : ∀ token, Performs levels (rest (some token)) (next (some token)))
    (left : Performs levels (rest none) (next none)) :
    Performs levels (Procedure.takeIf kinds >>= rest) ((Parse.takeIf kinds).andThen next) := by
  have each (found : Option Token) : Performs levels (rest found) (next found) := by
    cases found with
    | none => exact left
    | some token => exact taken token
  constructor
  · intro p room ends
    obtain ⟨found, after, ran, stepped, same, stop⟩ := exists_run_takeIf kinds p
    rw [run_bind, ran, ParseState.run_andThen_of_some (congrArg Prod.fst stepped), stepped]
    exact (each found).run after (by rw [same, room]) (by rw [stop, ends])
  · intro p room ends
    obtain ⟨found, after, ran, -, same, stop⟩ := exists_run_takeIf kinds p
    refine (lawful_bind _ rest p).2 ⟨lawful_takeIf kinds p, ?_⟩
    rw [ran]
    exact (each found).lawful after (by rw [same, room]) (by rw [stop, ends])

/-- What is done may depend on where the cursor stands. -/
theorem look {rest : ParseState → Procedure (Option α)} {next : TokenCursor → Parse α}
    (h : ∀ p, Performs levels (rest p) (next p.cursor)) :
    Performs levels (state >>= rest) fun c => next c c where
  run p room ends := (h p).run p room ends
  lawful p room ends := (h p).lawful p room ends

theorem expect {kind : TokenKind} (problem : SyntaxProblem) (inner : kind ≠ .eof) :
    Performs levels (Procedure.expect kind problem) (Parse.expect kind problem) where
  run p _ ends := by
    rw [run_expect, ParseState.expect, ParseState.run]
    rcases Parse.expect_cases kind problem p.cursor with
      ⟨token, rest, h, found, eq⟩ | ⟨missing, eq⟩
    · have current := TokenCursor.current_of_ahead h
      rw [if_pos (by rw [current, found]), eq, List.append_nil, ParseState.advance,
        TokenCursor.advance_of_ahead h]
    · have other : p.cursor.current.kind ≠ kind := by
        cases h : p.cursor.ahead with
        | nil =>
          rw [TokenCursor.current, h, List.headD_nil, ends]
          exact inner.symm
        | cons token rest =>
          rw [TokenCursor.current_of_ahead h]
          exact missing token (by rw [h]; rfl)
      rw [if_neg other, eq, ParseState.addError]
  lawful p _ _ := lawful_expect kind problem p

theorem report {rest : Procedure (Option β)} {next : Parse β} (problem : SyntaxProblem)
    (token : Token) (h : Performs levels rest next) :
    Performs levels (do perform (.addError token problem); rest)
      ((Parse.report problem token).andThen fun _ => next) where
  run p room ends := by
    rw [run_bind, run_perform, ParseState.run_andThen_of_some rfl]
    exact h.run _ room ends
  lawful p room ends := by
    refine (lawful_bind _ _ p).2 ⟨lawful_perform (by simp) p, ?_⟩
    exact h.lawful (p.addError token problem) room ends

/-- A level that was opened is closed again behind what performs inside it. -/
theorem nested {full : Procedure (Option α)} (h : Performs levels proc step) :
    Performs (levels + 1) (Procedure.nested proc full) step := by
  have opens {p : ParseState} (room : p.room = levels + 1) :
      p.enter = (true, { p with depth := p.depth + 1 }) ∧
        { p with depth := p.depth + 1 }.room = levels := by
    rcases p.enter_cases with ⟨closed, -⟩ | ⟨opened, entered⟩
    · omega
    · exact ⟨entered, by omega⟩
  constructor
  · intro p room ends
    obtain ⟨entered, less⟩ := opens room
    rw [run_nested, ParseState.nested, entered, if_pos rfl, h.run _ less ends]
    rfl
  · intro p room ends
    obtain ⟨entered, less⟩ := opens room
    have inside := h.lawful _ less ends
    have ran := h.run _ less ends
    simp only [Procedure.nested, lawful_bind, run_enter, entered, if_pos, lawful_enter, ran, inside,
      lawful_pure, and_true, true_and]
    -- the level that is closed is the one that was opened
    exact ⟨.leave (Nat.succ_pos p.depth), trivial⟩

theorem guarded (h : Performs levels proc step) :
    Performs (levels + 1) (Procedure.guarded proc) step :=
  h.nested

theorem guarded_full : Performs 0 (Procedure.guarded proc) (Parse.fail .tooMuchNesting) where
  run _ room _ := run_nested_of_full room
  lawful p room _ := by
    rcases p.enter_cases with ⟨-, refused⟩ | ⟨opened, -⟩
    · simp [Procedure.guarded, Procedure.nested, refused]
    · omega

/-! ## Expressions -/

section

variable {operand expression : Procedure (Option Expr)} {operand' expression' : Parse Expr}

theorem binaryTail (operators : List TokenKind) (h : Performs levels operand operand')
    (fuel : List Token) (left : Expr) :
    Performs levels (Procedure.binaryTail operators operand fuel left)
      (Parse.binaryTail operators operand' fuel left) := by
  induction fuel generalizing left with
  | nil => exact .done left
  | cons token fuel ih =>
    refine .takeIf (fun operator => ?_) (.done left)
    exact .andThen h rfl fun right => ih (.binary left operator right)

theorem binaryLevel (operators : List TokenKind) (h : Performs levels operand operand') :
    Performs levels (Procedure.binaryLevel operators operand)
      (Parse.binaryLevel operators operand') :=
  .andThen h rfl fun left => .look fun p => binaryTail operators h p.cursor.ahead left

theorem equality (h : Performs levels operand operand') :
    Performs levels (Procedure.equality operand) (Parse.equality operand') :=
  binaryLevel _ (binaryLevel _ (binaryLevel _ (binaryLevel _ h)))

theorem assignmentWith (ho : Performs levels operand operand')
    (he : Performs levels expression expression') :
    Performs levels (Procedure.assignmentWith operand expression)
      (Parse.assignmentWith operand' expression') := by
  refine .andThen ho.equality rfl fun target => .takeIf (fun equals => ?_) (.done target)
  refine .andThen he rfl fun value => ?_
  cases target with
  | reference name => exact .done _
  | _ => exact .report _ _ (.done _)

theorem primaryWith (he : Performs levels expression expression') :
    Performs levels (Procedure.primaryWith expression) (Parse.primaryWith expression') := by
  rw [Parse.primaryWith_eq]
  -- each form in turn is either found or left to the next
  refine .takeIf (fun _ => .done _) ?_
  refine .takeIf (fun _ => .done _) ?_
  refine .takeIf (fun _ => .done _) ?_
  refine .takeIf (fun _ => .done _) ?_
  refine .takeIf (fun _ => .done _) ?_
  refine .takeIf (fun _ => ?_) (.fail _)
  exact .andThen he rfl fun inner => .andThen (.expect _ (by decide)) rfl fun _ => .done _

theorem unaryWith (ho : Performs levels operand operand')
    (he : Performs levels expression expression') :
    Performs levels (Procedure.unaryWith operand expression)
      (Parse.unaryWith operand' expression') :=
  .takeIf (fun _ => .andThen ho rfl fun _ => .done _) he.primaryWith

end

theorem expression_and_unary (levels : Nat) :
    Performs levels (Procedure.expression levels) (Parse.expression levels) ∧
      Performs levels (Procedure.unary levels) (Parse.unary levels) := by
  induction levels with
  | zero => exact ⟨guarded_full, .unaryWith guarded_full guarded_full⟩
  | succ levels ih =>
    have inside := ih.2.assignmentWith ih.1
    exact ⟨inside.guarded, .unaryWith ih.2.guarded inside.guarded⟩

theorem expression (levels : Nat) :
    Performs levels (Procedure.expression levels) (Parse.expression levels) :=
  (expression_and_unary levels).1

theorem unary (levels : Nat) : Performs levels (Procedure.unary levels) (Parse.unary levels) :=
  (expression_and_unary levels).2

/-! ## Statements -/

section

variable {expression : Procedure (Option Expr)} {expression' : Parse Expr}
  {block declaration : Procedure (Option Stmt)} {block' declaration' : Parse Stmt}

theorem terminated {make : Expr → Stmt} (he : Performs levels expression expression') :
    Performs levels (Procedure.terminated make expression)
      (expression'.andThen fun expr =>
        (Parse.expect .semicolon .expectSemicolonAfterExpression).andThen fun _ =>
          Parse.done (make expr)) :=
  .andThen he rfl fun _ => .andThen (.expect _ (by decide)) rfl fun _ => .done _

theorem initializer (he : Performs levels expression expression') :
    Performs levels (Procedure.initializer expression) (Parse.initializer expression') :=
  .takeIf (fun _ => .andThen he rfl fun value => .done (some value)) (.done none)

theorem varDeclaration (he : Performs levels expression expression') :
    Performs levels (Procedure.varDeclaration expression) (Parse.varDeclaration expression') :=
  .andThen (.expect _ (by decide)) rfl fun _ =>
    .andThen he.initializer rfl fun _ => .andThen (.expect _ (by decide)) rfl fun _ => .done _

theorem statementWith (he : Performs levels expression expression')
    (hb : Performs levels block block') :
    Performs levels (Procedure.statementWith expression block)
      (Parse.statementWith expression' block') :=
  .takeIf (fun _ => he.terminated) (.takeIf (fun _ => hb) he.terminated)

theorem recovering {attempt : Procedure (Option Stmt)} {attempt' : Parse Stmt}
    (h : Performs levels attempt attempt') :
    Performs levels (Procedure.recovering attempt) (Parse.recovering attempt') where
  run p room ends := by
    rw [run_recovering, h.run p room ends, ParseState.run, ParseState.run]
    cases found : (attempt' p.cursor).result with
    | some statement =>
      rw [Parse.recovering_of_some found, found]
      rfl
    | none =>
      cases skipped : (attempt' p.cursor).cursor.endsSkipped p.cursor.position with
      | true =>
        rw [Parse.recovering_of_skipped found skipped, found]
        rfl
      | false =>
        rw [Parse.recovering_of_none found skipped, found]
        rfl
  lawful p room ends := lawful_recovering (h.lawful p room ends)

theorem declarationWith (he : Performs levels expression expression')
    (hb : Performs levels block block') :
    Performs levels (Procedure.declarationWith expression block)
      (Parse.declarationWith expression' block') :=
  .recovering (.takeIf (fun _ => he.varDeclaration) (.statementWith he hb))

/-- The declarations that a procedure reads, with the errors after those before it. -/
theorem run_declarations (stops : List TokenKind) (h : Performs levels declaration declaration')
    (fuel : List Token) (room : p.room = levels) (ends : p.cursor.stop.kind = .eof) :
    (declarations stops declaration fuel).run p =
      ((Parse.declarations stops declaration' fuel p.cursor).statements,
        { p with
          cursor := (Parse.declarations stops declaration' fuel p.cursor).cursor
          errors :=
            p.errors ++ (Parse.declarations stops declaration' fuel p.cursor).errors }) := by
  induction fuel generalizing p with
  | nil => simp [declarations, Parse.declarations]
  | cons token fuel ih =>
    by_cases ended : p.cursor.atEnd = true ∨ p.cursor.current.kind ∈ stops
    · simp [declarations, Parse.declarations, ended]
    · have turn : (declarations stops declaration (token :: fuel)).run p =
          ((p.run declaration').1.toList ++
              ((declarations stops declaration fuel).run (p.run declaration').2).1,
            ((declarations stops declaration fuel).run (p.run declaration').2).2) := by
        simp [declarations, ended, h.run p room ends]
      rw [turn, @ih (p.run declaration').2 room (h.ends room ends)]
      simp [Parse.declarations, ended, ParseState.run]

theorem lawful_declarations (stops : List TokenKind) (h : Performs levels declaration declaration')
    (fuel : List Token) (room : p.room = levels) (ends : p.cursor.stop.kind = .eof) :
    (declarations stops declaration fuel).Lawful p := by
  induction fuel generalizing p with
  | nil => exact lawful_pure [] p
  | cons token fuel ih =>
    have others := @ih (p.run declaration').2 room (h.ends room ends)
    by_cases ended : p.cursor.atEnd = true ∨ p.cursor.current.kind ∈ stops
    · simp [declarations, ended]
    · simp [declarations, ended, h.lawful p room ends, h.run p room ends, others]

/-- The declarations in front of the closing brace. -/
theorem body (h : Performs levels declaration declaration') :
    Performs levels (Procedure.body declaration) (Parse.body declaration') where
  run p room ends := by
    simp only [Procedure.body, run_bind, run_state, run_pure,
      h.run_declarations [.rightBrace] p.cursor.ahead room ends]
    rfl
  lawful p room ends := by
    simp [Procedure.body, h.lawful_declarations [.rightBrace] p.cursor.ahead room ends]

theorem blockWith (h : Performs levels declaration declaration') :
    Performs (levels + 1) (Procedure.blockWith declaration) (Parse.blockWith declaration') := by
  rw [Parse.blockWith_eq]
  exact .andThen h.body.nested rfl fun _ => .andThen (.expect _ (by decide)) rfl fun _ => .done _

theorem overdeepBlock : Performs 0 (Procedure.blockWith declaration) Parse.overdeepBlock where
  run p room _ := by
    simp only [Procedure.blockWith, run_bind, run_nested_of_full room, run_skipBlock, run_pure]
    rfl
  lawful p room _ := by
    rcases p.enter_cases with ⟨-, refused⟩ | ⟨opened, -⟩
    · simp [Procedure.blockWith, Procedure.nested, refused]
    · omega

end

theorem block (levels : Nat) : Performs levels (Procedure.block levels) (Parse.block levels) := by
  induction levels with
  | zero => exact overdeepBlock
  | succ levels ih => exact blockWith ((expression levels).declarationWith ih)

theorem declaration (levels : Nat) :
    Performs levels (Procedure.declaration levels) (Parse.declaration levels) :=
  (expression levels).declarationWith (block levels)

end Performs

theorem run_program (p : ParseState) (ends : p.cursor.stop.kind = .eof) :
    (program p.room).run p = p.program :=
  (Performs.declaration p.room).run_declarations [] p.cursor.ahead rfl ends

theorem lawful_program (p : ParseState) (ends : p.cursor.stop.kind = .eof) :
    (program p.room).Lawful p :=
  (Performs.declaration p.room).lawful_declarations [] p.cursor.ahead rfl ends

end Procedure

end LoxCheck
