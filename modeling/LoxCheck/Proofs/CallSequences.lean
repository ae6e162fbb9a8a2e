import LoxCheck.Proofs.CountedTheorems

/-!
# Calls in any order

The moves and the steps of a parse may be called one by one, in any order and from the middle of
another parse. Whatever is called, nothing that was read or recorded is taken back, no token beyond
the first end of the source is looked at, and the levels of nesting stay within the limit.
-/

namespace LoxCheck

/-! ## Levels within the limit -/

namespace ParseState

/-- No more levels are open than the limit allows. -/
def Limited (p : ParseState) : Prop := (p.depth : Int) ≤ max 0 p.maxDepth

theorem Changes.limited {p q : ParseState} (h : p.Changes q) (within : p.Limited) : q.Limited := by
  cases h with
  | advance => exact within
  | addError => exact within
  | enter =>
    unfold ParseState.enter
    split
    · exact within
    · next below =>
      -- a level is opened only below the limit
      show ((p.depth + 1 : Nat) : Int) ≤ max 0 p.maxDepth
      omega
  | leave =>
    unfold Limited at within ⊢
    show ((p.depth - 1 : Nat) : Int) ≤ max 0 p.maxDepth
    omega
  | note => exact within

theorem Reaches.limited {p q : ParseState} (h : p.Reaches q) (within : p.Limited) : q.Limited := by
  induction h with
  | refl => exact within
  | tail _ change ih => exact change.limited ih

end ParseState

/-- A note of a skipped block is taken where the block ended, and the cursor only moves on. -/
theorem TokenCursor.Onward.fresh {c c' : TokenCursor} {n : Nat} (h : c.Onward c' n)
    (fresh : c.Fresh) : c'.Fresh := by
  intro place noted
  have further := h.position
  rcases h.skipped with same | ⟨place', noted', -, behind⟩
  · rw [same] at noted
    have before := fresh place noted
    omega
  · rw [noted'] at noted
    obtain rfl := Option.some.inj noted
    exact behind

/-! ## Calls -/

/-- What can be asked of a parse in progress, by the kind of answer. -/
inductive Call : Type → Type where
  | current : Call Token
  | previous : Call Token
  | atEnd : Call Bool
  | check (kind : TokenKind) : Call Bool
  | advance : Call Token
  | takeIf (kinds : List TokenKind) : Call (Option Token)
  | expect (kind : TokenKind) (problem : SyntaxProblem) : Call (Option Token)
  | addError (token : Token) (problem : SyntaxProblem) : Call Unit
  | enter : Call Bool
  | skipBlock : Call Unit
  | toBoundary (start : Int) : Call Unit
  | program : Call (List Stmt)
  | declaration : Call (Option Stmt)
  | statement : Call (Option Stmt)
  | varDeclaration : Call (Option Stmt)
  | printStatement : Call (Option Stmt)
  | expressionStatement : Call (Option Stmt)
  | block : Call (Option Stmt)
  | expression : Call (Option Expr)
  | assignment : Call (Option Expr)
  | equality : Call (Option Expr)
  | comparison : Call (Option Expr)
  | term : Call (Option Expr)
  | factor : Call (Option Expr)
  | unary : Call (Option Expr)
  | primary : Call (Option Expr)

namespace Call

variable {α : Type}

/-- What a call answers, and the state after it. -/
def run : Call α → ParseState → α × ParseState
  | current, p => (p.cursor.current, p)
  | previous, p => (p.cursor.previous, p)
  | atEnd, p => (p.cursor.atEnd, p)
  | check kind, p => (p.cursor.current.kind == kind, p)
  | advance, p => p.advance
  | takeIf kinds, p => p.takeIf kinds
  | expect kind problem, p => p.expect kind problem
  | addError token problem, p => ((), p.addError token problem)
  | enter, p => p.enter
  | skipBlock, p => ((), p.skipBlock)
  | toBoundary start, p => ((), p.toBoundary start)
  | program, p => p.program
  | declaration, p => p.run (Parse.declaration p.room)
  | statement, p =>
    p.run (Parse.statementWith (Parse.expression p.room) (Parse.block p.room))
  | varDeclaration, p => p.run (Parse.varDeclaration (Parse.expression p.room))
  | printStatement, p => p.run (Parse.printStatement (Parse.expression p.room))
  | expressionStatement, p => p.run (Parse.expressionStatement (Parse.expression p.room))
  | block, p => p.run (Parse.block p.room)
  | expression, p => p.run (Parse.expression p.room)
  | assignment, p =>
    p.run (Parse.assignmentWith (Parse.unary p.room) (Parse.expression p.room))
  | equality, p => p.run (Parse.equality (Parse.unary p.room))
  | comparison, p => p.run (Parse.comparison (Parse.unary p.room))
  | term, p => p.run (Parse.term (Parse.unary p.room))
  | factor, p => p.run (Parse.factor (Parse.unary p.room))
  | unary, p => p.run (Parse.unary p.room)
  | primary, p => p.run (Parse.primaryWith (Parse.expression p.room))

/-- A call change by change, where some levels can still be opened. -/
def procedureAt (levels : Nat) : Call α → Procedure α
  | current => return (← Procedure.state).cursor.current
  | previous => return (← Procedure.state).cursor.previous
  | atEnd => return (← Procedure.state).cursor.atEnd
  | check kind => return (← Procedure.state).cursor.current.kind == kind
  | advance => Procedure.advance
  | takeIf kinds => Procedure.takeIf kinds
  | expect kind problem => Procedure.expect kind problem
  | addError token problem => Procedure.perform (.addError token problem)
  | enter => Procedure.enter
  | skipBlock => Procedure.skipBlock
  | toBoundary start => Procedure.toBoundary start
  | program => Procedure.program levels
  | declaration => Procedure.declaration levels
  | statement =>
    Procedure.statementWith (Procedure.expression levels) (Procedure.block levels)
  | varDeclaration => Procedure.varDeclaration (Procedure.expression levels)
  | printStatement => Procedure.terminated .print (Procedure.expression levels)
  | expressionStatement => Procedure.terminated .expression (Procedure.expression levels)
  | block => Procedure.block levels
  | expression => Procedure.expression levels
  | assignment =>
    Procedure.assignmentWith (Procedure.unary levels) (Procedure.expression levels)
  | equality => Procedure.equality (Procedure.unary levels)
  | comparison => Procedure.comparison (Procedure.unary levels)
  | term => Procedure.term (Procedure.unary levels)
  | factor => Procedure.factor (Procedure.unary levels)
  | unary => Procedure.unary levels
  | primary => Procedure.primaryWith (Procedure.expression levels)

/-- A call change by change. -/
def procedure (call : Call α) : Procedure α := do
  let p ← Procedure.state
  call.procedureAt p.room

/-- Whether a call may leave a level open. -/
def opens : Call α → Bool
  | enter => true
  | _ => false

/-- A call comes to the same change by change, and closes no level but those it has opened. -/
theorem performs (call : Call α) {p : ParseState} (ends : p.cursor.stop.kind = .eof) :
    call.procedure.run p = call.run p ∧ call.procedure.Lawful p := by
  have ofStep {β : Type} {proc : Procedure (Option β)} {step : Parse β}
      (h : proc.Performs p.room step) : proc.run p = p.run step ∧ proc.Lawful p :=
    ⟨h.run p rfl ends, h.lawful p rfl ends⟩
  have expr := Procedure.Performs.expression p.room
  have operand := Procedure.Performs.unary p.room
  have inBraces := Procedure.Performs.block p.room
  show (call.procedureAt p.room).run p = call.run p ∧ (call.procedureAt p.room).Lawful p
  cases call with
  | current => exact ⟨rfl, trivial⟩
  | previous => exact ⟨rfl, trivial⟩
  | atEnd => exact ⟨rfl, trivial⟩
  | check kind => exact ⟨rfl, trivial⟩
  | advance => exact ⟨rfl, Procedure.lawful_advance p⟩
  | takeIf kinds => exact ⟨Procedure.run_takeIf kinds p, Procedure.lawful_takeIf kinds p⟩
  | expect kind problem =>
    exact ⟨Procedure.run_expect kind problem p, Procedure.lawful_expect kind problem p⟩
  | addError token problem => exact ⟨rfl, Procedure.lawful_perform (by simp) p⟩
  | enter => exact ⟨rfl, Procedure.lawful_enter p⟩
  | skipBlock => exact ⟨Procedure.run_skipBlock p, Procedure.lawful_skipBlock p⟩
  | toBoundary start =>
    exact ⟨Procedure.run_toBoundary start p, Procedure.lawful_toBoundary start p⟩
  | program => exact ⟨Procedure.run_program p ends, Procedure.lawful_program p ends⟩
  | declaration => exact ofStep (.declaration p.room)
  | statement => exact ofStep (.statementWith expr inBraces)
  | varDeclaration => exact ofStep expr.varDeclaration
  | printStatement => exact ofStep expr.terminated
  | expressionStatement => exact ofStep expr.terminated
  | block => exact ofStep inBraces
  | expression => exact ofStep expr
  | assignment => exact ofStep (operand.assignmentWith expr)
  | equality => exact ofStep operand.equality
  | comparison => exact ofStep (.binaryLevel _ (.binaryLevel _ (.binaryLevel _ operand)))
  | term => exact ofStep (.binaryLevel _ (.binaryLevel _ operand))
  | factor => exact ofStep (.binaryLevel _ operand)
  | unary => exact ofStep operand
  | primary => exact ofStep expr.primaryWith

/-- Only a level that was asked for stays open. -/
theorem depth_run (call : Call α) (closed : call.opens = false) (p : ParseState) :
    (call.run p).2.depth = p.depth := by
  cases call with
  | enter => exact absurd closed (by decide)
  | expect kind problem =>
    show (p.expect kind problem).2.depth = p.depth
    unfold ParseState.expect
    split <;> rfl
  | _ => rfl

/-- The state after some calls, one after the other. -/
def after (calls : List ((α : Type) × Call α)) (p : ParseState) : ParseState :=
  calls.foldl (fun q call => (call.2.run q).2) p

/-- Some calls, one after the other, change by change. -/
def inTurn : List ((α : Type) × Call α) → Procedure Unit
  | [] => return ()
  | call :: rest => do
    let _ ← call.2.procedure
    inTurn rest

/-- Calls one after the other come to the same change by change. -/
theorem performs_inTurn (calls : List ((α : Type) × Call α)) {p : ParseState}
    (ends : p.cursor.stop.kind = .eof) :
    ((inTurn calls).run p).2 = after calls p ∧ (inTurn calls).Lawful p := by
  induction calls generalizing p with
  | nil => exact ⟨rfl, trivial⟩
  | cons call rest ih =>
    obtain ⟨same, lawful⟩ := call.2.performs ends
    have stop := Procedure.stop_run call.2.procedure p
    rw [same] at stop
    obtain ⟨whole, others⟩ := @ih (call.2.run p).2 (by rw [stop, ends])
    constructor
    · rw [inTurn, Procedure.run_bind, same, whole]
      rfl
    · refine (Procedure.lawful_bind _ _ p).2 ⟨lawful, ?_⟩
      rw [same]
      exact others

end Call

/-! ## What calls keep -/

/-- What holds of every state of a parse: the tokens that it looks at are in the sequence, none of
them beyond the first end of the source; the block skipped last does not end further on; and the
levels that are open are within the limit. -/
structure ParseState.Orderly (tokens : List Token) (p : ParseState) : Prop where
  stands : p.StandsIn tokens
  fresh : p.cursor.Fresh
  limited : p.Limited

section

variable {ahead more : List Token} {stop last : Token} {start p : ParseState}

theorem ParseState.Reaches.stop_eof (h : start.Reaches p) (ends : start.cursor.stop.kind = .eof) :
    p.cursor.stop.kind = .eof := by
  obtain ⟨n, moved⟩ := h.extends.moved
  rw [moved.stop]
  exact ends

/-- A parse never comes to a state that is out of order. -/
theorem ParseState.Reaches.orderly (h : start.Reaches p)
    (readable : ∀ token ∈ ahead, token.kind ≠ .eof) (ends : stop.kind = .eof)
    (present : (ahead ++ stop :: more).getLast? = some last)
    (first : start.cursor = .start ahead stop last) (closed : start.depth = 0) :
    p.Orderly (ahead ++ stop :: more) := by
  obtain ⟨n, moved⟩ := h.extends.moved
  rw [first] at moved
  have position : p.cursor.position = 0 + n := moved.position
  have bound : n ≤ ahead.length := moved.bound
  have place := @TokenCursor.findIdx_eof ahead more stop readable ends
  have stands : p.StandsIn (ahead ++ stop :: more) :=
    ⟨by omega, TokenCursor.getElem?_current moved, TokenCursor.getElem?_previous present moved⟩
  refine ⟨stands, moved.fresh (TokenCursor.fresh_start _ _ _), h.limited ?_⟩
  unfold ParseState.Limited
  omega

end

/-- The steps and moves of a parse can be called in any order and from any state that a parse can
come to, also from one in the middle of a step. Each call comes to what its procedure comes to, by
single changes of which none closes a level that is not open. In every state on the way, within a
call as between calls, the tokens at the position and before it are in the sequence, so that they
can be looked at; the position never goes back, nor beyond the first end of the source; errors are
only added behind the others; the block skipped last ends where the cursor has been; and no more
levels are open than the limit allows. Every call but the one that asks for a level leaves as many
levels open as there were, whatever it answers. -/
theorem calls_in_any_order {tokens : List Token} {last : Token}
    (present : tokens.getLast? = some last) (ends : last.kind = .eof) (maxDepth : Int) :
    ∃ start, ParseState.ofTokens tokens maxDepth = .ok start ∧
      ∀ p, start.Reaches p → ∀ calls : List ((α : Type) × Call α),
        Call.after calls p = ((Call.inTurn calls).run p).2 ∧
        Call.after calls p ∈ (Call.inTurn calls).states p ∧
        ((Call.inTurn calls).states p).IsChain ParseState.Changes ∧
        (∀ q ∈ (Call.inTurn calls).states p, q.Orderly tokens ∧ q.maxDepth = maxDepth) ∧
        ((Call.inTurn calls).states p).Pairwise (fun q r =>
          q.cursor.position ≤ r.cursor.position ∧ q.errors <+: r.errors) ∧
        ∀ q ∈ (Call.inTurn calls).states p, ∀ (α : Type) (call : Call α),
          call.procedure.run q = call.run q ∧
            (call.opens = false → (call.procedure.run q).2.depth = q.depth) := by
  obtain ⟨ahead, stop, more, rfl, readable, hstop⟩ := TokenCursor.exists_readable present ends
  have found := TokenCursor.ofTokens?_append_cons readable hstop present ends
  let start : ParseState := { cursor := .start ahead stop last, maxDepth }
  have started : ParseState.ofTokens (ahead ++ stop :: more) maxDepth = .ok start := by
    rw [ParseState.ofTokens, found]
  refine ⟨start, started, fun p reached calls => ?_⟩
  have later {q : ParseState} (h : q ∈ (Call.inTurn calls).states p) : start.Reaches q :=
    reached.trans (Procedure.reaches_of_mem_states h)
  obtain ⟨whole, lawful⟩ := Call.performs_inTurn calls (reached.stop_eof hstop)
  refine ⟨whole.symm, ?_, Procedure.isChain_states lawful, fun q h => ?_, ?_, fun q h α call => ?_⟩
  · rw [← whole]
    exact Procedure.run_mem_states _ p
  · exact ⟨(later h).orderly readable hstop present rfl rfl, (later h).extends.limit⟩
  · refine (Procedure.pairwise_states _ p).imp fun {q r} between => ?_
    obtain ⟨n, moved⟩ := between.extends.moved
    have position := moved.position
    exact ⟨by omega, between.extends.recorded⟩
  · have same := (call.performs ((later h).stop_eof hstop)).1
    refine ⟨same, fun closed => ?_⟩
    rw [same]
    exact call.depth_run closed q

/-- The tokens of `-(1`. -/
def minusParen : List Token :=
  [⟨.minus, "-", .nil, 1⟩, ⟨.leftParen, "(", .nil, 1⟩, ⟨.number, "1", .number .one, 1⟩,
    ⟨.eof, "", .nil, 1⟩]

/-- With the only level taken by hand, the operand of the minus is too deep. The level stays open,
and a block that was never begun can be skipped up to the end. -/
theorem calls_in_any_order_minusParen :
    ∃ start, ParseState.ofTokens minusParen 1 = .ok start ∧
      ∃ q, Call.after [⟨_, .enter⟩, ⟨_, .unary⟩, ⟨_, .skipBlock⟩] start = q ∧
        q.Orderly minusParen ∧ q.depth = 1 ∧ q.errors.map (·.problem) = [.tooMuchNesting] ∧
        q.cursor.position = 3 ∧ q.cursor.skippedTo = some 3 := by
  obtain ⟨start, started, calls⟩ := @calls_in_any_order minusParen _ rfl rfl 1
  obtain ⟨-, reached, -, orderly, -, -⟩ :=
    calls start .refl [⟨_, .enter⟩, ⟨_, .unary⟩, ⟨_, .skipBlock⟩]
  obtain rfl := Except.ok.inj started
  exact ⟨_, started, _, rfl, (orderly _ reached).1, rfl, rfl, rfl, rfl⟩

end LoxCheck
