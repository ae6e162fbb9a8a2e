import LoxCheck.Proofs.ReachableStates

/-!
# Termination

Every parse ends, and it ends at the first token for the end of the source. The loops over
declarations and over operators are followed here turn by turn, without the fuel that they are
computed with, and the room that bounds the recursion is what the counter of levels leaves: a level
is opened before an expression, an operand or a block is read, and closed behind it.
-/

namespace LoxCheck

namespace Parse

/-! ## Chains of operators -/

/-- As many operators can be read as there are tokens, so more fuel than tokens changes nothing. -/
theorem binaryTail_of_fuel {operand : Parse Expr} (moves : Moves operand)
    (operators : List TokenKind) {fuel fuel' : List Token} {left : Expr} {c : TokenCursor}
    (enough : c.ahead.length ≤ fuel.length) (enough' : c.ahead.length ≤ fuel'.length) :
    binaryTail operators operand fuel left c = binaryTail operators operand fuel' left c := by
  induction fuel generalizing fuel' left c with
  | nil =>
    have ended : c.ahead = [] := List.length_eq_zero_iff.1 (Nat.le_zero.1 enough)
    rw [binaryTail_of_end (by simp [ended]), binaryTail_of_end (by simp [ended])]
  | cons token fuel ih =>
    cases hc : c.ahead with
    | nil => rw [binaryTail_of_end (by simp [hc]), binaryTail_of_end (by simp [hc])]
    | cons operator rest =>
      rw [hc, List.length_cons] at enough enough'
      obtain ⟨token', fuel', rfl⟩ := List.exists_cons_of_length_pos (by omega : 0 < fuel'.length)
      rw [List.length_cons] at enough enough'
      show (takeIf operators).andThen _ c = (takeIf operators).andThen _ c
      by_cases listed : operator.kind ∈ operators
      · rw [takeIf_andThen_of_mem _ hc listed, takeIf_andThen_of_mem _ hc listed]
        -- the operator is out of the way, so that both fuels are long enough for the rest
        obtain ⟨n, moved⟩ := moves c.advance
        have length := moved.length_ahead
        rw [TokenCursor.ahead_advance_of_ahead hc] at length
        exact andThen_congr fun right _ => ih (by omega) (by omega)
      · rw [takeIf_andThen_of_not_mem _ hc listed, takeIf_andThen_of_not_mem _ hc listed]

/-- The rest of a chain from an operand that was read, with what is ahead there as fuel. -/
def chain (operators : List TokenKind) (operand : Parse Expr) (left : Expr) : Parse Expr :=
  fun c => binaryTail operators operand c.ahead left c

/-- A level of operators is a loop: an operand is read first, and each turn reads an operator with
its right operand and goes on, or ends. -/
theorem binaryLevel_eq_loop {operand : Parse Expr} (moves : Moves operand)
    (operators : List TokenKind) :
    binaryLevel operators operand = operand.andThen (chain operators operand) ∧
      ∀ left, chain operators operand left = (takeIf operators).andThen fun
        | none => done left
        | some operator => operand.andThen fun right =>
          chain operators operand (.binary left operator right) := by
  refine ⟨rfl, fun left => ?_⟩
  funext c
  cases hc : c.ahead with
  | nil =>
    have ended : ∀ token ∈ c.ahead.head?, token.kind ∉ operators := by simp [hc]
    rw [chain, binaryTail_of_end ended, andThen_of_eq (takeIf_of_not_mem ended)]
    rfl
  | cons token rest =>
    rw [chain, hc]
    show (takeIf operators).andThen _ c = _
    by_cases listed : token.kind ∈ operators
    · rw [takeIf_andThen_of_mem _ hc listed, takeIf_andThen_of_mem _ hc listed]
      obtain ⟨n, moved⟩ := moves c.advance
      have length := moved.length_ahead
      rw [TokenCursor.ahead_advance_of_ahead hc] at length
      exact andThen_congr fun right _ =>
        binaryTail_of_fuel moves operators (by omega) (Nat.le_refl _)
    · rw [takeIf_andThen_of_not_mem _ hc listed, takeIf_andThen_of_not_mem _ hc listed]
      rfl

end Parse

namespace ParseState

/-! ## Levels of nesting -/

/-- Runs something one level deeper, or something else if the limit does not allow that. -/
def nested {α : Type} (inner full : ParseState → Option α × ParseState) (p : ParseState) :
    Option α × ParseState :=
  if p.enter.1 then ((inner p.enter.2).1, (inner p.enter.2).2.leave) else full p.enter.2

/-- The limit allows another level exactly if there is room. -/
theorem enter_cases (p : ParseState) :
    (p.room = 0 ∧ p.enter = (false, p.addError p.cursor.current .tooMuchNesting)) ∨
      (p.room = { p with depth := p.depth + 1 }.room + 1 ∧
        p.enter = (true, { p with depth := p.depth + 1 })) := by
  by_cases full : p.maxDepth ≤ p.depth
  · refine .inl ⟨?_, by rw [enter, if_pos full]⟩
    show (p.maxDepth - p.depth).toNat = 0
    omega
  · refine .inr ⟨?_, by rw [enter, if_neg full]⟩
    show (p.maxDepth - p.depth).toNat = (p.maxDepth - (p.depth + 1 : Nat)).toNat + 1
    omega

/-- A step that goes on with less room is run one level deeper. -/
theorem run_eq_nested {α : Type} (step inner : Nat → Parse α)
    (full : ParseState → Option α × ParseState) (deeper : ∀ room, step (room + 1) = inner room)
    (overflow : ∀ p : ParseState,
      p.run (step 0) = full (p.addError p.cursor.current .tooMuchNesting))
    (p : ParseState) :
    p.run (step p.room) = p.nested (fun q => q.run (inner q.room)) full := by
  rcases p.enter_cases with ⟨none_left, entered⟩ | ⟨more, entered⟩
  · rw [nested, entered, none_left, overflow]
    rfl
  · rw [nested, entered, more, deeper]
    rfl

/-- The steps that open a level open it by the counter and close it again, whatever they come to in
between. A block that is too deep is skipped. -/
structure CountsLevels (p : ParseState) : Prop where
  expression : p.run (Parse.expression p.room) =
    p.nested (fun q => q.run (Parse.assignmentWith (Parse.unary q.room) (Parse.expression q.room)))
      fun q => (none, q)
  operand : p.run (Parse.operand p.room) =
    p.nested (fun q => q.run (Parse.unary q.room)) fun q => (none, q)
  block : p.run (Parse.block p.room) =
    p.nested (fun q => q.run (Parse.blockWith (Parse.declaration q.room)))
      fun q => (none, q.skipBlock)

theorem countsLevels (p : ParseState) : p.CountsLevels where
  expression := run_eq_nested Parse.expression
    (fun room => Parse.assignmentWith (Parse.unary room) (Parse.expression room)) _
    (fun _ => rfl) (fun _ => rfl) p
  operand := run_eq_nested Parse.operand Parse.unary _ (fun _ => rfl) (fun _ => rfl) p
  block := run_eq_nested Parse.block (fun room => Parse.blockWith (Parse.declaration room)) _
    (fun _ => rfl) (fun _ => rfl) p

/-! ## Sequences of declarations -/

/-- The loop over declarations: while neither the end nor a token of one of some kinds is there, one
more declaration is run, and its statement is kept if it has one. -/
inductive Reads (stops : List TokenKind) : ParseState → List Stmt → ParseState → Prop where
  | stop {p : ParseState} :
    p.cursor.atEnd = true ∨ p.cursor.current.kind ∈ stops → Reads stops p [] p
  | go {p q final : ParseState} {result : Option Stmt} {statements : List Stmt} :
    p.cursor.atEnd = false → p.cursor.current.kind ∉ stops →
    p.run (Parse.declaration p.room) = (result, q) → Reads stops q statements final →
    Reads stops p (result.toList ++ statements) final

/-- From every state the loop over declarations ends, and comes to what is computed with fuel. -/
theorem reads_allDeclarations (stops : List TokenKind) (p : ParseState) :
    p.Reads stops (Parse.allDeclarations stops (Parse.declaration p.room) p.cursor).statements
      { p with
        cursor := (Parse.allDeclarations stops (Parse.declaration p.room) p.cursor).cursor
        errors := p.errors ++
          (Parse.allDeclarations stops (Parse.declaration p.room) p.cursor).errors } := by
  obtain ⟨c, maxDepth, depth, errors⟩ := p
  have advances : Parse.Advances (Parse.declaration (LoxCheck.room maxDepth depth)) :=
    fun _ => Parse.declaration_progress _
  -- each turn leaves fewer tokens ahead, and may begin with any errors
  induction c using advances.induction stops generalizing errors with
  | stop c ended =>
    simp only [ParseState.room, Parse.allDeclarations_of_stop ended, List.append_nil]
    exact .stop (ended.imp_left List.isEmpty_iff.2)
  | go c nonempty going ih =>
    simp only [ParseState.room, Parse.allDeclarations_of_go advances nonempty going]
    have others := ih (errors ++ (Parse.declaration (LoxCheck.room maxDepth depth) c).errors)
    rw [List.append_assoc] at others
    have more : c.atEnd = false := by simpa [TokenCursor.atEnd] using nonempty
    exact .go more going rfl others

/-- The rest of a block is read by such a loop up to the closing brace, which is then asked for. -/
theorem run_blockWith (p : ParseState) :
    ∃ statements q, p.Reads [.rightBrace] statements q ∧
      p.run (Parse.blockWith (Parse.declaration p.room)) =
        ((q.run (Parse.expect .rightBrace .expectBraceAfterBlock)).1.map fun _ => .block statements,
          (q.run (Parse.expect .rightBrace .expectBraceAfterBlock)).2) := by
  refine ⟨_, _, p.reads_allDeclarations [.rightBrace], ?_⟩
  simp only [run, Parse.blockWith, Parse.allDeclarations, List.append_assoc]

end ParseState

/-! ## The whole parse -/

/-- The tokens that a state looks at, the current one and the one before it, are in the sequence.
The one before the first is the last. -/
structure ParseState.StandsIn (tokens : List Token) (p : ParseState) : Prop where
  bound : p.cursor.position ≤ tokens.findIdx (·.kind = .eof)
  current : tokens[p.cursor.position]? = some p.cursor.current
  previous : (if p.cursor.position = 0 then tokens.getLast?
    else tokens[p.cursor.position - 1]?) = some p.cursor.previous

/-- A parse of any sequence that ends with the end of the source comes to a result: its loop over
declarations ends, at the first token for the end of the source and with every level of nesting
closed. Every state that can be reached stands in the sequence and counts its levels, a loop over
declarations that starts there ends, and a declaration that is read there comes to such a state
again and moves on unless the end is there. -/
theorem parse_terminates {tokens : List Token} {last : Token}
    (present : tokens.getLast? = some last) (ends : last.kind = .eof) (maxDepth : Int) :
    ∃ start d, ParseState.ofTokens tokens maxDepth = .ok start ∧
      parse tokens maxDepth = .ok d ∧
      start.Reads [] d.statements start.program.2 ∧ start.program.2.errors = d.errors ∧
      start.program.2.cursor.position = tokens.findIdx (·.kind = .eof) ∧
      start.program.2.depth = 0 ∧ start.Reaches start.program.2 ∧
      ∀ p, start.Reaches p → p.StandsIn tokens ∧ p.CountsLevels ∧
        (∀ stops, ∃ statements q, p.Reads stops statements q) ∧
        start.Reaches (p.run (Parse.declaration p.room)).2 ∧
        (p.cursor.current.kind ≠ .eof →
          p.cursor.position < (p.run (Parse.declaration p.room)).2.cursor.position) := by
  obtain ⟨ahead, stop, more, rfl, readable, hstop⟩ := TokenCursor.exists_readable present ends
  have found := TokenCursor.ofTokens?_append_cons readable hstop present ends
  have place := @TokenCursor.findIdx_eof ahead more stop readable hstop
  let start : ParseState := { cursor := .start ahead stop last, maxDepth }
  have started : ParseState.ofTokens (ahead ++ stop :: more) maxDepth = .ok start := by
    rw [ParseState.ofTokens, found]
  have parsed : parse (ahead ++ stop :: more) maxDepth =
      .ok (Parse.program start.room start.cursor) := by
    rw [parse, found]
    rfl
  refine ⟨start, _, started, parsed, start.reads_allDeclarations [], rfl, ?_, rfl,
    start.reaches_program, fun p reached => ?_⟩
  · obtain ⟨n, moved⟩ := start.reaches_program.extends.moved
    have left := moved.length_ahead
    -- nothing is left to read
    have ended : start.program.2.cursor.ahead = [] := Parse.ahead_program _ _
    have position : start.program.2.cursor.position = 0 + n := moved.position
    have all : n = ahead.length := by
      rw [ended, List.length_nil, Nat.zero_add] at left
      exact left
    rw [position, all, place, Nat.zero_add]
  · obtain ⟨n, moved⟩ := reached.extends.moved
    have position : p.cursor.position = 0 + n := moved.position
    have bound : n ≤ ahead.length := moved.bound
    have stands : p.StandsIn (ahead ++ stop :: more) :=
      ⟨by omega, TokenCursor.getElem?_current moved, TokenCursor.getElem?_previous present moved⟩
    have moves : Parse.Moves (Parse.declaration p.room) :=
      Parse.moves_closed.declaration (Nat.le_refl p.room)
    refine ⟨stands, p.countsLevels, fun stops => ⟨_, _, p.reads_allDeclarations stops⟩,
      reached.trans (ParseState.reaches_run moves p), fun going => ?_⟩
    have nonempty : p.cursor.ahead ≠ [] := by
      intro ended
      have current : p.cursor.current = stop := by
        rw [TokenCursor.current, ended, List.headD_nil]
        exact moved.stop
      exact going (current ▸ hstop)
    obtain ⟨k, positive, onward⟩ := Parse.declaration_progress p.room nonempty
    have further := onward.position
    show p.cursor.position < (Parse.declaration p.room p.cursor).cursor.position
    omega

/-- A lone closing brace is not read as anything, and the parse still comes to the end behind it,
also with a limit below zero and with more tokens behind the end. -/
theorem parse_terminates_stray_brace :
    ∃ start d, ParseState.ofTokens [⟨.rightBrace, "\x7d", .nil, 1⟩, ⟨.eof, "", .nil, 1⟩,
        ⟨.semicolon, ";", .nil, 1⟩, ⟨.eof, "", .nil, 1⟩] (-1) = .ok start ∧
      parse [⟨.rightBrace, "\x7d", .nil, 1⟩, ⟨.eof, "", .nil, 1⟩,
        ⟨.semicolon, ";", .nil, 1⟩, ⟨.eof, "", .nil, 1⟩] (-1) = .ok d ∧
      start.Reads [] d.statements start.program.2 ∧
      start.program.2.cursor.position = 1 ∧ start.program.2.depth = 0 := by
  obtain ⟨start, d, started, parsed, reads, -, position, depth, -, -⟩ := @parse_terminates
    [⟨.rightBrace, "\x7d", .nil, 1⟩, ⟨.eof, "", .nil, 1⟩, ⟨.semicolon, ";", .nil, 1⟩,
      ⟨.eof, "", .nil, 1⟩] _ rfl rfl (-1)
  exact ⟨start, d, started, parsed, reads, position, depth⟩

end LoxCheck
