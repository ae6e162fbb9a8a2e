import LoxCheck.Proofs.CallSequences
import LoxCheck.Proofs.Confinement
import LoxCheck.Proofs.MatchingBraces

/-!
# Blocks that are too deep

A block for which no level of nesting is left is removed exactly: its opening brace, what is inside,
and the closing brace that matches, with one error. It already ends where a statement may begin, so
that nothing more is discarded; but that holds for this declaration only. Every other declaration
that comes to nothing goes on to a statement boundary.
-/

namespace LoxCheck

namespace Parse

variable {α β : Type}

/-! ## Steps that only read -/

/-- A step that reads tokens one by one and skips no block. -/
def OnlyReads (p : Parse α) : Prop := ∀ c : TokenCursor, ∃ n, (p c).cursor = c.skip n

theorem OnlyReads.andThen {p : Parse α} {f : α → Parse β} (hp : OnlyReads p)
    (hf : ∀ a, OnlyReads (f a)) : OnlyReads (p.andThen f) := by
  intro c
  obtain ⟨m, first⟩ := hp c
  cases hr : (p c).result with
  | none =>
    rw [andThen_of_none hr]
    exact ⟨m, first⟩
  | some a =>
    obtain ⟨n, second⟩ := hf a (p c).cursor
    rw [andThen_of_some hr]
    refine ⟨m + n, ?_⟩
    rw [second, first, TokenCursor.skip_skip]

theorem onlyReads_done (a : α) : OnlyReads (done a) := fun c => ⟨0, c.skip_zero.symm⟩

theorem onlyReads_fail {problem : SyntaxProblem} : OnlyReads (fail problem : Parse α) :=
  fun c => ⟨0, c.skip_zero.symm⟩

theorem onlyReads_takeIf (kinds : List TokenKind) : OnlyReads (takeIf kinds) := by
  intro c
  rcases takeIf_cases kinds c with ⟨token, rest, -, -, eq⟩ | ⟨-, eq⟩
  · exact ⟨1, by rw [eq, TokenCursor.skip_one]⟩
  · exact ⟨0, by rw [eq, TokenCursor.skip_zero]⟩

theorem onlyReads_sequential : Sequential fun _ p _ => OnlyReads p where
  done := onlyReads_done
  andThen := OnlyReads.andThen
  takeIf _ := onlyReads_takeIf _

theorem onlyReads_level : LevelClosed fun _ p _ => OnlyReads p where
  toSequential := onlyReads_sequential
  binaryLevel {_ operand _} listed h := h.andThen fun left c =>
    @Sequential.binaryTail _ onlyReads_sequential _ operand operand listed h c.ahead left c

theorem onlyReads_simple : SimpleClosed fun _ p _ => OnlyReads p where
  toLevelClosed := onlyReads_level
  fail _ := onlyReads_fail
  overflow _ := onlyReads_fail
  assignment := @LevelClosed.assignment _ onlyReads_level fun _ c => ⟨0, c.skip_zero.symm⟩
  takeAny _ := onlyReads_takeIf _

/-- Before any token but an opening brace, a declaration skips no block. -/
theorem onlyReads_attempt (room : Nat) {c : TokenCursor}
    (h : ∀ token ∈ c.ahead.head?, token.kind ≠ .leftBrace) :
    ∃ n, (attempt room c).cursor = c.skip n := by
  have reads : OnlyReads (expression room) := onlyReads_simple.expression (Nat.le_refl room)
  have whole : OnlyReads (unbraced (expression room)) :=
    @SimpleClosed.unbraced _ onlyReads_simple (expression room) (expression room) reads
  rw [attempt_eq_unbraced room h]
  exact whole c

/-! ## Recovery -/

/-- A block that comes to nothing with levels left has been read to the end. -/
theorem ahead_of_block_dropped {room : Nat} {c : TokenCursor}
    (h : (block (room + 1) c).result = none) : (block (room + 1) c).cursor.ahead = [] := by
  have advances : Advances (declaration room) := fun _ => declaration_progress room
  have ended := allDeclarations_ended advances [.rightBrace] c
  have same : block (room + 1) c = blockWith (declaration room) c := rfl
  rcases blockWith_cases (declaration room) c with ⟨closing, rest, -, -, eq⟩ | ⟨missing, eq⟩
  · rw [same, eq] at h
    exact absurd h (by simp)
  · rw [same, eq]
    rcases ended with ended | stopped
    · exact ended
    · -- a closing brace would have been read
      cases hc : (allDeclarations [.rightBrace] (declaration room) c).cursor.ahead with
      | nil => rfl
      | cons token rest =>
        rw [TokenCursor.current_of_ahead hc] at stopped
        exact absurd (List.mem_singleton.1 stopped) (missing token (by simp [hc]))

/-- A declaration that comes to nothing goes on to a statement boundary, unless it is a block for
which no level is left. -/
theorem declaration_of_dropped {room : Nat} {c : TokenCursor} (fresh : c.Fresh)
    (dropped : (declaration room c).result = none)
    (other : room = 0 → ∀ token ∈ c.ahead.head?, token.kind ≠ .leftBrace) :
    declaration room c =
      { attempt room c with cursor := (attempt room c).cursor.toBoundary c.position } := by
  have failed : (attempt room c).result = none := by
    rwa [declaration_eq, result_recovering] at dropped
  rw [declaration_eq]
  by_cases braced : ∃ opening rest, c.ahead = opening :: rest ∧ opening.kind = .leftBrace
  · obtain ⟨opening, rest, hc, ho⟩ := braced
    obtain ⟨levels, rfl⟩ : ∃ levels, room = levels + 1 := by
      refine Nat.exists_eq_succ_of_ne_zero fun none_left => ?_
      exact other none_left opening (by simp [hc]) ho
    have ended : (attempt (levels + 1) c).cursor.ahead = [] := by
      rw [attempt_of_brace _ hc ho] at failed ⊢
      exact ahead_of_block_dropped failed
    -- at the end it makes no difference whether a boundary is looked for
    have still := TokenCursor.toBoundary_of_end ended c.position
    cases skipped : (attempt (levels + 1) c).cursor.endsSkipped c.position with
    | true => rw [recovering_of_skipped failed skipped, still]
    | false => exact recovering_of_none failed skipped
  · have no_brace : ∀ token ∈ c.ahead.head?, token.kind ≠ .leftBrace := by
      intro token ahead ho
      obtain ⟨rest, hc⟩ := List.head?_eq_some_iff.1 ahead
      exact braced ⟨token, rest, hc, ho⟩
    obtain ⟨n, read⟩ := onlyReads_attempt room no_brace
    have astray : (attempt room c).cursor.endsSkipped c.position = false := by
      rw [read]
      exact fresh.endsSkipped_skip n
    exact recovering_of_none failed astray

end Parse

namespace ParseState

/-! ## No level left -/

/-- The state stands at the opening brace of a block for which no level is left. -/
structure AtOverdeepBlock (p : ParseState) (opening : Token) (rest : List Token) : Prop where
  ahead : p.cursor.ahead = opening :: rest
  opens : opening.kind = .leftBrace
  full : p.maxDepth ≤ p.depth

section

variable {p q : ParseState} {opening : Token} {rest : List Token}

theorem room_eq_zero_iff : p.room = 0 ↔ p.maxDepth ≤ p.depth := by
  show (p.maxDepth - p.depth).toNat = 0 ↔ _
  omega

theorem AtOverdeepBlock.run_declaration (h : p.AtOverdeepBlock opening rest) :
    Call.declaration.run p = (none, { p with
      cursor := p.cursor.advance.skipBlock
      errors := p.errors ++ [SyntaxError.at .tooMuchNesting (rest.headD p.cursor.stop)] }) := by
  have current : p.cursor.advance.current = rest.headD p.cursor.stop := by
    rw [TokenCursor.current, TokenCursor.ahead_advance_of_ahead h.ahead, TokenCursor.stop_advance]
  have read := Parse.declaration_of_overdeep h.ahead h.opens
  rw [current] at read
  show p.run (Parse.declaration p.room) = _
  rw [room_eq_zero_iff.2 h.full, run, read]

/-- Any other declaration that comes to nothing goes on to a statement boundary. -/
theorem run_declaration_of_dropped (fresh : q.cursor.Fresh)
    (other : ∀ opening rest, ¬q.AtOverdeepBlock opening rest)
    (dropped : (Call.declaration.run q).1 = none) :
    (Call.declaration.run q).2 =
      (q.run (Parse.attempt q.room)).2.toBoundary q.cursor.position := by
  have braces : q.room = 0 → ∀ token ∈ q.cursor.ahead.head?, token.kind ≠ .leftBrace := by
    intro none_left token ahead ho
    obtain ⟨rest, hc⟩ := List.head?_eq_some_iff.1 ahead
    exact other token rest ⟨hc, ho, room_eq_zero_iff.1 none_left⟩
  show (q.run (Parse.declaration q.room)).2 = _
  rw [run, Parse.declaration_of_dropped fresh dropped braces]
  rfl

/-- The brace and what the count of the open blocks passes over are read. -/
theorem AtOverdeepBlock.skipBlock_place (h : p.AtOverdeepBlock opening rest) :
    p.cursor.advance.skipBlock.position =
        p.cursor.position + (TokenCursor.blockLength 0 rest + 1) ∧
      p.cursor.advance.skipBlock.ahead = rest.drop (TokenCursor.blockLength 0 rest) := by
  have after := TokenCursor.ahead_advance_of_ahead h.ahead
  have onward := p.cursor.advance.skipBlock_onward
  rw [after] at onward
  have first := (Parse.onward_advance h.ahead).position
  have place := onward.position
  exact ⟨by omega, by rw [onward.ahead, after]⟩

/-- Behind the matching brace. -/
theorem AtOverdeepBlock.skipBlock_of_matched (h : p.AtOverdeepBlock opening rest)
    {inside behind : List Token} {closing : Token} (m : Matched rest inside closing behind) :
    p.cursor.advance.skipBlock.position = p.cursor.position + (inside.length + 2) ∧
      p.cursor.advance.skipBlock.ahead = behind := by
  obtain ⟨position, ahead⟩ := h.skipBlock_place
  rw [TokenCursor.blockLength_of_matched m] at position ahead
  have split : rest = (inside ++ [closing]) ++ behind := by
    rw [m.split, List.append_assoc, List.singleton_append]
  refine ⟨position, ?_⟩
  rw [ahead, split]
  exact List.drop_left' List.length_append

/-- At the end, if no brace matches. -/
theorem AtOverdeepBlock.skipBlock_of_unmatched (h : p.AtOverdeepBlock opening rest)
    (unmatched : ∀ inside closing behind, ¬Matched rest inside closing behind) :
    p.cursor.advance.skipBlock.position = p.cursor.position + (rest.length + 1) ∧
      p.cursor.advance.skipBlock.ahead = [] := by
  have place := h.skipBlock_place
  rwa [TokenCursor.blockLength_of_unmatched unmatched, List.drop_length] at place

end

end ParseState

/-! ## Removal -/

/-- A block for which no level is left is removed exactly. The declaration has no result and records
one error, at the token behind the opening brace; as many levels are open as before. It ends behind
the brace that matches the opening one, and where no brace does, at the end. From then on, as long
as no other such block is met, a declaration that comes to nothing goes on to a statement boundary,
which is looked for from where it gave up. -/
theorem overdeep_block_removed {p : ParseState} {opening : Token} {rest : List Token}
    (ends : p.cursor.stop.kind = .eof) (h : p.AtOverdeepBlock opening rest) :
    ∃ after e, Call.declaration.procedure.run p = (none, after) ∧
      Call.declaration.run p = (none, after) ∧
      after.errors = p.errors ++ [e] ∧
      e = SyntaxError.at .tooMuchNesting (rest.headD p.cursor.stop) ∧
      e.problem.message = "Too much nesting." ∧
      after.depth = p.depth ∧ after.maxDepth = p.maxDepth ∧
      after.cursor.stop = p.cursor.stop ∧
      (∀ inside closing behind, Matched rest inside closing behind →
        after.cursor.position = p.cursor.position + (inside.length + 2) ∧
        after.cursor.ahead = behind) ∧
      ((∀ inside closing behind, ¬Matched rest inside closing behind) →
        after.cursor.position = p.cursor.position + (rest.length + 1) ∧
        after.cursor.ahead = []) ∧
      ∀ q, after.Reaches q → (∀ opening rest, ¬q.AtOverdeepBlock opening rest) →
        (Call.declaration.run q).1 = none →
        (Call.declaration.run q).2 =
          (q.run (Parse.attempt q.room)).2.toBoundary q.cursor.position := by
  have performed := (Call.declaration.performs ends).1
  have stop : p.cursor.advance.skipBlock.stop = p.cursor.stop :=
    p.cursor.advance.skipBlock_onward.stop.trans p.cursor.stop_advance
  refine ⟨_, _, performed.trans h.run_declaration, h.run_declaration, rfl, rfl, rfl, rfl, rfl, stop,
    fun inside closing behind m => h.skipBlock_of_matched m, h.skipBlock_of_unmatched, ?_⟩
  intro q reached other dropped
  obtain ⟨n, moved⟩ := reached.extends.moved
  exact ParseState.run_declaration_of_dropped (moved.fresh (TokenCursor.fresh_skipBlock _)) other
    dropped

/-- With the only level taken, before the tokens of `{ a { ; } } } nil;`. -/
def overdeepThenStray : ParseState where
  cursor := .start [⟨.leftBrace, "\x7b", .nil, 1⟩, ⟨.identifier, "a", .nil, 1⟩,
    ⟨.leftBrace, "\x7b", .nil, 1⟩, ⟨.semicolon, ";", .nil, 1⟩, ⟨.rightBrace, "\x7d", .nil, 1⟩,
    ⟨.rightBrace, "\x7d", .nil, 2⟩, ⟨.rightBrace, "\x7d", .nil, 2⟩, ⟨.kwNil, "nil", .nil, 2⟩,
    ⟨.semicolon, ";", .nil, 2⟩] ⟨.eof, "", .nil, 2⟩ ⟨.eof, "", .nil, 2⟩
  maxDepth := 1
  depth := 1

/-- The block ends behind the sixth token. The declaration at the stray brace behind it comes to
nothing, and goes on behind the semicolon. -/
theorem overdeep_block_removed_stray :
    ∃ after e, Call.declaration.procedure.run overdeepThenStray = (none, after) ∧
      after.errors = [e] ∧ e = SyntaxError.at .tooMuchNesting ⟨.identifier, "a", .nil, 1⟩ ∧
      after.depth = 1 ∧ after.cursor.position = 6 ∧
      after.cursor.ahead = [⟨.rightBrace, "\x7d", .nil, 2⟩, ⟨.kwNil, "nil", .nil, 2⟩,
        ⟨.semicolon, ";", .nil, 2⟩] ∧
      (Call.declaration.run after).2 =
        (after.run (Parse.attempt after.room)).2.toBoundary 6 ∧
      (Call.declaration.run after).2.cursor.position = 9 := by
  have inner : Balanced [⟨.identifier, "a", .nil, 1⟩, ⟨.leftBrace, "\x7b", .nil, 1⟩,
      ⟨.semicolon, ";", .nil, 1⟩, ⟨.rightBrace, "\x7d", .nil, 1⟩] :=
    .other (by decide) (by decide)
      (@Balanced.block _ _ [⟨.semicolon, ";", .nil, 1⟩] [] rfl
        (.other (by decide) (by decide) .nil) rfl .nil)
  obtain ⟨after, e, performed, ran, recorded, error, -, depth, -, -, matched, -, later⟩ :=
    @overdeep_block_removed overdeepThenStray _ _ rfl ⟨rfl, rfl, by decide⟩
  obtain ⟨position, ahead⟩ := matched _ ⟨.rightBrace, "\x7d", .nil, 2⟩ _ ⟨rfl, inner, rfl⟩
  obtain rfl : (Call.declaration.run overdeepThenStray).2 = after := by rw [ran]
  have dropped : (Call.declaration.run (Call.declaration.run overdeepThenStray).2).1 = none := rfl
  have no_block : ∀ opening rest,
      ¬(Call.declaration.run overdeepThenStray).2.AtOverdeepBlock opening rest := by
    intro opening rest block
    have first := block.ahead
    rw [ahead] at first
    obtain ⟨rfl, -⟩ := List.cons.inj first
    exact absurd block.opens (by decide)
  exact ⟨_, e, performed, recorded, error, depth, position, ahead, later _ .refl no_block dropped,
    rfl⟩

end LoxCheck
