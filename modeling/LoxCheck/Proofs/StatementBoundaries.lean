import LoxCheck.Proofs.CursorPlaces
import LoxCheck.Proofs.OverdeepBlocks
import LoxCheck.Proofs.TracedGrammar
import Mathlib.Order.Bounds.Basic

/-!
# Statement boundaries

A statement may begin at the end of the source, behind a semicolon and at a keyword that begins
statements. Recovery goes on to the first such place and changes nothing else. So every declaration
that is called for ends behind the token that closes its statement or, if it comes to nothing, at
such a place or behind the closing brace of a block that was too deep.
-/

namespace LoxCheck

/-! ## Boundaries in a sequence -/

/-- The token just before a place is of a kind. -/
def Behind (tokens : List Token) (kind : TokenKind) (place : Nat) : Prop :=
  1 ≤ place ∧ ∃ token ∈ tokens[place - 1]?, token.kind = kind

/-- A place where a statement may begin: the end of the source, a keyword that begins statements, or
the place behind a semicolon. -/
def BoundaryAt (tokens : List Token) (place : Nat) : Prop :=
  (∃ token ∈ tokens[place]?, token.kind = .eof ∨ token.kind ∈ TokenKind.statementStarters) ∨
    Behind tokens .semicolon place

/-- The kind of the token that closes a statement. -/
def Stmt.closingKind : Stmt → TokenKind
  | .block _ => .rightBrace
  | _ => .semicolon

namespace TokenCursor

/-! ## The first boundary -/

/-- The cursor stands where a statement may begin, as far as the token read last and the current one
tell. -/
def AtBoundary (c : TokenCursor) : Prop :=
  c.ahead = [] ∨ c.previous.kind = .semicolon ∨ c.current.kind.startsStatement = true

/-- A boundary is reached, and none was passed on the way. -/
theorem boundary_first (c : TokenCursor) :
    (c.skip (boundary c.previous c.ahead)).AtBoundary ∧
      ∀ n < boundary c.previous c.ahead, ¬(c.skip n).AtBoundary := by
  -- the tokens ahead are passed over one by one, each becoming the one read last
  generalize hc : c.ahead = tokens
  induction tokens generalizing c with
  | nil => exact ⟨.inl hc, fun n less => absurd less (Nat.not_lt_zero n)⟩
  | cons token rest ih =>
    have current := current_of_ahead hc
    by_cases here : c.previous.kind = .semicolon ∨ token.kind.startsStatement = true
    · have stays : boundary c.previous (token :: rest) = 0 := by
        rw [boundary, if_pos (by simpa using here)]
      rw [stays]
      exact ⟨.inr (current ▸ here), fun n less => absurd less (Nat.not_lt_zero n)⟩
    · have goes : boundary c.previous (token :: rest) = boundary token rest + 1 := by
        rw [boundary, if_neg (by simpa using here)]
      have previous : c.advance.previous = token := by rw [advance_of_ahead hc]
      obtain ⟨reached, before⟩ := ih c.advance (ahead_advance_of_ahead hc)
      rw [previous] at reached before
      rw [goes]
      refine ⟨reached, fun n less => ?_⟩
      cases n with
      | zero =>
        rintro (ended | there)
        · rw [skip_zero, hc] at ended
          exact List.cons_ne_nil _ _ ended
        · exact here (current ▸ there)
      | succ n => exact before n (Nat.lt_of_succ_lt_succ less)

section

variable {tokens : List Token} {last : Token} {c : TokenCursor}

theorem InSequence.current_eof_iff (h : c.InSequence tokens) :
    c.current.kind = .eof ↔ c.ahead = [] := by
  cases hc : c.ahead with
  | nil =>
    rw [current, hc, List.headD_nil]
    simpa using h.ends
  | cons token rest =>
    rw [current_of_ahead hc]
    simpa using h.readable token (by simp [hc])

/-- The token read last is the one before the cursor, if there is one. -/
theorem InSequence.behind_iff (h : c.InSequence tokens) (present : tokens.getLast? = some last)
    (ends : last.kind = .eof) {kind : TokenKind} (other : kind ≠ .eof) :
    Behind tokens kind c.position ↔ c.previous.kind = kind := by
  have previous := h.previous
  unfold Behind
  split at previous
  · next first =>
    -- at the start the last token of all is taken for the one before, and that is the end
    obtain rfl : last = c.previous := by simpa [present] using previous
    constructor
    · rintro ⟨positive, -⟩
      omega
    · intro same
      exact absurd (same.symm.trans ends) other
  · next later =>
    rw [previous]
    simp only [Option.mem_some_iff, exists_eq_left', and_iff_right_iff_imp]
    omega

/-- What the cursor tells of a boundary is so in the sequence. -/
theorem InSequence.boundaryAt_iff (h : c.InSequence tokens)
    (present : tokens.getLast? = some last) (ends : last.kind = .eof) :
    BoundaryAt tokens c.position ↔ c.AtBoundary := by
  have starts : c.current.kind.startsStatement = true ↔
      c.current.kind ∈ TokenKind.statementStarters := List.contains_iff_mem
  unfold BoundaryAt AtBoundary
  rw [h.getElem?_current, h.behind_iff present ends (by decide), ← h.current_eof_iff, starts]
  simp only [Option.mem_some_iff, exists_eq_left']
  tauto

/-- The place from which recovery looks for a boundary: one further on if nothing was read since
`start`, unless the end is there. -/
def firstPlace (start : Int) (c : TokenCursor) : Nat :=
  if c.position = start ∧ c.current.kind ≠ .eof then c.position + 1 else c.position

/-- Recovery discards the current token if it has to, and then the tokens before a boundary. -/
theorem InSequence.toBoundary_eq (h : c.InSequence tokens) (start : Int) :
    ∃ begun n, c.Onward begun n ∧ begun.skippedTo = c.skippedTo ∧
      begun.position = c.firstPlace start ∧
      c.toBoundary start = begun.skip (boundary begun.previous begun.ahead) := by
  unfold firstPlace
  by_cases still : (c.position : Int) = start
  · rw [toBoundary_of_still still]
    cases hc : c.ahead with
    | nil =>
      rw [advance_of_end hc, if_neg fun going => going.2 (h.current_eof_iff.2 hc)]
      exact ⟨c, 0, .refl c, rfl, rfl, rfl⟩
    | cons token rest =>
      have going : c.current.kind ≠ .eof := fun ended => by simp [h.current_eof_iff.1 ended] at hc
      rw [if_pos ⟨still, going⟩]
      have moved := Parse.onward_advance hc
      exact ⟨c.advance, 1, moved, c.skippedTo_advance, moved.position, rfl⟩
  · rw [toBoundary_of_moved still, if_neg fun going => still going.1]
    exact ⟨c, 0, .refl c, rfl, rfl, rfl⟩

/-- Recovery moves on to the first boundary, and does nothing else. -/
theorem InSequence.toBoundary (h : c.InSequence tokens) (present : tokens.getLast? = some last)
    (ends : last.kind = .eof) (start : Int) :
    (c.toBoundary start).InSequence tokens ∧ (c.toBoundary start).skippedTo = c.skippedTo ∧
      IsLeast {place | c.firstPlace start ≤ place ∧ BoundaryAt tokens place}
        (c.toBoundary start).position := by
  obtain ⟨begun, m, first, noted, place, whole⟩ := h.toBoundary_eq start
  have stands := h.onward first
  have within := boundary_le begun.previous begun.ahead
  have skipped {n : Nat} (le : n ≤ boundary begun.previous begun.ahead) :
      (begun.skip n).InSequence tokens ∧ (begun.skip n).position = c.firstPlace start + n := by
    rw [← place]
    exact ⟨stands.onward (.skip (by omega)), position_skip (by omega)⟩
  obtain ⟨reached, before⟩ := begun.boundary_first
  obtain ⟨ended, position⟩ := skipped (Nat.le_refl _)
  rw [whole]
  refine ⟨ended, by rw [skippedTo_skip, noted], ⟨?_, ?_⟩, ?_⟩
  · omega
  · exact (ended.boundaryAt_iff present ends).2 reached
  · -- a boundary further ahead of the place would have been noticed on the way
    rintro place' ⟨le, there⟩
    by_contra! less
    obtain ⟨n, rfl⟩ := Nat.exists_eq_add_of_le le
    have early : n < boundary begun.previous begun.ahead := by omega
    obtain ⟨passed, position'⟩ := skipped early.le
    rw [← position', passed.boundaryAt_iff present ends] at there
    exact before n early there

end

end TokenCursor

namespace Parse

variable {α : Type}

/-! ## Statements that are read -/

/-- A step that reads the token closing its statement last of all. -/
def Closes (p : Parse Stmt) : Prop :=
  ∀ c : TokenCursor, p.Ensures c fun s _ after => after.previous.kind = s.closingKind

theorem Closes.after (p : Parse α) {f : α → Parse Stmt} (h : ∀ a, Closes (f a)) :
    Closes (p.andThen f) := by
  intro c
  have reached : p.Ensures c fun _ _ _ => True := fun _ _ => trivial
  exact reached.andThen fun a _ after _ => h a after

theorem Closes.choice {kinds : List TokenKind} {f : Option Token → Parse Stmt}
    (taken : ∀ token, Closes (f (some token))) (left : Closes (f none)) :
    Closes ((takeIf kinds).andThen f) := by
  refine .after _ fun found => ?_
  cases found with
  | none => exact left
  | some token => exact taken token

theorem closes_semicolon {s : Stmt} (closed : s.closingKind = .semicolon)
    (problem : SyntaxProblem) :
    Closes ((expect .semicolon problem).andThen fun _ => done s) := fun _ =>
  .expect fun _ ahead hk => .done (by rw [TokenCursor.advance_of_ahead ahead, closed, hk])

theorem closes_block (room : Nat) : Closes (block room) := by
  intro c s hs
  cases room with
  | zero => exact absurd hs (by simp [block, overdeepBlock, fail])
  | succ room =>
    have same : block (room + 1) c = blockWith (declaration room) c := rfl
    rw [same] at hs ⊢
    rcases blockWith_cases (declaration room) c with ⟨closing, rest, hc, hk, eq⟩ | ⟨-, eq⟩
    · rw [eq] at hs ⊢
      obtain rfl := Option.some.inj hs
      show (TokenCursor.advance _).previous.kind = .rightBrace
      rw [TokenCursor.advance_of_ahead hc, hk]
    · rw [eq] at hs
      exact absurd hs (by simp)

/-- A declaration that is read ends with the token that closes its statement. -/
theorem closes_declaration (room : Nat) : Closes (declaration room) := by
  have simple (expression : Parse Expr) :
      Closes (varDeclaration expression) ∧ Closes (printStatement expression) ∧
        Closes (expressionStatement expression) :=
    ⟨.after _ fun _ => .after _ fun _ => closes_semicolon rfl _,
      .after _ fun _ => closes_semicolon rfl _, .after _ fun _ => closes_semicolon rfl _⟩
  obtain ⟨var, print, expr⟩ := simple (expression room)
  have attempted : Closes (attempt room) :=
    .choice (fun _ => var) (.choice (fun _ => print) (.choice (fun _ => closes_block room) expr))
  exact fun c => (attempted c).recovering

end Parse

/-! ## Declarations that are dropped -/

theorem Parse.moves_attempt (room : Nat) : Moves (attempt room) := by
  have expr := moves_expression room
  refine (moves_takeIf [.kwVar]).andThen fun found => ?_
  cases found with
  | some _ =>
    exact @SimpleClosed.varDeclaration _ (expression room) (expression room) moves_closed.simple expr
  | none =>
    exact @StatementClosed.statementWith _ (expression room) (expression room) (block room)
      (block room) moves_closed expr (moves_block room)

/-- A block stands between two places: an opening brace and what follows it up to the closing brace
that matches it. -/
def BlockBetween (tokens : List Token) (place finish : Nat) : Prop :=
  ∃ opening rest inside closing behind, tokens.drop place = opening :: rest ∧
    opening.kind = .leftBrace ∧ Matched rest inside closing behind ∧
    finish = place + (inside.length + 2)

section

variable {tokens : List Token} {last : Token} {room : Nat} {c : TokenCursor}

/-- A block for which no level is left ends behind its closing brace, or at the end if it has
none. -/
theorem TokenCursor.InSequence.overdeep (h : c.InSequence tokens)
    (present : tokens.getLast? = some last) (ends : last.kind = .eof) {opening : Token}
    {rest : List Token} (hc : c.ahead = opening :: rest) (ho : opening.kind = .leftBrace) :
    BoundaryAt tokens (Parse.declaration 0 c).cursor.position ∨
      BlockBetween tokens c.position (Parse.declaration 0 c).cursor.position := by
  have first := Parse.onward_advance hc
  have skip := c.advance.skipBlock_onward
  have whole := first.trans skip
  have place := whole.position
  have after := TokenCursor.ahead_advance_of_ahead hc
  rw [Parse.declaration_of_overdeep hc ho]
  by_cases matched : ∃ inside closing behind, Matched rest inside closing behind
  · obtain ⟨inside, closing, behind, m⟩ := matched
    obtain ⟨more, cut⟩ := h.split
    rw [hc, m.split, List.cons_append, List.append_assoc] at cut
    rw [after, TokenCursor.blockLength_of_matched m] at place
    exact .inr ⟨opening, _, inside, closing, _, cut, ho, ⟨rfl, m.balanced, m.closes⟩, by
      show c.advance.skipBlock.position = _
      omega⟩
  · push Not at matched
    have ended : c.advance.skipBlock.ahead = [] := by
      rw [skip.ahead, after, TokenCursor.blockLength_of_unmatched matched, List.drop_length]
    exact .inl (((h.onward whole).boundaryAt_iff present ends).2 (.inl ended))

/-- A declaration that is dropped ends where a statement may begin, unless it is a block for which
no level is left and ends behind that. -/
theorem TokenCursor.InSequence.dropped (h : c.InSequence tokens)
    (present : tokens.getLast? = some last) (ends : last.kind = .eof) (fresh : c.Fresh)
    (dropped : (Parse.declaration room c).result = none) :
    BoundaryAt tokens (Parse.declaration room c).cursor.position ∨
      room = 0 ∧ BlockBetween tokens c.position (Parse.declaration room c).cursor.position := by
  by_cases overdeep : room = 0 ∧ ∃ opening rest, c.ahead = opening :: rest ∧
      opening.kind = .leftBrace
  · obtain ⟨rfl, opening, rest, hc, ho⟩ := overdeep
    exact (h.overdeep present ends hc ho).imp_right fun between => ⟨rfl, between⟩
  · have other : room = 0 → ∀ token ∈ c.ahead.head?, token.kind ≠ .leftBrace := by
      intro none_left token ahead ho
      obtain ⟨rest, hc⟩ := List.head?_eq_some_iff.1 ahead
      exact overdeep ⟨none_left, token, rest, hc, ho⟩
    obtain ⟨n, moved⟩ := Parse.moves_attempt room c
    have recovered := (h.onward moved).toBoundary present ends c.position
    rw [Parse.declaration_of_dropped fresh dropped other]
    exact .inl recovered.2.2.1.2

end

/-! ## The declarations of a parse -/

namespace Traced

variable {α : Type}

/-- Every call for a declaration begins where the step begins or further on. -/
def Begins (t : Traced α) : Prop := ∀ c, ∀ call ∈ (t c).2, ∃ n, c.Onward call.start n

theorem begins_silent (p : Parse α) : Begins (silent p) := fun _ _ absent =>
  absurd absent List.not_mem_nil

theorem Begins.choice {kinds : List TokenKind} {f : Option Token → Traced α}
    (taken : ∀ token, Begins (f (some token))) (left : Begins (f none)) :
    Begins ((silent (Parse.takeIf kinds)).andThen f) := by
  intro c call mem
  rcases Parse.takeIf_cases kinds c with ⟨token, rest, hc, -, eq⟩ | ⟨-, eq⟩
  · have found : (silent (Parse.takeIf kinds) c).1.result = some (some token) := by
      rw [silent, eq]
    rw [andThen_of_some found, silent, eq] at mem
    obtain ⟨n, moved⟩ := taken token c.advance call (by simpa using mem)
    exact ⟨1 + n, (Parse.onward_advance hc).trans moved⟩
  · have found : (silent (Parse.takeIf kinds) c).1.result = some none := by rw [silent, eq]
    rw [andThen_of_some found, silent, eq] at mem
    exact left c call (by simpa using mem)

section

variable {room : Nat} {t : Traced Stmt}

theorem Begins.declarationWith (h : Begins t) : Begins (declarationWith room t) := by
  have attempted : Begins (attemptWith (Parse.expression room) t) :=
    .choice (fun _ => begins_silent _)
      (.choice (fun _ => begins_silent _) (.choice (fun _ => h) (begins_silent _)))
  intro c call mem
  rcases List.mem_append.1 mem with inner | outer
  · exact attempted c call inner
  · obtain rfl := List.mem_singleton.1 outer
    exact ⟨0, .refl c⟩

theorem Begins.declarations {p : Parse Stmt} (h : Begins t) (erases : Erases t p)
    (moves : Parse.Moves p) (stops : List TokenKind) (fuel : List Token) (c : TokenCursor) :
    ∀ call ∈ (declarations stops t fuel c).2, ∃ n, c.Onward call.start n := by
  induction fuel generalizing c with
  | nil => exact fun _ absent => absurd absent List.not_mem_nil
  | cons token fuel ih =>
    unfold Traced.declarations
    split
    · exact fun _ absent => absurd absent List.not_mem_nil
    · intro call mem
      rcases List.mem_append.1 mem with first | other
      · exact h c call first
      · obtain ⟨m, moved⟩ := moves c
        obtain ⟨n, further⟩ := ih (t c).1.cursor call other
        rw [erases c] at further
        exact ⟨m + n, moved.trans further⟩

end

theorem begins_block (room : Nat) : Begins (block room) := by
  induction room with
  | zero => exact begins_silent _
  | succ room ih =>
    exact fun c => ih.declarationWith.declarations (erases_declaration room)
      (Parse.moves_closed.declaration (Nat.le_refl room)) [.rightBrace] c.ahead c

theorem begins_program (room : Nat) (c : TokenCursor) :
    ∀ call ∈ (program room c).2, ∃ n, c.Onward call.start n :=
  (begins_block room).declarationWith.declarations (erases_declaration room)
    (Parse.moves_closed.declaration (Nat.le_refl room)) [] c.ahead c

end Traced

/-- From any state that stands in a sequence, recovery ends at the first place from which a statement
may begin, counted from the current place or, if nothing was read since `start`, from the one behind
it. It leaves the errors, the levels and the note of the block skipped last alone. So in every parse
each call for a declaration that has a statement ends just behind the semicolon that closes it, or
the brace if it is a block; and each call that has none ends where a statement may begin, or just
behind the closing brace of a block for which no level was left. -/
theorem declarations_end_at_boundaries {tokens : List Token} {last : Token}
    (present : tokens.getLast? = some last) (ends : last.kind = .eof) :
    (∀ p : ParseState, p.cursor.InSequence tokens → ∀ start : Int,
      ∃ c, p.toBoundary start = { p with cursor := c } ∧ c.InSequence tokens ∧
        c.skippedTo = p.cursor.skippedTo ∧
        IsLeast {place | p.cursor.firstPlace start ≤ place ∧ BoundaryAt tokens place}
          c.position) ∧
    ∀ maxDepth : Int, ∃ d calls, parse tokens maxDepth = .ok d ∧
      Traced.parse tokens maxDepth = .ok (d, calls) ∧
      ∀ call ∈ calls, call.start.InSequence tokens ∧ call.outcome.cursor.InSequence tokens ∧
        (∀ s, call.outcome.result = some s →
          Behind tokens s.closingKind call.outcome.cursor.position) ∧
        (call.outcome.result = none →
          BoundaryAt tokens call.outcome.cursor.position ∨
            call.room = 0 ∧
              BlockBetween tokens call.start.position call.outcome.cursor.position) := by
  refine ⟨fun p stands start => ⟨_, rfl, stands.toBoundary present ends start⟩, fun maxDepth => ?_⟩
  obtain ⟨begun, found⟩ := TokenCursor.ofTokens?_of_getLast? present ends
  obtain ⟨first, -, unskipped⟩ := TokenCursor.inSequence_of_ofTokens? found
  have fresh : begun.Fresh := fun place noted => by simp [unskipped] at noted
  have traced : Traced.parse tokens maxDepth =
      .ok (Parse.program (room maxDepth 0) begun, (Traced.program (room maxDepth 0) begun).2) := by
    rw [Traced.parse, found]
    exact congrArg Except.ok (Prod.ext (Traced.erases_program _ begun) rfl)
  refine ⟨_, _, by rw [parse, found], traced, fun call mem => ?_⟩
  obtain ⟨m, before⟩ := Traced.begins_program _ begun call mem
  obtain ⟨n, moved⟩ := (Parse.moves_closed.declaration (Nat.le_refl call.room)) call.start
  have stands := first.onward before
  have after := stands.onward moved
  refine ⟨stands, after, fun s hs => ?_, stands.dropped present ends (before.fresh fresh)⟩
  have other : s.closingKind ≠ .eof := by cases s <;> simp [Stmt.closingKind]
  exact (after.behind_iff present ends other).2 (Parse.closes_declaration call.room call.start s hs)

/-- The tokens of `{ } ;`. -/
def blockThenSemicolon : List Token :=
  [⟨.leftBrace, "\x7b", .nil, 1⟩, ⟨.rightBrace, "\x7d", .nil, 1⟩, ⟨.semicolon, ";", .nil, 1⟩,
    ⟨.eof, "", .nil, 1⟩]

/-- Without any level the block is skipped through its brace, and the semicolon is discarded. -/
theorem declarations_end_at_boundaries_blockThenSemicolon :
    (∃ c, ParseState.toBoundary 2
        ⟨⟨2, ⟨.rightBrace, "\x7d", .nil, 1⟩, [⟨.semicolon, ";", .nil, 1⟩], ⟨.eof, "", .nil, 1⟩,
          some 2⟩, 0, 0, []⟩ = ⟨c, 0, 0, []⟩ ∧ c.position = 3 ∧ c.skippedTo = some 2 ∧
      IsLeast {place | 3 ≤ place ∧ BoundaryAt blockThenSemicolon place} 3) ∧
    ∃ d calls, parse blockThenSemicolon 0 = .ok d ∧
      Traced.parse blockThenSemicolon 0 = .ok (d, calls) ∧
      calls.map (fun call => (call.start.position, call.outcome.cursor.position)) =
        [(0, 2), (2, 3)] ∧
      ∀ call ∈ calls, BoundaryAt blockThenSemicolon call.outcome.cursor.position ∨
        BlockBetween blockThenSemicolon call.start.position call.outcome.cursor.position := by
  obtain ⟨recovers, parses⟩ := @declarations_end_at_boundaries blockThenSemicolon _ rfl rfl
  obtain ⟨c, eq, -, noted, least⟩ := recovers
    ⟨⟨2, ⟨.rightBrace, "\x7d", .nil, 1⟩, [⟨.semicolon, ";", .nil, 1⟩], ⟨.eof, "", .nil, 1⟩,
      some 2⟩, 0, 0, []⟩ ⟨rfl, rfl, rfl⟩ 2
  obtain ⟨d, calls, parsed, traced, closed⟩ := parses 0
  obtain ⟨-, rfl⟩ := Prod.mk.inj (Except.ok.inj traced)
  have place : c.position = 3 := by
    obtain rfl := (ParseState.mk.inj eq).1
    rfl
  rw [place] at least
  refine ⟨⟨c, eq, place, noted, least⟩, d, _, parsed, traced, rfl, fun call mem => ?_⟩
  have dropped : call.outcome.result = none := by
    revert call
    decide +kernel
  exact ((closed call mem).2.2.2 dropped).imp_right And.right

end LoxCheck
