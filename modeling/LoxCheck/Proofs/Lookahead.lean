import LoxCheck.Proofs.CallSequences
import LoxCheck.Proofs.CursorPlaces
import LoxCheck.Proofs.MatchingBraces

/-!
# One token of lookahead

A step of the grammar looks at the tokens that it reads and at the one where it stops, and at no
other. From a cursor that shows the same tokens so far it does the same, whatever follows: every
basic step does, and so do the ways of combining steps, recovery and the skipping of blocks among
them. The token before the place where a step begins is never looked at.
-/

namespace LoxCheck

namespace TokenCursor

/-! ## Cursors that show the same tokens -/

/-- Two cursors stand at the same place, with the same note, and show the same `n` tokens and the
one behind them. -/
structure AgreesThrough (n : Nat) (c c' : TokenCursor) : Prop where
  position : c'.position = c.position
  noted : c'.skippedTo = c.skippedTo
  ahead : c'.ahead.take (n + 1) = c.ahead.take (n + 1)
  stop : c.ahead.length ≤ n → c'.stop = c.stop

/-- The number of tokens read is told by the places. -/
theorem Onward.unique {c d : TokenCursor} {m n : Nat} (h : c.Onward d m) (h' : c.Onward d n) :
    m = n := by
  have first := h.position
  have second := h'.position
  omega

namespace AgreesThrough

variable {c c' d d' : TokenCursor} {m n : Nat}

theorem mono (h : AgreesThrough n c c') (le : m ≤ n) : AgreesThrough m c c' where
  position := h.position
  noted := h.noted
  ahead := by
    have shorter := congrArg (List.take (m + 1)) h.ahead
    rwa [List.take_take, List.take_take, Nat.min_eq_left (by omega)] at shorter
  stop short := h.stop (by omega)

/-- Where one cursor has a token or the end to show, so has the other. -/
theorem le_length (h : AgreesThrough n c c') (le : n ≤ c.ahead.length) : n ≤ c'.ahead.length := by
  have lengths := congrArg List.length h.ahead
  rw [List.length_take, List.length_take] at lengths
  omega

theorem getElem? (h : AgreesThrough n c c') {place : Nat} (le : place ≤ n) :
    c'.ahead[place]? = c.ahead[place]? := by
  have same := congrArg (·[place]?) h.ahead
  simpa [List.getElem?_take, Nat.lt_succ_of_le le] using same

theorem head? (h : AgreesThrough n c c') : c'.ahead.head? = c.ahead.head? := by
  rw [List.head?_eq_getElem?, List.head?_eq_getElem?, h.getElem? (Nat.zero_le n)]

theorem current (h : AgreesThrough n c c') : c'.current = c.current := by
  unfold TokenCursor.current
  cases hc : c.ahead with
  | nil =>
    have ended : c'.ahead = [] := by
      rw [← List.head?_eq_none_iff, h.head?, hc, List.head?_nil]
    rw [ended, List.headD_nil, List.headD_nil]
    exact h.stop (by simp [hc])
  | cons token rest =>
    rw [List.headD_eq_head?_getD, h.head?, hc]
    rfl

theorem atEnd (h : AgreesThrough n c c') : c'.atEnd = c.atEnd := by
  unfold TokenCursor.atEnd
  rw [Bool.eq_iff_iff, List.isEmpty_iff, List.isEmpty_iff, ← List.head?_eq_none_iff, h.head?,
    List.head?_eq_none_iff]

/-- A token ahead of the one cursor is ahead of the other. -/
theorem exists_ahead (h : AgreesThrough n c c') {token : Token} {rest : List Token}
    (hc : c.ahead = token :: rest) : ∃ rest', c'.ahead = token :: rest' := by
  rw [← List.head?_eq_some_iff, h.head?, hc, List.head?_cons]

/-- Cursors that have read the same tokens go on showing the same ones. -/
theorem onward (h : AgreesThrough (m + n) c c') (moved : c.Onward d m) (moved' : c'.Onward d' m)
    (noted : d'.skippedTo = d.skippedTo) : AgreesThrough n d d' where
  position := by rw [moved.position, moved'.position, h.position]
  noted := noted
  ahead := by
    rw [moved.ahead, moved'.ahead, List.take_drop, List.take_drop]
    exact congrArg (List.drop m) h.ahead
  stop short := by
    have length := moved.length_ahead
    rw [moved.stop, moved'.stop]
    exact h.stop (by omega)

/-- The token that was read last is the same, once there is one. -/
theorem previous (h : AgreesThrough n c c') (moved : c.Onward d m) (moved' : c'.Onward d' m)
    (le : m ≤ n) (positive : 0 < m) : d'.previous = d.previous := by
  obtain ⟨m, rfl⟩ := Nat.exists_eq_succ_of_ne_zero positive.ne'
  have inside : m < c.ahead.length := moved.bound
  have inside' : m < c'.ahead.length := moved'.bound
  have same := h.getElem? (Nat.le_of_succ_le le)
  rw [List.getElem?_eq_getElem inside, List.getElem?_eq_getElem inside'] at same
  rw [moved.moved, moved'.moved]
  show (c'.skip (m + 1)).previous = (c.skip (m + 1)).previous
  rw [previous_skip inside, previous_skip inside']
  exact Option.some.inj same

end AgreesThrough

/-- Cursors at one place of two sequences that hold the same tokens there show the same ones. -/
theorem InSequence.agreesThrough {tokens tokens' : List Token} {c c' : TokenCursor} {n : Nat}
    (h : c.InSequence tokens) (h' : c'.InSequence tokens') (position : c'.position = c.position)
    (noted : c'.skippedTo = c.skippedTo) (bound : n ≤ c.ahead.length)
    (agree : ∀ place, c.position ≤ place → place ≤ c.position + n →
      tokens'[place]? = tokens[place]?) : AgreesThrough n c c' := by
  have shown : (tokens'.drop c.position).take (n + 1) = (tokens.drop c.position).take (n + 1) := by
    refine List.ext_getElem? fun i => ?_
    by_cases inside : i < n + 1
    · rw [List.getElem?_take_of_lt inside, List.getElem?_take_of_lt inside, List.getElem?_drop,
        List.getElem?_drop]
      exact agree _ (by omega) (by omega)
    · rw [List.getElem?_take_eq_none (by omega), List.getElem?_take_eq_none (by omega)]
  have ahead : c'.ahead.take (n + 1) = c.ahead.take (n + 1) := by
    rw [h.ahead, h'.ahead, position, List.take_takeWhile, List.take_takeWhile, shown]
  refine ⟨position, noted, ahead, fun short => ?_⟩
  -- all that can be read is shown, and so is the end behind it
  have all : c'.ahead.length = c.ahead.length := by
    have lengths := congrArg List.length ahead
    rw [List.length_take, List.length_take] at lengths
    omega
  have same := agree (c.position + c.ahead.length) (by omega) (by omega)
  rw [h.stop, ← position, ← all, h'.stop] at same
  exact Option.some.inj same

/-! ## Recovery and skipped blocks -/

/-- The search for a boundary looks at the tokens before it and at the one there. -/
theorem boundary_congr {previous : Token} {tokens tokens' : List Token}
    (h : tokens'.take (boundary previous tokens + 1) = tokens.take (boundary previous tokens + 1)) :
    boundary previous tokens' = boundary previous tokens := by
  induction tokens generalizing previous tokens' with
  | nil =>
    obtain rfl : tokens' = [] := by simpa [boundary] using h
    rfl
  | cons token rest ih =>
    cases tokens' with
    | nil => simp at h
    | cons token' rest' =>
      rw [List.take_succ_cons, List.take_succ_cons] at h
      obtain ⟨rfl, others⟩ := List.cons.inj h
      unfold boundary at others ⊢
      split
      · rfl
      · next going =>
        rw [if_neg going] at others
        rw [ih others]

/-- The count of the open blocks looks at the tokens up to the closing brace. -/
theorem blockLength_congr {depth : Nat} {tokens tokens' : List Token}
    (h : tokens'.take (blockLength depth tokens + 1) =
      tokens.take (blockLength depth tokens + 1)) :
    blockLength depth tokens' = blockLength depth tokens := by
  induction tokens generalizing depth tokens' with
  | nil =>
    obtain rfl : tokens' = [] := by simpa [blockLength] using h
    rfl
  | cons token rest ih =>
    cases tokens' with
    | nil => simp at h
    | cons token' rest' =>
      rw [List.take_succ_cons, List.take_succ_cons] at h
      obtain ⟨rfl, others⟩ := List.cons.inj h
      by_cases ho : token'.kind = .leftBrace
      · rw [blockLength_open _ _ ho] at others ⊢
        rw [blockLength_open _ _ ho, ih others]
      by_cases hc : token'.kind = .rightBrace
      · cases depth with
        | zero => rw [blockLength_close _ hc, blockLength_close _ hc]
        | succ depth =>
          rw [blockLength_close_inner _ _ hc] at others ⊢
          rw [blockLength_close_inner _ _ hc, ih others]
      · rw [blockLength_other _ _ ho hc] at others ⊢
        rw [blockLength_other _ _ ho hc, ih others]

namespace AgreesThrough

variable {c c' : TokenCursor} {n : Nat}

theorem advance (h : AgreesThrough (n + 1) c c') {token : Token} {rest : List Token}
    (hc : c.ahead = token :: rest) : AgreesThrough n c.advance c'.advance := by
  obtain ⟨rest', hc'⟩ := h.exists_ahead hc
  rw [Nat.add_comm] at h
  refine h.onward (Parse.onward_advance hc) (Parse.onward_advance hc') ?_
  rw [skippedTo_advance, skippedTo_advance, h.noted]

/-- From the same token read last, the same boundary is found. -/
theorem skip_boundary (h : AgreesThrough n c c') (previous : c'.previous = c.previous)
    (moved : c.Onward (c.skip (boundary c.previous c.ahead)) n) :
    c'.Onward (c'.skip (boundary c'.previous c'.ahead)) n ∧
      (c'.skip (boundary c'.previous c'.ahead)).skippedTo =
        (c.skip (boundary c.previous c.ahead)).skippedTo := by
  obtain rfl := moved.unique (.skip (boundary_le c.previous c.ahead))
  have found : boundary c'.previous c'.ahead = boundary c.previous c.ahead := by
    rw [previous]
    exact boundary_congr h.ahead
  rw [found, skippedTo_skip, skippedTo_skip]
  exact ⟨.skip (h.le_length (boundary_le _ _)), h.noted⟩

/-- Recovery goes on to the same place. The token read last has to be the same only if some token
was read since the start. -/
theorem toBoundary (h : AgreesThrough n c c') {start : Int}
    (previous : c.position ≠ start → c'.previous = c.previous)
    (moved : c.Onward (c.toBoundary start) n) :
    c'.Onward (c'.toBoundary start) n ∧
      (c'.toBoundary start).skippedTo = (c.toBoundary start).skippedTo := by
  by_cases still : c.position = start
  · have still' : c'.position = start := h.position ▸ still
    cases hc : c.ahead with
    | nil =>
      have hc' : c'.ahead = [] := by rw [← List.head?_eq_none_iff, h.head?, hc, List.head?_nil]
      rw [toBoundary_of_end hc] at moved ⊢
      rw [toBoundary_of_end hc', moved.unique (.refl c)]
      exact ⟨.refl c', h.noted⟩
    | cons token rest =>
      -- the current token is discarded, and is then the one read last
      obtain ⟨rest', hc'⟩ := h.exists_ahead hc
      rw [toBoundary_of_still still] at moved ⊢
      rw [toBoundary_of_still still']
      have second := Onward.skip (boundary_le c.advance.previous c.advance.ahead)
      obtain rfl := moved.unique ((Parse.onward_advance hc).trans second)
      rw [Nat.add_comm] at h
      have same : c'.advance.previous = c.advance.previous := by
        rw [advance_of_ahead hc, advance_of_ahead hc']
      obtain ⟨reached, noted⟩ := (h.advance hc).skip_boundary same second
      exact ⟨(Parse.onward_advance hc').trans reached, noted⟩
  · have still' : c'.position ≠ start := h.position ▸ still
    rw [toBoundary_of_moved still] at moved ⊢
    rw [toBoundary_of_moved still']
    exact h.skip_boundary (previous still) moved

/-- A skipped block ends at the same place. -/
theorem skipBlock (h : AgreesThrough n c c') (moved : c.Onward c.skipBlock n) :
    c'.Onward c'.skipBlock n ∧ c'.skipBlock.skippedTo = c.skipBlock.skippedTo := by
  obtain rfl := moved.unique c.skipBlock_onward
  have length : blockLength 0 c'.ahead = blockLength 0 c.ahead := blockLength_congr h.ahead
  have moved' := c'.skipBlock_onward
  rw [length] at moved'
  refine ⟨moved', congrArg some ?_⟩
  show c'.skipBlock.position = c.skipBlock.position
  rw [moved'.position, moved.position, h.position]

end AgreesThrough

end TokenCursor

namespace Parse

variable {α β : Type}

/-! ## Steps that look one token ahead -/

/-- A step does from `c'` what it does from `c`, and reads `n` tokens. -/
structure Repeats (p : Parse α) (n : Nat) (c c' : TokenCursor) : Prop where
  result : (p c').result = (p c).result
  errors : (p c').errors = (p c).errors
  moved : c'.Onward (p c').cursor n
  noted : (p c').cursor.skippedTo = (p c).cursor.skippedTo

/-- Two outcomes with one result and the same errors. -/
theorem Repeats.of_outcomes {p : Parse α} {n : Nat} {c c' after after' : TokenCursor}
    {result : Option α} {errors : List SyntaxError} (eq : p c = ⟨result, errors, after⟩)
    (eq' : p c' = ⟨result, errors, after'⟩) (moved : c'.Onward after' n)
    (noted : after'.skippedTo = after.skippedTo) : p.Repeats n c c' where
  result := by rw [eq, eq']
  errors := by rw [eq, eq']
  moved := by rwa [eq']
  noted := by rwa [eq, eq']

theorem Repeats.of_eq {p q : Parse α} {n : Nat} {c c' : TokenCursor} (h : q.Repeats n c c')
    (eq : p c = q c) (eq' : p c' = q c') : p.Repeats n c c' where
  result := by rw [eq, eq', h.result]
  errors := by rw [eq, eq', h.errors]
  moved := by
    rw [eq']
    exact h.moved
  noted := by rw [eq, eq', h.noted]

/-- A step that looks at no token behind the one where it stops: from cursors that agree so far it
does the same. -/
structure Local (p : Parse α) : Prop where
  moves : Moves p
  repeats : ∀ {c c' : TokenCursor} {n : Nat}, c.Onward (p c).cursor n → c.AgreesThrough n c' →
    p.Repeats n c c'

theorem Local.of_still {p : Parse α} (still : ∀ c, (p c).cursor = c)
    (same : ∀ {c c' : TokenCursor}, c.AgreesThrough 0 c' →
      (p c').result = (p c).result ∧ (p c').errors = (p c).errors) : Local p where
  moves c := ⟨0, by rw [still]; exact .refl c⟩
  repeats {c c' n} moved agrees := by
    rw [still] at moved
    obtain rfl := moved.unique (.refl c)
    refine ⟨(same agrees).1, (same agrees).2, ?_, ?_⟩
    · rw [still]
      exact .refl c'
    · rw [still, still, agrees.noted]

theorem local_done (a : α) : Local (done a) := .of_still (fun _ => rfl) fun _ => ⟨rfl, rfl⟩

theorem local_report (problem : SyntaxProblem) (token : Token) : Local (report problem token) :=
  .of_still (fun _ => rfl) fun _ => ⟨rfl, rfl⟩

theorem local_fail {problem : SyntaxProblem} : Local (fail problem : Parse α) :=
  .of_still (fun _ => rfl) fun agrees => ⟨rfl, by simp only [fail, agrees.current]⟩

/-- The second step begins where the first one ends, from both cursors. -/
theorem Local.andThen {p : Parse α} {f : α → Parse β} (hp : Local p) (hf : ∀ a, Local (f a)) :
    Local (p.andThen f) where
  moves := hp.moves.andThen fun a => (hf a).moves
  repeats {c c' n} moved agrees := by
    obtain ⟨m, first⟩ := hp.moves c
    cases hr : (p c).result with
    | none =>
      rw [andThen_of_none hr] at moved
      obtain rfl := moved.unique first
      have same := hp.repeats first agrees
      have eq' := andThen_of_none (f := f) (same.result.trans hr)
      rw [same.errors] at eq'
      exact .of_outcomes (andThen_of_none hr) eq' same.moved same.noted
    | some a =>
      rw [andThen_of_some hr] at moved
      obtain ⟨k, second⟩ := (hf a).moves (p c).cursor
      obtain rfl := moved.unique (first.trans second)
      have same := hp.repeats first (agrees.mono (Nat.le_add_right m k))
      have others := (hf a).repeats second (agrees.onward first same.moved same.noted)
      have eq' := andThen_of_some (f := f) (same.result.trans hr)
      rw [others.result, same.errors, others.errors] at eq'
      exact .of_outcomes (andThen_of_some hr) eq' (same.moved.trans others.moved) others.noted

/-- Whether the current token is read is told by that token. -/
theorem local_takeIf (kinds : List TokenKind) : Local (takeIf kinds) where
  moves := moves_takeIf kinds
  repeats {c c' n} moved agrees := by
    rcases takeIf_cases kinds c with ⟨token, rest, hc, listed, eq⟩ | ⟨unlisted, eq⟩
    · obtain ⟨rest', hc'⟩ := agrees.exists_ahead hc
      rw [eq] at moved
      obtain rfl := moved.unique (onward_advance hc)
      have noted : c'.advance.skippedTo = c.advance.skippedTo := by
        rw [TokenCursor.skippedTo_advance, TokenCursor.skippedTo_advance, agrees.noted]
      exact .of_outcomes eq (takeIf_of_mem hc' listed) (onward_advance hc') noted
    · have eq' : takeIf kinds c' = ⟨some none, [], c'⟩ :=
        takeIf_of_not_mem (by rw [agrees.head?]; exact unlisted)
      rw [eq] at moved
      obtain rfl := moved.unique (.refl c)
      exact .of_outcomes eq eq' (.refl c') agrees.noted

theorem local_sequential : Sequential fun _ p _ => Local p where
  done := local_done
  andThen := Local.andThen
  takeIf _ := local_takeIf _

/-- Steps computed with fuel look one token ahead if they do so with every fuel, and more fuel than
there are tokens changes nothing. -/
theorem Local.of_fuel {step : List Token → Parse α} (h : ∀ fuel, Local (step fuel))
    (enough : ∀ {fuel : List Token} {c : TokenCursor}, c.ahead.length ≤ fuel.length →
      step fuel c = step c.ahead c) : Local fun c => step c.ahead c where
  moves c := (h c.ahead).moves c
  repeats {c c' n} moved agrees := by
    -- one fuel is enough for both cursors
    have first : step (c.ahead ++ c'.ahead) c = step c.ahead c := enough (by simp)
    have second : step (c.ahead ++ c'.ahead) c' = step c'.ahead c' := enough (by simp)
    rw [← first] at moved
    exact ((h _).repeats moved agrees).of_eq first.symm second.symm

theorem local_level : LevelClosed fun _ p _ => Local p where
  toSequential := local_sequential
  binaryLevel {operators operand _} listed h := h.andThen fun left =>
    @Local.of_fuel _ (fun fuel => binaryTail operators operand fuel left)
      (fun fuel => @Sequential.binaryTail _ local_sequential _ operand operand listed h fuel left)
      fun enough => binaryTail_of_fuel h.moves operators enough (Nat.le_refl _)

theorem local_simple : SimpleClosed fun _ p _ => Local p where
  toLevelClosed := local_level
  fail _ := local_fail
  overflow _ := local_fail
  assignment := @LevelClosed.assignment _ local_level fun token => local_report _ token
  takeAny _ := local_takeIf _

/-! ## Recovery, blocks and programs -/

/-- Where recovery goes is told by the tokens up to there, since the token read last is one of those
or is not asked for. -/
theorem Local.recovering {step : Parse Stmt} (h : Local step) : Local (recovering step) where
  moves := @StatementClosed.recovering _ moves_closed step step h.moves
  repeats {c c' n} moved agrees := by
    obtain ⟨m, first⟩ := h.moves c
    cases hr : (step c).result with
    | some s =>
      rw [recovering_of_some hr] at moved
      have same := h.repeats moved agrees
      exact same.of_eq (recovering_of_some hr) (recovering_of_some (same.result.trans hr))
    | none =>
      have skipped (same : step.Repeats m c c') : (step c').cursor.endsSkipped c'.position =
          (step c).cursor.endsSkipped c.position := by
        rw [TokenCursor.endsSkipped, same.noted, same.moved.position, agrees.position,
          ← first.position]
        rfl
      cases hs : (step c).cursor.endsSkipped c.position with
      | true =>
        rw [recovering_of_skipped hr hs] at moved
        obtain rfl := moved.unique first
        have same := h.repeats first agrees
        exact same.of_eq (recovering_of_skipped hr hs)
          (recovering_of_skipped (same.result.trans hr) ((skipped same).trans hs))
      | false =>
        rw [recovering_of_none hr hs] at moved
        obtain ⟨k, bound, eq, -⟩ := (step c).cursor.toBoundary_onward c.position
        have second : (step c).cursor.Onward ((step c).cursor.toBoundary c.position) k := by
          rw [eq]
          exact .skip bound
        obtain rfl := moved.unique (first.trans second)
        have same := h.repeats first (agrees.mono (Nat.le_add_right m k))
        have place := first.position
        obtain ⟨reached, noted⟩ := (agrees.onward first same.moved same.noted).toBoundary
          (fun further => agrees.previous first same.moved (Nat.le_add_right m k) (by omega)) second
        have eq' : Parse.recovering step c' = ⟨(step c).result, (step c).errors,
            (step c').cursor.toBoundary c.position⟩ := by
          rw [recovering_of_none (same.result.trans hr) ((skipped same).trans hs), agrees.position,
            ← same.result, ← same.errors]
        exact .of_outcomes (recovering_of_none hr hs) eq' (same.moved.trans reached) noted

theorem local_overdeepBlock : Local overdeepBlock where
  moves c := ⟨_, c.skipBlock_onward⟩
  repeats {c c' n} moved agrees := by
    obtain ⟨reached, noted⟩ := agrees.skipBlock moved
    exact ⟨rfl, by simp only [overdeepBlock, fail, agrees.current], reached, noted⟩

/-- A step whose result may be missing, as a step that always has a result. -/
def settled (p : Parse α) : Parse (Option α) := fun c =>
  ⟨some (p c).result, (p c).errors, (p c).cursor⟩

theorem Local.settled {p : Parse α} (h : Local p) : Local (settled p) where
  moves := h.moves
  repeats moved agrees := by
    have same := h.repeats moved agrees
    exact ⟨congrArg some same.result, same.errors, same.moved, same.noted⟩

/-- Declarations up to a token of one of some kinds, as a step. -/
def statements (stops : List TokenKind) (declaration : Parse Stmt) (fuel : List Token) :
    Parse (List Stmt) := fun c =>
  let d := declarations stops declaration fuel c
  ⟨some d.statements, d.errors, d.cursor⟩

/-- The first declaration and then the others, unless they stop here. -/
theorem statements_cons (stops : List TokenKind) (declaration : Parse Stmt) (token : Token)
    (fuel : List Token) (c : TokenCursor) :
    statements stops declaration (token :: fuel) c =
      if c.atEnd || stops.contains c.current.kind then done [] c
      else (settled declaration).andThen (fun first =>
        (statements stops declaration fuel).andThen fun others => done (first.toList ++ others)) c := by
  split
  · next stopped => simp only [statements, declarations, stopped, if_true, done]
  · next going =>
    rw [statements, declarations, if_neg going]
    simp only [statements, settled, andThen, done, List.append_nil]

theorem Local.statements {declaration : Parse Stmt} (h : Local declaration)
    (stops : List TokenKind) (fuel : List Token) : Local (statements stops declaration fuel) := by
  induction fuel with
  | nil => exact local_done []
  | cons token fuel ih =>
    have further : Local ((Parse.settled declaration).andThen fun first =>
        (Parse.statements stops declaration fuel).andThen fun others =>
          done (first.toList ++ others)) :=
      h.settled.andThen fun _ => ih.andThen fun _ => local_done _
    refine ⟨h.moves.declarations stops (token :: fuel), fun {c c' n} moved agrees => ?_⟩
    have first := statements_cons stops declaration token fuel c
    have second := statements_cons stops declaration token fuel c'
    rw [agrees.atEnd, agrees.current] at second
    split at first
    · next stopped =>
      rw [if_pos stopped] at second
      rw [first] at moved
      exact ((local_done []).repeats moved agrees).of_eq first second
    · next going =>
      rw [if_neg going] at second
      rw [first] at moved
      exact (further.repeats moved agrees).of_eq first second

/-- All declarations up to a token of one of some kinds or the end, as a step. -/
def allStatements (stops : List TokenKind) (declaration : Parse Stmt) : Parse (List Stmt) :=
  fun c => statements stops declaration c.ahead c

theorem Local.allStatements {declaration : Parse Stmt} (h : Local declaration)
    (advances : Advances declaration) (stops : List TokenKind) :
    Local (allStatements stops declaration) :=
  .of_fuel (h.statements stops) fun {fuel c} enough => by
    unfold Parse.statements
    rw [declarations_eq_all advances stops enough, allDeclarations]

theorem local_expression (room : Nat) : Local (expression room) :=
  local_simple.expression (Nat.le_refl room)

theorem local_unary (room : Nat) : Local (unary room) :=
  (local_simple.expression_and_unary (Nat.le_refl room)).2

theorem local_equality (room : Nat) : Local (equality (unary room)) :=
  @LevelClosed.equality _ local_level (unary room) (unary room) (local_unary room)

theorem local_primary (room : Nat) : Local (primaryWith (expression room)) :=
  @ExpressionClosed.primaryWith _ local_simple.toExpressionClosed (expression room)
    (expression room) (local_expression room)

theorem local_varDeclaration (room : Nat) : Local (varDeclaration (expression room)) :=
  @SimpleClosed.varDeclaration _ (expression room) (expression room) local_simple
    (local_expression room)

theorem local_printStatement (room : Nat) : Local (printStatement (expression room)) :=
  @SimpleClosed.printStatement _ (expression room) (expression room) local_simple
    (local_expression room)

theorem local_expressionStatement (room : Nat) : Local (expressionStatement (expression room)) :=
  @SimpleClosed.expressionStatement _ (expression room) (expression room) local_simple
    (local_expression room)

/-- The two ways to go on after looking for a token. -/
theorem Local.choice {kinds : List TokenKind} {f : Option Token → Parse β}
    (taken : ∀ token, Local (f (some token))) (left : Local (f none)) :
    Local ((takeIf kinds).andThen f) := by
  refine (local_takeIf kinds).andThen fun found => ?_
  cases found with
  | none => exact left
  | some token => exact taken token

theorem Local.statementWith {room : Nat} (h : Local (block room)) :
    Local (statementWith (expression room) (block room)) :=
  .choice (fun _ => local_printStatement room)
    (.choice (fun _ => h) (local_expressionStatement room))

theorem Local.declaration {room : Nat} (h : Local (block room)) : Local (declaration room) := by
  have attempted : Local (attempt room) :=
    .choice (fun _ => local_varDeclaration room) h.statementWith
  exact attempted.recovering

theorem local_block (room : Nat) : Local (block room) := by
  induction room with
  | zero => exact local_overdeepBlock
  | succ room ih =>
    have same : block (room + 1) = blockWith (declaration room) := rfl
    rw [same, blockWith_eq]
    have body : Local (body (Parse.declaration room)) :=
      ih.declaration.allStatements (fun _ => declaration_progress room) [.rightBrace]
    exact body.andThen fun _ =>
      (local_simple.expectAny (by decide) (by decide)).andThen fun _ => local_done _

/-- A program as a step. -/
theorem local_program (room : Nat) : Local (allStatements [] (declaration room)) :=
  (local_block room).declaration.allStatements (fun _ => declaration_progress room) []

end Parse

/-! ## Calls -/

/-- Two states stand at the same place, with the same block skipped last, and count the same levels
under the same limit. -/
structure ParseState.AtSamePlace (p p' : ParseState) : Prop where
  position : p'.cursor.position = p.cursor.position
  skippedTo : p'.cursor.skippedTo = p.cursor.skippedTo
  depth : p'.depth = p.depth
  maxDepth : p'.maxDepth = p.maxDepth

namespace Call

variable {α : Type}

/-- Whether a call is one for a rule of the grammar. -/
def parses : Call α → Bool
  | program | declaration | statement | varDeclaration | printStatement | expressionStatement
  | block | expression | assignment | equality | comparison | term | factor | unary
  | primary => true
  | _ => false

/-- From either state a call gives the same answer, ends at the same place and records the same
errors. -/
structure SameFrom (call : Call α) (p p' : ParseState) : Prop where
  answer : (call.run p').1 = (call.run p).1
  place : (call.run p).2.AtSamePlace (call.run p').2
  errors : ∃ errors, (call.run p).2.errors = p.errors ++ errors ∧
    (call.run p').2.errors = p'.errors ++ errors

/-- A call for a rule of the grammar runs a step that looks one token ahead, with the room that its
state leaves, and answers with what the step has found. -/
theorem exists_local (call : Call α) (rule : call.parses = true) :
    ∃ (β : Type) (step : Nat → Parse β) (answer : Option β → α), (∀ room, (step room).Local) ∧
      ∀ p : ParseState,
        call.run p = (answer (p.run (step p.room)).1, (p.run (step p.room)).2) := by
  have ofStep {β : Type} {call : Call (Option β)} (step : Nat → Parse β)
      (h : ∀ room, (step room).Local) (runs : ∀ p, call.run p = p.run (step p.room)) :
      ∃ (γ : Type) (step : Nat → Parse γ) (answer : Option γ → Option β),
        (∀ room, (step room).Local) ∧ ∀ p : ParseState,
          call.run p = (answer (p.run (step p.room)).1, (p.run (step p.room)).2) :=
    ⟨β, step, id, h, runs⟩
  have level {operators : List TokenKind} {operand : Parse Expr}
      (listed : ∀ kind ∈ operators, kind ∈ Parse.expressionKinds) (h : operand.Local) :
      (Parse.binaryLevel operators operand).Local :=
    @Parse.LevelClosed.binaryLevel _ Parse.local_level operators operand operand listed h
  have factor (room : Nat) : (Parse.factor (Parse.unary room)).Local :=
    level (by decide) (Parse.local_unary room)
  have term (room : Nat) : (Parse.term (Parse.unary room)).Local := level (by decide) (factor room)
  cases call with
  | program => exact ⟨_, _, (·.getD []), Parse.local_program, fun _ => rfl⟩
  | declaration => exact ofStep _ (fun room => (Parse.local_block room).declaration) fun _ => rfl
  | statement => exact ofStep _ (fun room => (Parse.local_block room).statementWith) fun _ => rfl
  | varDeclaration => exact ofStep _ Parse.local_varDeclaration fun _ => rfl
  | printStatement => exact ofStep _ Parse.local_printStatement fun _ => rfl
  | expressionStatement => exact ofStep _ Parse.local_expressionStatement fun _ => rfl
  | block => exact ofStep _ Parse.local_block fun _ => rfl
  | expression => exact ofStep _ Parse.local_expression fun _ => rfl
  | assignment => exact ofStep _ (fun room => Parse.local_expression (room + 1)) fun _ => rfl
  | equality => exact ofStep _ Parse.local_equality fun _ => rfl
  | comparison => exact ofStep _ (fun room => level (by decide) (term room)) fun _ => rfl
  | term => exact ofStep _ term fun _ => rfl
  | factor => exact ofStep _ factor fun _ => rfl
  | unary => exact ofStep _ Parse.local_unary fun _ => rfl
  | primary => exact ofStep _ Parse.local_primary fun _ => rfl
  | _ => exact absurd rule Bool.false_ne_true

theorem exists_onward (call : Call α) (rule : call.parses = true) (p : ParseState) :
    ∃ n, p.cursor.Onward (call.run p).2.cursor n := by
  obtain ⟨β, step, answer, looks, runs⟩ := call.exists_local rule
  rw [runs]
  exact (looks p.room).moves p.cursor

/-- No call for a rule of the grammar looks behind the place where it ends. -/
theorem sameFrom {p p' : ParseState} {tokens tokens' : List Token} (call : Call α)
    (rule : call.parses = true) (stands : p.cursor.InSequence tokens)
    (stands' : p'.cursor.InSequence tokens') (same : p.AtSamePlace p')
    (agree : ∀ place, p.cursor.position ≤ place → place ≤ (call.run p).2.cursor.position →
      tokens'[place]? = tokens[place]?) : call.SameFrom p p' := by
  obtain ⟨β, step, answer, looks, runs⟩ := call.exists_local rule
  obtain ⟨n, moved⟩ := (looks p.room).moves p.cursor
  have ended : (call.run p).2.cursor = (step p.room p.cursor).cursor := by
    rw [runs]
    rfl
  rw [ended, moved.position] at agree
  have agrees := stands.agreesThrough stands' same.position same.skippedTo moved.bound agree
  have repeated := (looks p.room).repeats moved agrees
  have room : p'.room = p.room := by
    rw [ParseState.room, same.depth, same.maxDepth]
    rfl
  have runs' := runs p'
  rw [room] at runs'
  constructor
  · rw [runs', runs p]
    exact congrArg answer repeated.result
  · rw [runs', runs p]
    refine ⟨?_, repeated.noted, same.depth, same.maxDepth⟩
    exact repeated.moved.position.trans ((congrArg (· + n) same.position).trans moved.position.symm)
  · refine ⟨(step p.room p.cursor).errors, by rw [runs]; rfl, ?_⟩
    rw [runs']
    exact congrArg (p'.errors ++ ·) repeated.errors

end Call

/-! ## Sequences that agree so far -/

/-- A call for a rule of the grammar that begins at some place and ends at another looks at the tokens
from the one place to the other, and at no others. On every sequence that holds the same tokens
there, and from every state that stands at the same place in it with the same levels, the same limit
and the same block skipped last, it gives the same answer, records the same errors and ends in such
a state again. So what follows the first end of the source makes no difference to a parse. -/
theorem calls_look_one_token_ahead :
    (∀ (tokens tokens' : List Token) (last : Token), tokens'.getLast? = some last →
      last.kind = .eof → ∀ p : ParseState, p.cursor.InSequence tokens →
      ∀ (α : Type) (call : Call α), call.parses = true →
      (∀ place, p.cursor.position ≤ place → place ≤ (call.run p).2.cursor.position →
        tokens'[place]? = tokens[place]?) →
      (∃ p', p'.cursor.InSequence tokens' ∧ p.AtSamePlace p') ∧
      ∀ p', p'.cursor.InSequence tokens' → p.AtSamePlace p' → call.SameFrom p p') ∧
    ∀ (tokens tokens' : List Token) (last last' : Token), tokens.getLast? = some last →
      tokens'.getLast? = some last' → last.kind = .eof → last'.kind = .eof →
      (∀ place ≤ tokens.findIdx (·.kind = .eof), tokens'[place]? = tokens[place]?) →
      ∀ maxDepth : Int, ∃ d d', parse tokens maxDepth = .ok d ∧ parse tokens' maxDepth = .ok d' ∧
        d'.statements = d.statements ∧ d'.errors = d.errors := by
  constructor
  · intro tokens tokens' last present ends p stands α call rule agree
    refine ⟨?_, fun p' stands' same => call.sameFrom rule stands stands' same agree⟩
    obtain ⟨n, moved⟩ := call.exists_onward rule p
    have further := moved.position
    have first := agree p.cursor.position (Nat.le_refl _) (by omega)
    rw [stands.getElem?_current] at first
    have inside : p.cursor.position < tokens'.length := (List.getElem?_eq_some_iff.1 first).1
    obtain ⟨c, stands', position, noted⟩ :=
      TokenCursor.exists_inSequence present ends inside p.cursor.skippedTo
    exact ⟨{ p with cursor := c }, stands', ⟨position, noted, rfl, rfl⟩⟩
  · intro tokens tokens' last last' present present' ends ends' agree maxDepth
    obtain ⟨c, found⟩ := TokenCursor.ofTokens?_of_getLast? present ends
    obtain ⟨c', found'⟩ := TokenCursor.ofTokens?_of_getLast? present' ends'
    obtain ⟨stands, position, noted⟩ := TokenCursor.inSequence_of_ofTokens? found
    obtain ⟨stands', position', noted'⟩ := TokenCursor.inSequence_of_ofTokens? found'
    let p : ParseState := { cursor := c, maxDepth }
    let p' : ParseState := { cursor := c', maxDepth }
    have same : p.AtSamePlace p' :=
      ⟨position'.trans position.symm, noted'.trans noted.symm, rfl, rfl⟩
    obtain ⟨n, moved⟩ := Call.program.exists_onward rfl p
    have ended : (Call.program.run p).2.cursor.position = c.position + n := moved.position
    have bound : n ≤ c.ahead.length := moved.bound
    have first : tokens.findIdx (·.kind = .eof) = c.ahead.length := by
      obtain ⟨more, cut⟩ := stands.split
      rw [position, List.drop_zero] at cut
      rw [cut]
      exact TokenCursor.findIdx_eof stands.readable stands.ends
    have shown := Call.program.sameFrom rfl stands stands' same fun place _ le =>
      agree place (by rw [first]; omega)
    obtain ⟨errors, recorded, recorded'⟩ := shown.errors
    refine ⟨Parse.program (room maxDepth 0) c, Parse.program (room maxDepth 0) c',
      by rw [parse, found], by rw [parse, found'], shown.answer, recorded'.trans recorded.symm⟩

/-- The tokens of `) 1; print`, with some before them and some behind. -/
def strayParen (before behind : List Token) : List Token :=
  before ++ [⟨.rightParen, ")", .nil, 1⟩, ⟨.number, "1", .number .one, 1⟩,
    ⟨.semicolon, ";", .nil, 1⟩, ⟨.kwPrint, "print", .nil, 1⟩] ++ behind ++ [⟨.eof, "", .nil, 1⟩]

/-- One token further on, with three levels of seven open, the declaration at the parenthesis is
dropped up to `print`, whatever stands around these tokens. -/
theorem calls_look_one_token_ahead_strayParen :
    (∃ p', p'.cursor.InSequence (strayParen [⟨.minus, "-", .nil, 1⟩] [⟨.eof, "", .nil, 1⟩]) ∧
      p'.depth = 3 ∧ (Call.declaration.run p').1 = none ∧
      (Call.declaration.run p').2.cursor.position = 4) ∧
    ∃ d d', parse (strayParen [] []) = .ok d ∧
      parse (strayParen [] [⟨.eof, "", .nil, 1⟩, ⟨.star, "*", .nil, 1⟩]) = .ok d' ∧
      d'.statements = d.statements ∧ d'.errors = d.errors := by
  obtain ⟨anywhere, ended⟩ := calls_look_one_token_ahead
  let p : ParseState :=
    { cursor := ⟨1, ⟨.semicolon, ";", .nil, 1⟩, [⟨.rightParen, ")", .nil, 1⟩,
        ⟨.number, "1", .number .one, 1⟩, ⟨.semicolon, ";", .nil, 1⟩,
        ⟨.kwPrint, "print", .nil, 1⟩, ⟨.bang, "!", .nil, 1⟩], ⟨.eof, "", .nil, 1⟩, none⟩
      maxDepth := 7
      depth := 3 }
  have stands : p.cursor.InSequence
      (strayParen [⟨.semicolon, ";", .nil, 1⟩] [⟨.bang, "!", .nil, 1⟩]) := ⟨rfl, rfl, rfl⟩
  have place : (Call.declaration.run p).2.cursor.position = 4 := rfl
  obtain ⟨⟨p', stands', same⟩, alike⟩ := anywhere _
    (strayParen [⟨.minus, "-", .nil, 1⟩] [⟨.eof, "", .nil, 1⟩]) _ rfl rfl p stands _ .declaration rfl
    (by
      intro place after before
      obtain rfl | rfl | rfl | rfl : place = 1 ∨ place = 2 ∨ place = 3 ∨ place = 4 := by
        have first : 1 ≤ place := after
        omega
      all_goals rfl)
  have shown := alike p' stands' same
  refine ⟨⟨p', stands', same.depth, shown.answer, shown.place.position.trans place⟩, ?_⟩
  refine ended _ _ _ _ rfl rfl rfl rfl (fun place le => ?_) defaultMaxDepth
  have le : place ≤ 4 := le
  obtain rfl | rfl | rfl | rfl | rfl :
      place = 0 ∨ place = 1 ∨ place = 2 ∨ place = 3 ∨ place = 4 := by omega
  all_goals rfl

end LoxCheck
