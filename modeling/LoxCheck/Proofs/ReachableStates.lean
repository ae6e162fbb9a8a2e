import LoxCheck.Grammar.ParseState
import LoxCheck.Proofs.ProgressTheorems
import Mathlib.Logic.Relation

/-!
# The states of a parse

A parse changes its state in few ways: it reads a token, records an error, opens or closes a level
of nesting, or notes where a skipped block ended. What each of these changes keeps holds of every
state that a parse can come to. In particular the cursor never leaves the tokens up to the first one
for the end of the source.
-/

namespace LoxCheck

namespace ParseState

/-! ## Changes -/

/-- Closes a level of nesting. -/
def leave (p : ParseState) : ParseState := { p with depth := p.depth - 1 }

/-- Notes the current position as the end of a skipped block. -/
def note (p : ParseState) : ParseState :=
  { p with cursor := { p.cursor with skippedTo := some p.cursor.position } }

/-- One change of a state. -/
inductive Changes (p : ParseState) : ParseState → Prop where
  | advance : Changes p p.advance.2
  | addError (token : Token) (problem : SyntaxProblem) : Changes p (p.addError token problem)
  | enter : Changes p p.enter.2
  | leave : 0 < p.depth → Changes p p.leave
  | note : Changes p p.note

/-- The states that can be reached by changes. -/
def Reaches : ParseState → ParseState → Prop := Relation.ReflTransGen Changes

/-! ## What changes keep -/

/-- The cursor has only moved on, the errors have only been added to, and the limit is the same. -/
structure Extends (p q : ParseState) : Prop where
  moved : ∃ n, p.cursor.Onward q.cursor n
  recorded : p.errors <+: q.errors
  limit : q.maxDepth = p.maxDepth

theorem Extends.refl (p : ParseState) : p.Extends p :=
  ⟨⟨0, .refl p.cursor⟩, List.prefix_refl p.errors, rfl⟩

theorem Extends.trans {p q r : ParseState} (h : p.Extends q) (h' : q.Extends r) : p.Extends r := by
  obtain ⟨m, first⟩ := h.moved
  obtain ⟨n, second⟩ := h'.moved
  exact ⟨⟨m + n, first.trans second⟩, h.recorded.trans h'.recorded, h'.limit.trans h.limit⟩

theorem onward_note (c : TokenCursor) : c.Onward { c with skippedTo := some c.position } 0 :=
  ⟨Nat.zero_le _, rfl, .inr ⟨c.position, rfl, Nat.le_refl _, Nat.le_refl _⟩⟩

/-- One change keeps what was read and recorded. -/
theorem Changes.extends {p q : ParseState} (h : p.Changes q) : p.Extends q := by
  cases h with
  | advance =>
    refine ⟨?_, List.prefix_refl p.errors, rfl⟩
    show ∃ n, p.cursor.Onward p.cursor.advance n
    cases hc : p.cursor.ahead with
    | nil => exact ⟨0, by rw [TokenCursor.advance_of_end hc]; exact .refl p.cursor⟩
    | cons token rest => exact ⟨1, Parse.onward_advance hc⟩
  | addError token problem => exact ⟨⟨0, .refl p.cursor⟩, List.prefix_append _ _, rfl⟩
  | enter =>
    unfold ParseState.enter
    split
    · exact ⟨⟨0, .refl p.cursor⟩, List.prefix_append _ _, rfl⟩
    · exact ⟨⟨0, .refl p.cursor⟩, List.prefix_refl p.errors, rfl⟩
  | leave => exact ⟨⟨0, .refl p.cursor⟩, List.prefix_refl p.errors, rfl⟩
  | note => exact ⟨⟨0, onward_note p.cursor⟩, List.prefix_refl p.errors, rfl⟩

/-- Whatever changes led to a state, it extends the first one. -/
theorem Reaches.extends {p q : ParseState} (h : p.Reaches q) : p.Extends q := by
  induction h with
  | refl => exact .refl p
  | tail _ change ih => exact ih.trans change.extends

/-! ## Steps are made of changes -/

theorem reaches_skip (n : Nat) (p : ParseState) :
    p.Reaches { p with cursor := p.cursor.skip n } := by
  induction n generalizing p with
  | zero => exact .refl
  | succ n ih => exact .head .advance (ih p.advance.2)

/-- A cursor further on is reached by reading, with a note on the way if a block was skipped. -/
theorem reaches_onward {p : ParseState} {c : TokenCursor} {n : Nat} (h : p.cursor.Onward c n) :
    p.Reaches { p with cursor := c } := by
  rcases h.skipped with same | ⟨place, noted, after, before⟩
  · have plain : c = p.cursor.skip n := by
      rw [h.moved, same, ← TokenCursor.skippedTo_skip n p.cursor]
    rw [plain]
    exact reaches_skip n p
  · have total := h.position
    have inside := h.bound
    -- the note is taken where the block ended
    obtain ⟨m, rfl⟩ := Nat.exists_eq_add_of_le after
    have first := reaches_skip m p
    have second := reaches_skip (n - m) (note { p with cursor := p.cursor.skip m })
    have place : (p.cursor.skip m).position = p.cursor.position + m :=
      TokenCursor.position_skip (by omega)
    have whole : (note { p with cursor := p.cursor.skip m }).cursor.skip (n - m) = c := by
      show { p.cursor.skip m with skippedTo := some (p.cursor.skip m).position }.skip (n - m) = c
      rw [TokenCursor.skip_note, TokenCursor.skip_skip, place, Nat.add_sub_cancel' (by omega),
        h.moved, noted]
    rw [whole] at second
    exact first.trans (.head .note second)

/-- Every syntax error is one at some token. -/
theorem exists_at (e : SyntaxError) : ∃ token, SyntaxError.at e.problem token = e := by
  obtain ⟨line, problem, lexeme⟩ := e
  cases lexeme with
  | none => exact ⟨⟨.eof, "", .nil, line⟩, rfl⟩
  | some lexeme => exact ⟨⟨.identifier, lexeme, .nil, line⟩, rfl⟩

theorem reaches_errors (errors : List SyntaxError) (p : ParseState) :
    p.Reaches { p with errors := p.errors ++ errors } := by
  induction errors generalizing p with
  | nil =>
    rw [List.append_nil]
    exact .refl
  | cons e errors ih =>
    obtain ⟨token, ht⟩ := exists_at e
    have others := ih (p.addError token e.problem)
    have all : (p.addError token e.problem).errors ++ errors = p.errors ++ e :: errors := by
      rw [addError, ht, List.append_assoc]
      rfl
    rw [all] at others
    exact .head (.addError token e.problem) others

/-- Whatever moves on and records errors is made of changes. -/
theorem reaches_of_onward {p : ParseState} {c : TokenCursor} {n : Nat} (h : p.cursor.Onward c n)
    (errors : List SyntaxError) : p.Reaches { p with cursor := c, errors := p.errors ++ errors } :=
  (reaches_onward h).trans (reaches_errors errors _)

theorem reaches_run {α : Type} {step : Parse α} (h : step.Moves) (p : ParseState) :
    p.Reaches (p.run step).2 := by
  obtain ⟨n, moved⟩ := h p.cursor
  exact reaches_of_onward moved _

theorem reaches_program (p : ParseState) : p.Reaches p.program.2 := by
  have moves : Parse.Moves (Parse.declaration p.room) :=
    Parse.moves_closed.declaration (Nat.le_refl p.room)
  obtain ⟨n, moved⟩ := moves.declarations [] p.cursor.ahead p.cursor
  exact reaches_of_onward moved _

end ParseState

/-! ## Places in the sequence -/

namespace TokenCursor

section

variable {ahead more : List Token} {stop last : Token} {c : TokenCursor} {n : Nat}

/-- The cursor stands at the token with its position. -/
theorem getElem?_current (h : (start ahead stop last).Onward c n) :
    (ahead ++ stop :: more)[c.position]? = some c.current := by
  have place : c.position = n := by
    rw [h.position]
    exact Nat.zero_add n
  rw [place, h.current]
  exact getElem?_tokenAt h.bound

/-- The token read last is the one before that; at the start it is the last one of all. -/
theorem getElem?_previous (present : (ahead ++ stop :: more).getLast? = some last)
    (h : (start ahead stop last).Onward c n) :
    (if c.position = 0 then (ahead ++ stop :: more).getLast?
      else (ahead ++ stop :: more)[c.position - 1]?) = some c.previous := by
  have place : c.position = n := by
    rw [h.position]
    exact Nat.zero_add n
  have previous : c.previous = ((start ahead stop last).skip n).previous := by rw [h.moved]
  rw [place, previous]
  cases n with
  | zero => exact present
  | succ m =>
    have inside : m < ahead.length := h.bound
    rw [if_neg (Nat.succ_ne_zero m), Nat.add_sub_cancel, List.getElem?_append_left inside,
      List.getElem?_eq_getElem inside, previous_skip h.bound]
    rfl

/-- The first end of the source is behind what can be read. -/
theorem findIdx_eof (readable : ∀ token ∈ ahead, token.kind ≠ .eof) (ends : stop.kind = .eof) :
    (ahead ++ stop :: more).findIdx (·.kind = .eof) = ahead.length := by
  have skipped : ahead.findIdx (·.kind = .eof) = ahead.length := by
    apply List.findIdx_eq_length.2
    simpa using readable
  rw [List.findIdx_append, skipped, if_neg (Nat.lt_irrefl _), List.findIdx_cons]
  simp [ends]

end

end TokenCursor

end LoxCheck
