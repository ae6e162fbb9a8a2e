import LoxCheck.Proofs.ScanTheorems
import Mathlib.Logic.Relation

/-!
# Block comments are recognised exactly

Where a scan begins to read `/*` it reads the one comment that begins there, and nothing else; if
there is none it reads all that is left and reports it, on the last line of the source. The line is
right because the cursor counts the line feeds it has passed, from the start of the source.
-/

namespace LoxCheck

/-! ## Cursors in a source -/

namespace Cursor

/-- The characters before the cursor. -/
def passed (c : Cursor) : List Char := (c.held ++ c.before).reverse

/-- The cursor stands in a source, on the line of that place. -/
structure StandsIn (source : List Char) (c : Cursor) : Prop where
  split : c.passed ++ c.rest = source
  line : c.line = 1 + lineFeeds c.passed

variable {source : List Char} {c : Cursor}

theorem passed_skip {text after : List Char} (h : c.rest = text ++ after) :
    (c.skip text.length).passed = c.passed ++ text ∧ (c.skip text.length).rest = after := by
  rw [skip_append h]
  simp [passed]

/-- A cursor placed at an offset of a source, on the line of that place. -/
theorem standsIn_ofSource (source : List Char) (offset : Nat) :
    (ofSource source offset (1 + lineFeeds (source.take offset))).StandsIn source := by
  have passed : (ofSource source offset (1 + lineFeeds (source.take offset))).passed =
      source.take offset := List.reverse_reverse _
  refine ⟨?_, by rw [passed]; rfl⟩
  rw [passed]
  exact List.take_append_drop offset source

theorem StandsIn.mark (h : c.StandsIn source) : c.mark.StandsIn source := ⟨h.split, h.line⟩

theorem StandsIn.skip {text after : List Char} (h : c.StandsIn source)
    (cut : c.rest = text ++ after) : (c.skip text.length).StandsIn source := by
  obtain ⟨passed, rest⟩ := passed_skip cut
  refine ⟨?_, ?_⟩
  · rw [passed, rest, List.append_assoc, ← cut, h.split]
  · have line := h.line
    rw [passed, lineFeeds_append, skip_append cut]
    show c.line + lineFeeds text = _
    omega

end Cursor

namespace ScanState

/-- One turn of the loop of a scan. -/
def Turns (s t : ScanState) : Prop := s.cursor.atEnd = false ∧ s.mark.readPiece = (none, t)

/-- The loop of a scan passes through the second state from the first one on. -/
def Passes : ScanState → ScanState → Prop := Relation.ReflTransGen Turns

variable {source : List Char} {s t : ScanState}

theorem Turns.standsIn (h : s.Turns t) (stands : s.cursor.StandsIn source) :
    t.cursor.StandsIn source := by
  obtain ⟨more, read⟩ := h
  cases hc : s.cursor.rest with
  | nil => exact absurd more (by simp [Cursor.atEnd, hc])
  | cons c rest =>
    have cut : s.mark.cursor.rest = (Piece.next c rest).1.text ++ (Piece.next c rest).2 :=
      hc.trans (Piece.text_next c rest).symm
    have marked : s.mark.cursor.rest = c :: rest := hc
    rw [readPiece_eq marked rfl] at read
    obtain ⟨-, rfl⟩ := Prod.mk.inj read
    exact Cursor.StandsIn.skip stands.mark cut

/-- Wherever a scan has come to, the cursor stands in the source. -/
theorem Passes.standsIn (h : s.Passes t) (stands : s.cursor.StandsIn source) :
    t.cursor.StandsIn source := by
  induction h with
  | refl => exact stands
  | tail _ turn ih => exact turn.standsIn ih

end ScanState

/-! ## Comments -/

/-- A comment is `/*`, then items, then `*/`. -/
def Comment (text : List Char) : Prop := ∃ body, text = '/' :: '*' :: body ∧ CommentBody body

/-- No text begins with two comments. -/
theorem Comment.unique {first second after after' : List Char} (h : Comment first)
    (h' : Comment second) (same : first ++ after = second ++ after') :
    first = second ∧ after = after' := by
  obtain ⟨body, rfl, closes⟩ := h
  obtain ⟨body', rfl, closes'⟩ := h'
  have cut : body ++ after = body' ++ after' := by simpa using same
  -- the search for the closing finds the end of both
  have found : Piece.closeComment 0 [] (body ++ after) = some (body, after) :=
    Piece.closeComment_eq_some_iff.2 ⟨rfl, closes⟩
  have found' : Piece.closeComment 0 [] (body ++ after) = some (body', after') :=
    Piece.closeComment_eq_some_iff.2 ⟨cut, closes'⟩
  obtain ⟨rfl, rfl⟩ := Prod.mk.inj (Option.some.inj (found.symm.trans found'))
  exact ⟨rfl, rfl⟩

namespace ScanState

variable {s : ScanState} {text after tail : List Char}

/-- A comment is read to its end, and leaves nothing but the place. -/
theorem readPiece_of_comment (comment : Comment text) (h : s.cursor.rest = text ++ after) :
    s.readPiece = (none, s.skip text.length) := by
  obtain ⟨body, rfl, closes⟩ := comment
  have piece : Piece.next '/' ('*' :: (body ++ after)) = (.blockComment body, after) :=
    (Piece.next_of_slash _).trans (Piece.afterSlash_block closes after)
  have first : s.cursor.rest = '/' :: '*' :: (body ++ after) := h
  simp only [readPiece, first, piece, Piece.text]

/-- What is no comment is read to the end of the source. -/
theorem readPiece_of_no_comment (h : s.cursor.rest = '/' :: '*' :: tail)
    (none_closes : ∀ text after, s.cursor.rest = text ++ after → ¬Comment text) :
    s.readPiece = (none, (s.skip s.cursor.rest.length).addError .unterminatedComment
      (s.cursor.skip s.cursor.rest.length).line) := by
  have unclosed : ∀ inside more, tail = inside ++ more → ¬CommentBody inside := by
    rintro inside more rfl closes
    exact none_closes ('/' :: '*' :: inside) more h ⟨inside, rfl, closes⟩
  have piece : Piece.next '/' ('*' :: tail) = (.openComment tail, []) :=
    (Piece.next_of_slash _).trans (Piece.afterSlash_open unclosed)
  simp only [readPiece, h, piece, Piece.text]
  rfl

end ScanState

/-- Nested comments are recognised exactly. Wherever a scan has come to, its cursor stands in the
source. From any cursor that does and has `/*` before it: if a text that comes next is a comment, no
other is, and the step reads just that comment, with no token and no error; if none is, it reads all
that is left, with no token and one error, on the last line of the source. -/
theorem readPiece_of_slash_star (source : String) :
    (∀ s, (ScanState.ofSource source).Passes s → s.cursor.StandsIn source.toList) ∧
    ∀ (s : ScanState) (tail : List Char), s.cursor.StandsIn source.toList →
      s.cursor.rest = '/' :: '*' :: tail →
      (∀ text after, s.cursor.rest = text ++ after → Comment text →
        (∀ text' after', s.cursor.rest = text' ++ after' → Comment text' → text' = text) ∧
        ∃ c, s.readPiece = (none, { s with cursor := c }) ∧
          c.passed = s.cursor.passed ++ text ∧ c.rest = after) ∧
      ((∀ text after, s.cursor.rest = text ++ after → ¬Comment text) →
        ∃ c e, s.readPiece = (none, { s with cursor := c, errors := s.errors ++ [e] }) ∧
          c.passed = source.toList ∧ c.rest = [] ∧
          e = ⟨1 + lineFeeds source.toList, .unterminatedComment⟩ ∧
          e.problem.message = "Unterminated block comment.") := by
  refine ⟨fun s passes => passes.standsIn (Cursor.standsIn_ofSource source.toList 0), ?_⟩
  intro s tail stands opens
  constructor
  · intro text after cut comment
    obtain ⟨passed, rest⟩ := Cursor.passed_skip cut
    refine ⟨fun text' after' cut' comment' => ?_, s.cursor.skip text.length, ?_, passed, rest⟩
    · exact (comment'.unique comment (cut'.symm.trans cut)).1
    · exact ScanState.readPiece_of_comment comment cut
  · intro no_comment
    have whole : s.cursor.rest = s.cursor.rest ++ [] := (List.append_nil _).symm
    obtain ⟨passed, rest⟩ := Cursor.passed_skip whole
    have line := (stands.skip whole).line
    rw [passed, stands.split] at line
    refine ⟨s.cursor.skip s.cursor.rest.length, _, ?_, passed.trans stands.split, rest, rfl, rfl⟩
    rw [← line]
    exact ScanState.readPiece_of_no_comment opens no_comment

/-- In `/*/**/*/;` the comment ends before the semicolon. In `/*/` with a line feed behind it there
is no comment: the slash cannot belong to the opening and to the closing. -/
theorem readPiece_of_slash_star_overlapping :
    (∃ c, (ScanState.ofSource "/*/**/*/;").readPiece = (none, { cursor := c }) ∧
      c.passed = ['/', '*', '/', '*', '*', '/', '*', '/'] ∧ c.rest = [';']) ∧
    ∃ c e, (ScanState.ofSource "/*/\n").readPiece = (none, { cursor := c, errors := [e] }) ∧
      c.rest = [] ∧ e = ⟨2, .unterminatedComment⟩ := by
  have start : ∀ source : String,
      (ScanState.ofSource source).cursor.StandsIn source.toList :=
    fun source => Cursor.standsIn_ofSource source.toList 0
  have nested : Comment ['/', '*', '/', '*', '*', '/', '*', '/'] :=
    ⟨_, rfl, .nested .close .close⟩
  have unclosed : ∀ text after, ['/', '*', '/', '\n'] = text ++ after → ¬Comment text := by
    rintro _ after cut ⟨body, rfl, closes⟩
    have missing : Piece.closeComment 0 [] ['/', '\n'] = none := by decide
    exact Piece.closeComment_eq_none_iff.1 missing body after (by simpa using cut) closes
  constructor
  · obtain ⟨-, c, read, passed, rest⟩ :=
      ((readPiece_of_slash_star "/*/**/*/;").2 _ _ (start _) rfl).1 _ [';'] rfl nested
    exact ⟨c, read, passed, rest⟩
  · obtain ⟨c, e, read, -, rest, error, -⟩ :=
      ((readPiece_of_slash_star "/*/\n").2 _ _ (start _) rfl).2 unclosed
    exact ⟨c, e, read, rest, error⟩

end LoxCheck
