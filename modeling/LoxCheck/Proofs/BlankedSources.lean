import LoxCheck.Proofs.RewrittenSources
import Mathlib.Data.List.Forall2

/-!
# Comments and unexpected characters act like spaces

A comment or an unexpected character may be written over with spaces, all but its line feeds: no
token goes on with a space any more than with what stood there, and what is in strings or left open
is not written over. So a source is scanned to the same tokens on the same lines, and only the
reports of unexpected characters are gone.
-/

namespace LoxCheck

/-! ## Writing over -/

/-- A space in place of a character, unless that is a line feed. -/
def spaceFor (c : Char) : Char := if c = '\n' then '\n' else ' '

theorem isBlank_spaceFor (c : Char) : Piece.isBlank (spaceFor c) = true := by
  unfold spaceFor
  split <;> rfl

theorem spaceFor_cases (c : Char) : spaceFor c = c ∨ spaceFor c = ' ' := by
  unfold spaceFor
  split
  · next lineFeed => exact .inl lineFeed.symm
  · exact .inr rfl

theorem lineFeeds_map_spaceFor (text : List Char) :
    lineFeeds (text.map spaceFor) = lineFeeds text := by
  have same : (· == '\n') ∘ spaceFor = (· == '\n') := by
    funext c
    unfold Function.comp spaceFor
    split
    · next lineFeed => rw [lineFeed]
    · next other => simp [other]
  rw [lineFeeds, lineFeeds, List.count_eq_countP, List.countP_map, same, List.count_eq_countP]

namespace Piece

/-- The pieces that are written over: closed comments and unexpected characters. -/
def isOverwritten : Piece → Bool
  | .lineComment _ | .blockComment _ | .stray _ => true
  | _ => false

/-- What is written in place of a piece. -/
def blanked (piece : Piece) : List Char :=
  if piece.isOverwritten then piece.text.map spaceFor else piece.text

/-- The pieces that are cut off what is written in place of a piece. -/
def blankedPieces (piece : Piece) : List Piece :=
  if piece.isOverwritten then (piece.text.map spaceFor).map .blank else [piece]

theorem flatMap_text_blanks (text : List Char) : (text.map Piece.blank).flatMap Piece.text = text := by
  rw [List.flatMap_map]
  exact List.flatMap_singleton' text

theorem flatMap_text_blankedPieces (piece : Piece) :
    piece.blankedPieces.flatMap Piece.text = piece.blanked := by
  unfold blankedPieces blanked
  split
  · exact flatMap_text_blanks _
  · rw [List.flatMap_singleton]

/-- In place of each character there is the character itself or a space. -/
theorem forall₂_blanked (piece : Piece) :
    List.Forall₂ (fun c c' => c' = c ∨ c' = ' ') piece.text piece.blanked := by
  unfold blanked
  split
  · rw [List.forall₂_map_right_iff, List.forall₂_same]
    exact fun c _ => spaceFor_cases c
  · exact List.forall₂_same.2 fun c _ => .inl rfl

/-! ## Nothing else is cut in another way -/

theorem softer_of_forall₂ {after after' : List Char}
    (h : List.Forall₂ (fun c c' => c' = c ∨ c' = ' ') after after') : Softer after after' := by
  have space : isBlank ' ' = true := rfl
  constructor
  · intro c hc
    cases h with
    | nil => exact absurd hc (by simp)
    | cons first _ =>
      obtain rfl := Option.some.inj hc
      rcases first with rfl | rfl
      · exact .inl rfl
      · exact .inr space
  · rintro d tail rfl
    cases h with
    | @cons point _ rest _ first others =>
      obtain rfl : '.' = point := first.resolve_right (by decide)
      cases others with
      | cons second _ =>
        rcases second with rfl | rfl
        · exact .inr ⟨_, rfl⟩
        · exact .inl space

/-- A piece that is not written over stands where other pieces are. -/
theorem Stands.of_forall₂ {piece : Piece} {after after' : List Char} (h : piece.Stands after)
    (kept : piece.isOverwritten = false)
    (softened : List.Forall₂ (fun c c' => c' = c ∨ c' = ' ') after after') : piece.Stands after' := by
  have softer := softer_of_forall₂ softened
  cases piece with
  | symbol | word | number | string => exact h.of_softer rfl softer
  | blank c => exact h
  | openString body | openComment body =>
    -- nothing follows, and nothing is written there
    obtain ⟨unclosed, rfl⟩ := h
    cases softened
    exact ⟨unclosed, rfl⟩
  | _ => exact absurd kept (by simp [isOverwritten])

end Piece

/-- Blanks are cut off one by one. -/
theorem Cut.blanks {text after : List Char} {others : List Piece}
    (blank : ∀ c ∈ text, Piece.isBlank c = true) (h : Cut after others) :
    Cut (text ++ after) (text.map .blank ++ others) := by
  induction text with
  | nil => exact h
  | cons c rest ih =>
    obtain ⟨first, rest_blank⟩ := List.forall_mem_cons.1 blank
    have stands : (Piece.blank c).Stands (rest ++ after) := by
      simpa [Piece.Stands, Piece.isBlank, or_assoc] using first
    have nonempty : (Piece.blank c).text ≠ [] := List.cons_ne_nil c []
    exact .cons nonempty stands (ih rest_blank)

theorem forall₂_flatMap_blanked (ps : List Piece) :
    List.Forall₂ (fun c c' => c' = c ∨ c' = ' ') (ps.flatMap Piece.text)
      (ps.flatMap Piece.blanked) := by
  induction ps with
  | nil => exact .nil
  | cons piece rest ih => exact List.rel_append piece.forall₂_blanked ih

/-- What is written over is cut into blanks, and everything else as before. -/
theorem Cut.blanked {cs : List Char} {ps : List Piece} (h : Cut cs ps) :
    Cut (ps.flatMap Piece.blanked) (ps.flatMap Piece.blankedPieces) := by
  induction h with
  | nil => exact .nil
  | @cons piece after others nonempty stands cut ih =>
    rw [List.flatMap_cons, List.flatMap_cons]
    cases written : piece.isOverwritten with
    | true =>
      have blank : ∀ c ∈ piece.text.map spaceFor, Piece.isBlank c = true := by
        simpa using fun c _ => isBlank_spaceFor c
      rw [Piece.blanked, Piece.blankedPieces, written]
      exact .blanks blank ih
    | false =>
      have follows := forall₂_flatMap_blanked others
      rw [cut.flatMap_text] at follows
      rw [Piece.blanked, Piece.blankedPieces, written]
      exact .cons nonempty (stands.of_forall₂ written follows) ih

/-! ## What the pieces read as -/

/-- Whether a problem is an unexpected character. -/
def LexicalProblem.isUnexpected : LexicalProblem → Bool
  | .unexpected _ => true
  | _ => false

theorem tokensOn_blanks (line : Int) (text : List Char) :
    tokensOn line (text.map .blank) = [] := by
  induction text generalizing line with
  | nil => rfl
  | cons c rest ih => exact ih _

theorem errorsOn_blanks (line : Int) (text : List Char) :
    errorsOn line (text.map .blank) = [] := by
  induction text generalizing line with
  | nil => rfl
  | cons c rest ih => exact ih _

theorem Piece.readsAs_blankedPieces (piece : Piece) :
    ReadsAs id (fun e => !e.problem.isUnexpected) [piece] piece.blankedPieces where
  tokens line := by
    unfold blankedPieces
    split
    · next written =>
      rw [tokensOn_blanks]
      cases piece with
      | lineComment | blockComment | stray => rfl
      | _ => exact absurd written (by simp [isOverwritten])
    · exact (List.map_id _).symm
  errors line := by
    unfold blankedPieces
    split
    · next written =>
      rw [errorsOn_blanks]
      cases piece with
      | lineComment | blockComment | stray => rfl
      | _ => exact absurd written (by simp [isOverwritten])
    · next kept =>
      cases piece with
      | lineComment | blockComment | stray => exact absurd rfl kept
      | _ => rfl
  feeds := by
    rw [flatMap_text_blankedPieces, List.flatMap_singleton, blanked]
    split
    · exact lineFeeds_map_spaceFor _
    · rfl

/-- Comments and unexpected characters act like spaces. If in a source every unexpected character and
every closed comment, all but the line feeds in it, is written over with spaces, the scan comes to
the same tokens, and to the same errors without those of unexpected characters. -/
theorem scan_blanked (source : String) :
    ∃ ps, Cut source.toList ps ∧ (∀ ps', Cut source.toList ps' → ps' = ps) ∧
      (scan source).errors.map (·.problem) = ps.filterMap Piece.problem? ∧
      (scan (String.ofList (ps.flatMap Piece.blanked))).tokens = (scan source).tokens ∧
      (scan (String.ofList (ps.flatMap Piece.blanked))).errors =
        (scan source).errors.filter fun e => !e.problem.isUnexpected := by
  have cut := cut_pieces source.toList
  have reads := ReadsAs.flatMap Piece.readsAs_blankedPieces (pieces source.toList)
  obtain ⟨tokens, errors⟩ := reads.scan cut.blanked fun _ => rfl
  rw [String.ofList_toList, List.map_id] at tokens
  rw [String.ofList_toList] at errors
  exact ⟨_, cut, fun _ => cut_iff.1, problems_of_numbered _ _, tokens, errors⟩

/-- In `!/**/=é1.` with a block comment behind it the operator does not grow, the number gets no
fraction, and the line feed in the comment stays. -/
example :
    (pieces "!/**/=é1./*\n*/5".toList).flatMap Piece.blanked = "!    = 1.  \n  5".toList := by
  decide +kernel

end LoxCheck
