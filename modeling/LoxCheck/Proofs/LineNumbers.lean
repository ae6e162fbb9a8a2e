import LoxCheck.Proofs.PlacedTokens

/-!
# Line numbers

The line of a character is one plus the number of line feeds before it. Tokens are on the line of
their first character, and unexpected characters on their own; what nothing closes is reported where
the source ends, as that is where it was found out. So lines never decrease, from one token to the
next and from one error to the next.
-/

namespace LoxCheck

/-! ## The lines of errors -/

/-- An error is on a line of its piece, the one that the piece starts on or the one that it ends
on. -/
theorem Piece.line_of_error? {line : Int} {piece : Piece} {error : LexicalError}
    (h : piece.error? line = some error) :
    line ≤ error.line ∧ error.line ≤ line + lineFeeds piece.text := by
  cases piece <;> simp only [Piece.error?, Option.some.injEq, reduceCtorEq] at h
  all_goals
    subst h
    simp only
    omega

/-- The lines of the errors never decrease. -/
theorem pairwise_line_errors (source : String) :
    (scan source).errors.Pairwise fun a b => a.line ≤ b.line := by
  apply (pairwise_numbered 1 (pieces source.toList)).filterMap
  intro p q le a ha b hb
  have first := Piece.line_of_error? ha
  have second := Piece.line_of_error? hb
  omega

theorem Piece.isSome_error? (line : Int) (piece : Piece) :
    (piece.error? line).isSome = piece.problem?.isSome := by
  cases piece <;> rfl

/-- The errors of a source are those of the pieces that something is wrong with, at their places. -/
theorem errors_of_places (cs : List Char) :
    List.Forall₂ (fun place error => place.piece.error? place.line = some error)
      ((places [] (pieces cs)).filter (·.piece.problem?.isSome)) (scanFrom 1 cs).errors := by
  have errors : (scanFrom 1 cs).errors =
      (places [] (pieces cs)).filterMap fun place => place.piece.error? place.line := by
    show (numbered (1 + lineFeeds []) (pieces cs)).filterMap _ = _
    rw [numbered_eq_places, List.filterMap_map]
    rfl
  rw [errors]
  exact forall₂_filterMap (fun place => place.piece.isSome_error? place.line) _

/-- What an error of a source says of a place: that a character is unexpected, on the line of that
character, or that a string or a comment goes on to the end of the source, on the line of the end. -/
inductive Place.ReportedBy (source : List Char) (place : Place) : LexicalError → Prop where
  | unexpected {c : Char} : place.before ++ c :: place.after = source →
    ReportedBy source place ⟨1 + lineFeeds place.before, .unexpected c⟩
  | unterminatedString {body : List Char} : place.before ++ '"' :: body = source →
    ReportedBy source place ⟨1 + lineFeeds source, .unterminatedString⟩
  | unterminatedComment {body : List Char} : place.before ++ '/' :: '*' :: body = source →
    ReportedBy source place ⟨1 + lineFeeds source, .unterminatedComment⟩

theorem Place.reportedBy {source : List Char} {place : Place} {error : LexicalError}
    (text : place.before ++ place.piece.text ++ place.after = source)
    (stands : place.piece.Stands place.after)
    (made : place.piece.error? place.line = some error) : place.ReportedBy source error := by
  obtain ⟨before, piece, after⟩ := place
  have text : before ++ piece.text ++ after = source := text
  -- the line where a piece ends is the last one if nothing follows
  have last : after = [] → before ++ piece.text = source ∧
      (1 + lineFeeds before : Int) + lineFeeds piece.text = 1 + lineFeeds source := by
    rintro rfl
    rw [List.append_nil] at text
    refine ⟨text, ?_⟩
    rw [← text, lineFeeds_append]
    omega
  cases piece <;> simp only [Piece.error?, Option.some.injEq, reduceCtorEq] at made
  case stray c =>
    subst made
    rw [List.append_assoc] at text
    exact .unexpected text
  case openString body =>
    obtain ⟨whole, line⟩ := last stands.2
    rw [← made]
    show ReportedBy source _ ⟨1 + lineFeeds before + _, _⟩
    rw [line]
    exact .unterminatedString whole
  case openComment body =>
    obtain ⟨whole, line⟩ := last stands.2
    rw [← made]
    show ReportedBy source _ ⟨1 + lineFeeds before + _, _⟩
    rw [line]
    exact .unterminatedComment whole

/-! ## Lines are exact -/

/-- Line numbers are exact. Reading piece by piece, with a cursor that counts the line feeds it reads,
comes to the tokens and errors of a scan. Each token is on the line of its first character, the one
for the end on the last line, each unexpected character on its own line, and what nothing closes is
reported on the last line; so the lines of the tokens and those of the errors never decrease. -/
theorem scan_lines (source : String) :
    ∃ ps body stop, Cut source.toList ps ∧ (∀ ps', Cut source.toList ps' → ps' = ps) ∧
      (∃ final, (ScanState.ofSource source).Completes final ∧ body = final.tokens ∧
        stop.line = final.cursor.line ∧ (scan source).errors = final.errors) ∧
      (scan source).tokens = body ++ [stop] ∧
      List.Forall₂ (fun place token =>
          place.before ++ token.lexeme.toList ++ place.after = source.toList ∧
          token.line = (1 + lineFeeds place.before : Int))
        ((places [] ps).filter (·.piece.isToken)) body ∧
      stop.kind = .eof ∧ stop.line = (1 + lineFeeds source.toList : Int) ∧
      List.Forall₂ (Place.ReportedBy source.toList)
        ((places [] ps).filter (·.piece.problem?.isSome)) (scan source).errors ∧
      ((scan source).tokens.Pairwise fun a b => a.line ≤ b.line) ∧
      ((scan source).errors.Pairwise fun a b => a.line ≤ b.line) := by
  have cut := cut_pieces source.toList
  have stand := cut.places []
  refine ⟨pieces source.toList, (scan source).body, (scan source).stop, cut, fun _ => cut_iff.1,
    ?_, rfl, ?_, rfl, rfl, ?_, pairwise_line_scan source, pairwise_line_errors source⟩
  · obtain ⟨final, completes, tokens, errors, last⟩ :=
      ScanState.exists_completes source.toList (ScanState.ofSource source) rfl
    exact ⟨final, completes, tokens.symm, last.symm, errors.symm⟩
  · -- a token is the text of its piece, and on the line of the place
    have placed := (List.forall₂_and_left _ _).2
      ⟨fun place listed => stand place (List.mem_of_mem_filter listed),
        tokens_of_places source.toList⟩
    refine placed.imp ?_
    rintro place token ⟨⟨text, -⟩, made⟩
    rw [Piece.lexeme_of_token? made]
    exact ⟨text, Piece.line_of_token? made⟩
  · have placed := (List.forall₂_and_left _ _).2
      ⟨fun place listed => stand place (List.mem_of_mem_filter listed),
        errors_of_places source.toList⟩
    refine placed.imp ?_
    rintro place error ⟨⟨text, stands⟩, made⟩
    exact Place.reportedBy text stands made

/-- A string over two lines is on the first of them, and a string that nothing closes is reported on
the last line of the source, not on its own. -/
example :
    (scan "\"a\nb\" /*\n*/ c\n@ \"\nd").tokens.map (·.line) = [1, 3, 5] ∧
      (scan "\"a\nb\" /*\n*/ c\n@ \"\nd").errors.map (·.line) = [4, 5] := by
  decide +kernel

end LoxCheck
