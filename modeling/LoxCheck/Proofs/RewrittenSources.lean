import LoxCheck.Proofs.ScanTheorems

/-!
# Sources rewritten piece by piece

A source is scanned by its pieces, so that a change of it can be followed from one piece to the next.
Two facts make this work: what follows a token may be replaced where only blanks come to stand in
other places, and lists of pieces that read alike can be put together.
-/

namespace LoxCheck

/-! ## What follows a token -/

/-- A text that begins as another one does, or with a blank; behind a point it goes on as the other
one does, or with a blank. -/
structure Softer (after after' : List Char) : Prop where
  head : ∀ c ∈ after'.head?, c ∈ after.head? ∨ Piece.isBlank c = true
  second : ∀ d tail, after' = '.' :: d :: tail →
    Piece.isBlank d = true ∨ ∃ rest, after = '.' :: d :: rest

theorem Softer.head?_ne {after after' : List Char} (h : Softer after after') {c : Char}
    (other : Piece.isBlank c = false) (absent : after.head? ≠ some c) : after'.head? ≠ some c := by
  intro head
  rcases h.head c head with before | blank
  · exact absent before
  · exact absurd blank (by simp [other])

/-- No token goes on with a blank, so that it ends before a softer text as well. -/
theorem Piece.Stands.of_softer {piece : Piece} {after after' : List Char}
    (h : piece.Stands after) (token : piece.isToken = true) (softer : Softer after after') :
    piece.Stands after' := by
  cases piece with
  | symbol kind =>
    obtain ⟨listed, grows, comments⟩ := h
    refine ⟨listed, fun short => ?_, fun slash => ⟨?_, ?_⟩⟩
    · exact softer.head?_ne (by decide) (grows short)
    · exact softer.head?_ne (by decide) (comments slash).1
    · exact softer.head?_ne (by decide) (comments slash).2
  | word text =>
    refine ⟨h.1, fun c hc => ?_⟩
    rcases softer.head c hc with before | blank
    · exact h.2 c before
    · have apart := apart_of_isBlank blank
      rw [isWordChar, apart.1, apart.2, Bool.or_false]
  | number whole fraction =>
    obtain ⟨nonempty, digits, decimals, ends, no_fraction⟩ := h
    refine ⟨nonempty, digits, decimals, fun c hc => ?_, fun empty d tail point => ?_⟩
    · rcases softer.head c hc with before | blank
      · exact ends c before
      · exact (apart_of_isBlank blank).1
    · rcases softer.second d tail point with blank | ⟨rest, before⟩
      · exact (apart_of_isBlank blank).1
      · exact no_fraction empty d rest before
  | string content => exact h
  | _ => exact absurd token (by simp [isToken])

/-! ## Pieces that read alike -/

/-- The tokens of some pieces, the first of which starts on a line. -/
def tokensOn (line : Int) (ps : List Piece) : List Token :=
  (numbered line ps).filterMap fun p => p.2.token? p.1

/-- The errors of some pieces, the first of which starts on a line. -/
def errorsOn (line : Int) (ps : List Piece) : List LexicalError :=
  (numbered line ps).filterMap fun p => p.2.error? p.1

theorem tokensOn_append (line : Int) (ps others : List Piece) :
    tokensOn line (ps ++ others) =
      tokensOn line ps ++ tokensOn (line + lineFeeds (ps.flatMap Piece.text)) others := by
  rw [tokensOn, numbered_append, List.filterMap_append]
  rfl

theorem errorsOn_append (line : Int) (ps others : List Piece) :
    errorsOn line (ps ++ others) =
      errorsOn line ps ++ errorsOn (line + lineFeeds (ps.flatMap Piece.text)) others := by
  rw [errorsOn, numbered_append, List.filterMap_append]
  rfl

/-- Wherever they start, the second pieces read as the first ones do, except that the tokens are
changed by a function and only the errors of some kind are kept. They take up as many lines. -/
structure ReadsAs (change : Token → Token) (keeps : LexicalError → Bool) (ps ps' : List Piece) :
    Prop where
  tokens : ∀ line, tokensOn line ps' = (tokensOn line ps).map change
  errors : ∀ line, errorsOn line ps' = (errorsOn line ps).filter keeps
  feeds : lineFeeds (ps'.flatMap Piece.text) = lineFeeds (ps.flatMap Piece.text)

namespace ReadsAs

variable {change : Token → Token} {keeps : LexicalError → Bool} {ps ps' others others' : List Piece}

theorem nil : ReadsAs change keeps [] [] := ⟨fun _ => rfl, fun _ => rfl, rfl⟩

/-- What comes behind pieces that read alike starts on the same line. -/
theorem append (h : ReadsAs change keeps ps ps') (h' : ReadsAs change keeps others others') :
    ReadsAs change keeps (ps ++ others) (ps' ++ others') where
  tokens line := by
    rw [tokensOn_append, tokensOn_append, h.tokens, h.feeds, h'.tokens, List.map_append]
  errors line := by
    rw [errorsOn_append, errorsOn_append, h.errors, h.feeds, h'.errors, List.filter_append]
  feeds := by
    simp only [List.flatMap_append, lineFeeds_append, h.feeds, h'.feeds]

theorem flatMap {rewrite : Piece → List Piece}
    (h : ∀ piece, ReadsAs change keeps [piece] (rewrite piece)) (ps : List Piece) :
    ReadsAs change keeps ps (ps.flatMap rewrite) := by
  induction ps with
  | nil => exact nil
  | cons piece rest ih => exact (h piece).append ih

/-- A text whose cut reads as the pieces of another text is scanned as that one is. -/
theorem scan {source source' : List Char} (h : ReadsAs change keeps (pieces source) ps')
    (cut : Cut source' ps') (ended : ∀ line, change (.endOfSource line) = .endOfSource line) :
    (LoxCheck.scan (String.ofList source')).tokens =
        (LoxCheck.scan (String.ofList source)).tokens.map change ∧
      (LoxCheck.scan (String.ofList source')).errors =
        (LoxCheck.scan (String.ofList source)).errors.filter keeps := by
  have lines := h.feeds
  rw [cut.flatMap_text, flatMap_text_pieces] at lines
  obtain rfl := cut_iff.1 cut
  simp only [LoxCheck.scan, String.toList_ofList]
  refine ⟨?_, h.errors 1⟩
  show tokensOn 1 (pieces source') ++ [_] = (tokensOn 1 (pieces source) ++ [_]).map change
  rw [h.tokens, List.map_append, List.map_singleton]
  simp only [scanFrom, ended, lines]

end ReadsAs

end LoxCheck
