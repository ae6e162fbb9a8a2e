import LoxCheck.Proofs.RewrittenSources

/-!
# Scanning at line feeds

A line feed parts a source text. No piece goes on behind it but a string or a comment that it stands
in, so where the text before it leaves neither of them open, the scan of the whole is the scan of
the one part followed by the scan of the other, with the lines counted on.
-/

namespace LoxCheck

/-! ## Pieces before a line feed -/

namespace Piece

/-- A piece that is no string and no comment left open. -/
def Closed (piece : Piece) : Prop :=
  piece.problem? ≠ some .unterminatedString ∧ piece.problem? ≠ some .unterminatedComment

theorem mem_head?_append_lineFeed {after more : List Char} {c : Char}
    (h : c ∈ (after ++ '\n' :: more).head?) : c ∈ after.head? ∨ c = '\n' := by
  cases after with
  | nil => exact .inr (Option.some.inj h).symm
  | cons d rest => exact .inl h

/-- Two characters are behind a piece already, or the second one is the line feed. -/
theorem second_of_append_lineFeed {after more tail : List Char} {c d : Char} (other : c ≠ '\n')
    (h : after ++ '\n' :: more = c :: d :: tail) : d = '\n' ∨ ∃ rest, after = c :: d :: rest := by
  cases after with
  | nil => exact absurd (List.cons.inj h).1.symm other
  | cons first rest =>
    obtain ⟨rfl, tail_eq⟩ := List.cons.inj h
    cases rest with
    | nil => exact .inl (List.cons.inj tail_eq).1.symm
    | cons second rest =>
      obtain ⟨rfl, -⟩ := List.cons.inj tail_eq
      exact .inr ⟨rest, rfl⟩

/-- Behind what follows a piece, the line feed is the only character that is new at its place. -/
theorem softer_append_lineFeed (after more : List Char) : Softer after (after ++ '\n' :: more) := by
  have blank : isBlank '\n' = true := rfl
  constructor
  · intro c hc
    rcases mem_head?_append_lineFeed hc with before | rfl
    · exact .inl before
    · exact .inr blank
  · intro d tail point
    rcases second_of_append_lineFeed (by decide) point with rfl | before
    · exact .inl blank
    · exact .inr before

/-- A closed piece that cannot go on into the text after it cannot go on if a line feed and more
text are put behind that. -/
theorem Stands.append_lineFeed {piece : Piece} {after : List Char} (h : piece.Stands after)
    (closed : piece.Closed) (more : List Char) : piece.Stands (after ++ '\n' :: more) := by
  cases piece with
  | symbol | word | number | string => exact h.of_softer rfl (softer_append_lineFeed after more)
  | blank | blockComment | stray => exact h
  | lineComment body =>
    refine ⟨h.1, fun c hc => ?_⟩
    rcases mem_head?_append_lineFeed hc with before | newline
    · exact h.2 c before
    · exact newline
  | openString body => exact absurd rfl closed.1
  | openComment body => exact absurd rfl closed.2

end Piece

/-- Two texts that are cut, with a line feed between them, are cut into the same pieces. -/
theorem Cut.append_lineFeed {cs more : List Char} {ps others : List Piece} (h : Cut cs ps)
    (closed : ∀ piece ∈ ps, piece.Closed) (h' : Cut ('\n' :: more) others) :
    Cut (cs ++ '\n' :: more) (ps ++ others) := by
  induction h with
  | nil => exact h'
  | @cons piece after rest nonempty stands _ ih =>
    rw [List.forall_mem_cons] at closed
    rw [List.append_assoc]
    exact .cons nonempty (stands.append_lineFeed closed.1 more) (ih closed.2)

theorem pieces_append_lineFeed {first : List Char} (closed : ∀ piece ∈ pieces first, piece.Closed)
    (second : List Char) :
    pieces (first ++ '\n' :: second) = pieces first ++ .blank '\n' :: pieces second := by
  have lineFeed : (Piece.blank '\n').Stands second := by simp [Piece.Stands]
  have nonempty : (Piece.blank '\n').text ≠ [] := List.cons_ne_nil _ _
  have tail : Cut ('\n' :: second) (.blank '\n' :: pieces second) :=
    .cons nonempty lineFeed (cut_pieces second)
  exact (cut_iff.1 ((cut_pieces first).append_lineFeed closed tail)).symm

/-! ## Counting on -/

/-- The token, some lines further down. -/
def Token.moveDown (lines : Nat) (token : Token) : Token :=
  { token with line := token.line + lines }

/-- The error, some lines further down. -/
def LexicalError.moveDown (lines : Nat) (error : LexicalError) : LexicalError :=
  { error with line := error.line + lines }

theorem Piece.token?_add (line : Int) (lines : Nat) (piece : Piece) :
    piece.token? (line + lines) = (piece.token? line).map (·.moveDown lines) := by
  cases piece <;> rfl

theorem Piece.error?_add (line : Int) (lines : Nat) (piece : Piece) :
    piece.error? (line + lines) = (piece.error? line).map (·.moveDown lines) := by
  cases piece with
  | openString body | openComment body =>
    simp only [error?, Option.map_some, LexicalError.moveDown, Option.some.injEq,
      LexicalError.mk.injEq, and_true]
    omega
  | _ => rfl

theorem numbered_add (line : Int) (lines : Nat) (ps : List Piece) :
    numbered (line + lines) ps = (numbered line ps).map fun p => (p.1 + (lines : Int), p.2) := by
  induction ps generalizing line with
  | nil => rfl
  | cons piece rest ih =>
    have swap : line + lines + lineFeeds piece.text = line + lineFeeds piece.text + lines := by
      omega
    rw [numbered, numbered, List.map_cons, swap, ih]

/-- A text that starts some lines further down is scanned to the same tokens and errors there. -/
theorem scanFrom_add (line : Int) (lines : Nat) (cs : List Char) :
    (scanFrom (line + lines) cs).tokens =
        (scanFrom line cs).tokens.map (·.moveDown lines) ∧
      (scanFrom (line + lines) cs).errors =
        (scanFrom line cs).errors.map (·.moveDown lines) := by
  simp only [scanFrom, Scan.tokens, numbered_add, List.map_append, List.map_filterMap,
    List.filterMap_map]
  refine ⟨congrArg₂ (· ++ ·) ?_ ?_, ?_⟩
  · exact List.filterMap_congr fun p _ => Piece.token?_add p.1 lines p.2
  · have swap : line + lines + lineFeeds cs = line + lineFeeds cs + lines := by omega
    rw [swap]
    rfl
  · exact List.filterMap_congr fun p _ => Piece.error?_add p.1 lines p.2

/-! ## Two texts -/

/-- Where no error says that something is left open, nothing is. -/
theorem closed_of_errors {cs : List Char} {line : Int}
    (h : ∀ e ∈ (scanFrom line cs).errors,
      e.problem ≠ .unterminatedString ∧ e.problem ≠ .unterminatedComment) :
    ∀ piece ∈ pieces cs, piece.Closed := by
  have reported : ∀ piece ∈ pieces cs, ∀ problem, piece.problem? = some problem →
      ∃ e ∈ (scanFrom line cs).errors, e.problem = problem := by
    intro piece listed problem found
    have mem : problem ∈ (pieces cs).filterMap Piece.problem? :=
      List.mem_filterMap.2 ⟨piece, listed, found⟩
    rw [← problems_of_numbered line] at mem
    exact List.mem_map.1 mem
  intro piece listed
  refine ⟨fun found => ?_, fun found => ?_⟩
  · obtain ⟨e, he, problem⟩ := reported piece listed _ found
    exact (h e he).1 problem
  · obtain ⟨e, he, problem⟩ := reported piece listed _ found
    exact (h e he).2 problem

theorem scanFrom_append_lineFeed {first : List Char} (closed : ∀ piece ∈ pieces first, piece.Closed)
    (line : Int) (second : List Char) :
    (scanFrom line (first ++ '\n' :: second)).tokens =
        (scanFrom line first).body ++
          (scanFrom (line + (lineFeeds first + 1 : Nat)) second).tokens ∧
      (scanFrom line (first ++ '\n' :: second)).errors =
        (scanFrom line first).errors ++
          (scanFrom (line + (lineFeeds first + 1 : Nat)) second).errors := by
  have behind : line + lineFeeds first + lineFeeds (Piece.blank '\n').text =
      line + (lineFeeds first + 1 : Nat) := by
    show line + lineFeeds first + (1 : Nat) = _
    omega
  -- the line feed itself is neither a token nor an error
  have cut : numbered line (pieces (first ++ '\n' :: second)) =
      numbered line (pieces first) ++ (line + lineFeeds first, .blank '\n') ::
        numbered (line + (lineFeeds first + 1 : Nat)) (pieces second) := by
    rw [pieces_append_lineFeed closed, numbered_append, flatMap_text_pieces, numbered, behind]
  have total : line + lineFeeds (first ++ '\n' :: second) =
      line + (lineFeeds first + 1 : Nat) + lineFeeds second := by
    have count : lineFeeds ('\n' :: second) = lineFeeds second + 1 := List.count_cons_self
    rw [lineFeeds_append, count]
    omega
  constructor
  · simp only [scanFrom, Scan.tokens, cut, total, List.filterMap_append, List.append_assoc]
    rfl
  · simp only [scanFrom, cut, List.filterMap_append]
    rfl

/-- Scanning is compositional at line feeds. Where scanning the first of two texts reports neither a
string nor a comment without an end, the two with a line feed between them are scanned to the tokens
of the first without its end and those of the second, and to the errors of the first and those of
the second, all of the second further down by the lines of the first. -/
theorem scan_append_lineFeed {first : String}
    (closed : ∀ e ∈ (scan first).errors,
      e.problem ≠ .unterminatedString ∧ e.problem ≠ .unterminatedComment) (second : String) :
    (scan (first ++ "\n" ++ second)).tokens =
        (scan first).tokens.dropLast ++
          (scan second).tokens.map (·.moveDown (lineFeeds first.toList + 1)) ∧
      (scan (first ++ "\n" ++ second)).errors =
        (scan first).errors ++
          (scan second).errors.map (·.moveDown (lineFeeds first.toList + 1)) := by
  have characters : (first ++ "\n" ++ second).toList = first.toList ++ '\n' :: second.toList := by
    simp
  have body : (scan first).tokens.dropLast = (scan first).body := List.dropLast_concat
  obtain ⟨tokens, errors⟩ :=
    scanFrom_append_lineFeed (closed_of_errors closed) 1 second.toList
  obtain ⟨moved_tokens, moved_errors⟩ := scanFrom_add 1 (lineFeeds first.toList + 1) second.toList
  rw [body]
  simp only [scan, characters, tokens, errors, moved_tokens, moved_errors, true_and]

/-- A point at the end of a line is no part of a number, even if the next line begins with a
digit. -/
theorem scan_append_lineFeed_point :
    (∀ e ∈ (scan "1.").errors,
        e.problem ≠ .unterminatedString ∧ e.problem ≠ .unterminatedComment) ∧
      (scan ("1." ++ "\n" ++ "5 @")).tokens.map (fun token => (token.lexeme, token.line)) =
        [("1", 1), (".", 1), ("5", 2), ("", 2)] ∧
      (scan ("1." ++ "\n" ++ "5 @")).errors = [⟨2, .unexpected '@'⟩] := by
  have closed : ∀ e ∈ (scan "1.").errors,
      e.problem ≠ .unterminatedString ∧ e.problem ≠ .unterminatedComment := by
    decide +kernel
  obtain ⟨tokens, errors⟩ := scan_append_lineFeed closed "5 @"
  refine ⟨closed, ?_, ?_⟩
  · rw [tokens]
    decide +kernel
  · rw [errors]
    decide +kernel

end LoxCheck
