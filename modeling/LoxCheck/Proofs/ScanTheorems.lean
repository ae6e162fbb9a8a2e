import LoxCheck.Lexical.ScanState
import LoxCheck.Proofs.CutUniqueness
import Mathlib.Data.List.Forall2

/-!
# Scanning accounts for every character

Reading piece by piece, with a mark before each, never fails and comes to the same tokens and errors
as a scan. Every character of the source stands in just one piece; the tokens and the errors are
those of the pieces, in order.
-/

namespace LoxCheck

/-! ## The scan of a text, piece by piece -/

theorem filterMap_numbered_cons {α : Type} (f : Int × Piece → Option α) (line : Int)
    (piece : Piece) (rest : List Piece) :
    (numbered line (piece :: rest)).filterMap f =
      (f (line, piece)).toList ++ (numbered (line + lineFeeds piece.text) rest).filterMap f := by
  rw [numbered, List.filterMap_cons]
  cases f (line, piece) <;> rfl

theorem body_scanFrom_cons (line : Int) (c : Char) (rest : List Char) :
    (scanFrom line (c :: rest)).body =
      ((Piece.next c rest).1.token? line).toList ++
        (scanFrom (line + lineFeeds (Piece.next c rest).1.text) (Piece.next c rest).2).body := by
  show (numbered line (pieces (c :: rest))).filterMap _ = _
  rw [pieces_cons, filterMap_numbered_cons]
  rfl

theorem errors_scanFrom_cons (line : Int) (c : Char) (rest : List Char) :
    (scanFrom line (c :: rest)).errors =
      ((Piece.next c rest).1.error? line).toList ++
        (scanFrom (line + lineFeeds (Piece.next c rest).1.text) (Piece.next c rest).2).errors := by
  show (numbered line (pieces (c :: rest))).filterMap _ = _
  rw [pieces_cons, filterMap_numbered_cons]
  rfl

theorem lineFeeds_append (first second : List Char) :
    lineFeeds (first ++ second) = lineFeeds first + lineFeeds second :=
  List.count_append

/-! ## Reading a number of characters -/

namespace Cursor

theorem skip_append {c : Cursor} {text after : List Char} (h : c.rest = text ++ after) :
    c.skip text.length =
      { c with held := text.reverse ++ c.held, rest := after, line := c.line + lineFeeds text } := by
  induction text generalizing c with
  | nil =>
    obtain rfl : c.rest = after := h
    simp [skip, lineFeeds]
  | cons x text ih =>
    have step : c.next? = some (x, { c with
        held := x :: c.held, rest := text ++ after, line := c.line + lineFeeds [x] }) := by
      rw [next?, h, List.cons_append]
    rw [List.length_cons, skip, step]
    simp only
    rw [ih rfl]
    have count : lineFeeds (x :: text) = lineFeeds [x] + lineFeeds text := lineFeeds_append [x] text
    simp only [List.reverse_cons, List.append_assoc, List.singleton_append, mk.injEq, true_and,
      and_true]
    omega

end Cursor

namespace ScanState

/-! ## Reading one piece -/

/-- A scan that begins a new lexeme. -/
def mark (s : ScanState) : ScanState := { s with cursor := s.cursor.mark }

/-- From a mark on, a piece is read without a failure, as the token or the error that it is. -/
theorem readPiece_eq {s : ScanState} {c : Char} {rest : List Char} (h : s.cursor.rest = c :: rest)
    (marked : s.cursor.held = []) :
    s.readPiece = (none,
      { cursor := s.cursor.skip (Piece.next c rest).1.text.length
        tokens := s.tokens ++ ((Piece.next c rest).1.token? s.cursor.line).toList
        errors := s.errors ++ ((Piece.next c rest).1.error? s.cursor.line).toList }) := by
  have stands := Piece.stands_next c rest
  have cut := Piece.text_next c rest
  rw [readPiece, h]
  simp only
  generalize Piece.next c rest = first at *
  obtain ⟨piece, after⟩ := first
  have skipped := Cursor.skip_append (h.trans cut.symm)
  have lexeme : (s.cursor.skip piece.text.length).lexeme = piece.text := by
    rw [skipped, Cursor.lexeme, marked, List.append_nil, List.reverse_reverse]
  have line : (s.cursor.skip piece.text.length).line = s.cursor.line + lineFeeds piece.text := by
    rw [skipped]
  -- only a number may fail, and its text is that of a plain numeral
  cases piece with
  | number whole fraction =>
    obtain ⟨nonempty, hw, hf, -, -⟩ := stands
    have text : (Piece.number whole fraction).text = Numeral.plainText whole fraction := by
      cases fraction <;> rfl
    have value : Numeral.read? (Piece.number whole fraction).text =
        some (Numeral.plain whole fraction) := by
      rw [text]
      exact Numeral.read?_plainText nonempty hw hf
    simp [addNumber, skip, value, addToken, ScanState.lexeme, lexeme, Piece.token?, Piece.error?]
  | string content =>
    have inside : ((Piece.string content).text.drop 1).dropLast = content := by
      rw [Piece.text, List.drop_one, List.tail_cons, List.dropLast_concat]
    simp only [addString, skip, inside, addToken, ScanState.lexeme, lexeme, Piece.token?,
      Piece.error?, Option.toList_some, Option.toList_none, List.append_nil]
  | word text =>
    simp only [addWord, addToken, skip, ScanState.lexeme, lexeme, Piece.token?, Piece.error?,
      Option.toList_some, Option.toList_none, List.append_nil]
    rfl
  | _ =>
    simp [addToken, addError, skip, ScanState.lexeme, lexeme, line, Piece.token?, Piece.error?]

/-! ## Reading all pieces -/

/-- The loop of a scan, none of whose steps fails: while something is left, the position is marked
and a piece is read. -/
inductive Completes : ScanState → ScanState → Prop where
  | done {s : ScanState} : s.cursor.atEnd = true → Completes s s
  | step {s between final : ScanState} :
    s.cursor.atEnd = false → s.mark.readPiece = (none, between) → Completes between final →
    Completes s final

/-- The loop finds what a scan finds, and ends on the line of the end of the source. -/
theorem exists_completes (cs : List Char) (s : ScanState) (h : s.cursor.rest = cs) :
    ∃ final, Completes s final ∧
      final.tokens = s.tokens ++ (scanFrom s.cursor.line cs).body ∧
      final.errors = s.errors ++ (scanFrom s.cursor.line cs).errors ∧
      final.cursor.line = s.cursor.line + lineFeeds cs := by
  induction cs using pieces.induct generalizing s with
  | case1 =>
    have ended : s.cursor.atEnd = true := by rw [Cursor.atEnd, h, List.isEmpty_nil]
    refine ⟨s, .done ended, ?_, ?_, ?_⟩ <;> simp [scanFrom, pieces, numbered, lineFeeds]
  | case2 c rest first ih =>
    have more : s.cursor.atEnd = false := by rw [Cursor.atEnd, h, List.isEmpty_cons]
    -- one piece is read behind the mark, the others by the induction
    have read := @readPiece_eq s.mark c rest h rfl
    have cut : first.1.text ++ first.2 = c :: rest := Piece.text_next c rest
    have skipped := @Cursor.skip_append s.mark.cursor _ _ (h.trans cut.symm)
    have left : (s.mark.cursor.skip first.1.text.length).rest = first.2 := by rw [skipped]
    have line : (s.mark.cursor.skip first.1.text.length).line =
        s.cursor.line + lineFeeds first.1.text := by
      rw [skipped]
      rfl
    obtain ⟨final, completes, tokens, errors, last⟩ := ih
      { cursor := s.mark.cursor.skip first.1.text.length
        tokens := s.mark.tokens ++ (first.1.token? s.mark.cursor.line).toList
        errors := s.mark.errors ++ (first.1.error? s.mark.cursor.line).toList } left
    simp only [line] at tokens errors last
    refine ⟨final, .step more read completes, ?_, ?_, ?_⟩
    · rw [tokens, body_scanFrom_cons, List.append_assoc]
      rfl
    · rw [errors, errors_scanFrom_cons, List.append_assoc]
      rfl
    · have feeds := congrArg lineFeeds cut
      rw [lineFeeds_append] at feeds
      omega

end ScanState

/-! ## Tokens and errors of the pieces -/

/-- Whether a piece is a token. -/
def Piece.isToken : Piece → Bool
  | .symbol _ | .word _ | .number .. | .string _ => true
  | _ => false

/-- What is wrong with a piece. -/
def Piece.problem? : Piece → Option LexicalProblem
  | .stray c => some (.unexpected c)
  | .openString _ => some .unterminatedString
  | .openComment _ => some .unterminatedComment
  | _ => none

/-- The token of a piece has the text of the piece. -/
theorem Piece.lexeme_token? (line : Int) (piece : Piece) :
    (piece.token? line).map (·.lexeme) =
      if piece.isToken then some (String.ofList piece.text) else none := by
  cases piece <;> rfl

theorem Piece.problem_error? (line : Int) (piece : Piece) :
    (piece.error? line).map (·.problem) = piece.problem? := by
  cases piece <;> rfl

theorem Piece.lexeme_of_token? {line : Int} {piece : Piece} {token : Token}
    (h : piece.token? line = some token) : token.lexeme.toList = piece.text := by
  cases piece <;> simp only [Piece.token?, Option.some.injEq, reduceCtorEq] at h <;> simp [← h]

theorem Piece.isSome_token? (line : Int) (piece : Piece) :
    (piece.token? line).isSome = piece.isToken := by
  cases piece <;> rfl

/-- What a partial function makes of a list, item by item. -/
theorem forall₂_filterMap {α β : Type} {f : α → Option β} {p : α → Bool}
    (h : ∀ a, (f a).isSome = p a) (items : List α) :
    List.Forall₂ (fun a b => f a = some b) (items.filter p) (items.filterMap f) := by
  induction items with
  | nil => exact .nil
  | cons a items ih =>
    rw [List.filter_cons, ← h a]
    cases found : f a with
    | none => rwa [List.filterMap_cons_none found]
    | some b =>
      rw [List.filterMap_cons_some found]
      exact .cons found ih

theorem map_snd_numbered (line : Int) (ps : List Piece) :
    (numbered line ps).map Prod.snd = ps := by
  induction ps generalizing line with
  | nil => rfl
  | cons piece rest ih => rw [numbered, List.map_cons, ih]

theorem numbered_append (line : Int) (ps others : List Piece) :
    numbered line (ps ++ others) =
      numbered line ps ++ numbered (line + lineFeeds (ps.flatMap Piece.text)) others := by
  induction ps generalizing line with
  | nil => simp [numbered, lineFeeds]
  | cons piece rest ih =>
    rw [List.cons_append, numbered, numbered, ih, List.flatMap_cons, lineFeeds_append,
      List.cons_append, Int.natCast_add, Int.add_assoc]

/-- The tokens of a cut are those of its token pieces, one for each. -/
theorem tokens_of_numbered (line : Int) (ps : List Piece) :
    List.Forall₂ (fun piece token => ∃ on, piece.token? on = some token)
      (ps.filter Piece.isToken) ((numbered line ps).filterMap fun p => p.2.token? p.1) := by
  have made := forall₂_filterMap (fun p : Int × Piece => p.2.isSome_token? p.1) (numbered line ps)
  have kept : ps.filter Piece.isToken =
      ((numbered line ps).filter (Piece.isToken ∘ Prod.snd)).map Prod.snd := by
    rw [← List.filter_map, map_snd_numbered]
  rw [kept, List.forall₂_map_left_iff]
  exact made.imp fun p token h => ⟨p.1, h⟩

theorem lexemes_of_numbered (line : Int) (ps : List Piece) :
    ((numbered line ps).filterMap fun p => p.2.token? p.1).map (·.lexeme) =
      (ps.filter Piece.isToken).map fun piece => String.ofList piece.text := by
  have same : List.Forall₂ (· = ·)
      ((ps.filter Piece.isToken).map fun piece => String.ofList piece.text)
      (((numbered line ps).filterMap fun p => p.2.token? p.1).map (·.lexeme)) := by
    rw [List.forall₂_map_left_iff, List.forall₂_map_right_iff]
    apply (tokens_of_numbered line ps).imp
    intro piece token made
    obtain ⟨on, made⟩ := made
    have lexeme := piece.lexeme_token? on
    rw [made, Option.map_some] at lexeme
    split at lexeme
    · exact (Option.some.inj lexeme).symm
    · exact absurd lexeme (by simp)
  rw [List.forall₂_eq_eq_eq] at same
  exact same.symm

theorem problems_of_numbered (line : Int) (ps : List Piece) :
    ((numbered line ps).filterMap fun p => p.2.error? p.1).map (·.problem) =
      ps.filterMap Piece.problem? := by
  induction ps generalizing line with
  | nil => rfl
  | cons piece rest ih =>
    rw [filterMap_numbered_cons, List.map_append, ih, List.filterMap_cons,
      ← piece.problem_error? line]
    cases piece.error? line <;> rfl

/-! ## The lines of tokens -/

theorem Piece.line_of_token? {line : Int} {piece : Piece} {token : Token}
    (h : piece.token? line = some token) : token.line = line := by
  cases piece <;> simp only [Piece.token?, Option.some.injEq, reduceCtorEq] at h <;> simp [← h]

/-- No token of a text stands before the text starts or after it ends. -/
theorem line_bounds_of_mem_numbered {line : Int} {ps : List Piece} {p : Int × Piece}
    (h : p ∈ numbered line ps) :
    line ≤ p.1 ∧ p.1 ≤ line + lineFeeds (ps.flatMap Piece.text) := by
  induction ps generalizing line with
  | nil => exact absurd h List.not_mem_nil
  | cons piece rest ih =>
    rw [List.flatMap_cons, lineFeeds_append]
    rcases List.mem_cons.1 h with rfl | h
    · omega
    · have bounds := ih h
      omega

/-- Of two pieces the later one does not start before the earlier one ends. -/
theorem pairwise_numbered (line : Int) (ps : List Piece) :
    (numbered line ps).Pairwise fun p q => p.1 + (lineFeeds p.2.text : Int) ≤ q.1 := by
  induction ps generalizing line with
  | nil => exact .nil
  | cons piece rest ih =>
    refine .cons (fun q hq => ?_) (ih _)
    exact (line_bounds_of_mem_numbered hq).1

/-- The lines of the tokens never decrease. -/
theorem pairwise_line_scan (source : String) :
    (scan source).tokens.Pairwise fun a b => a.line ≤ b.line := by
  have body : (scan source).body.Pairwise fun a b => a.line ≤ b.line := by
    apply (pairwise_numbered 1 (pieces source.toList)).filterMap
    intro p q le a ha b hb
    rw [Piece.line_of_token? ha, Piece.line_of_token? hb]
    omega
  rw [Scan.tokens, List.pairwise_append]
  refine ⟨body, List.pairwise_singleton _ _, fun token listed stop last => ?_⟩
  -- the token for the end stands on the last line
  obtain rfl := List.mem_singleton.1 last
  obtain ⟨p, hp, made⟩ := List.mem_filterMap.1 listed
  have bounds := line_bounds_of_mem_numbered hp
  rw [flatMap_text_pieces] at bounds
  rw [Piece.line_of_token? made]
  exact bounds.2

/-! ## The account -/

/-- A source has one cut, so that every character stands in just one piece. Reading the pieces one by
one never fails. The tokens are those of the token pieces, with their texts, and one for the end; the
errors are those of the unexpected characters and, last, of a string or comment that nothing closes. -/
theorem scan_accounts_for_source (source : String) :
    ∃ ps : List Piece, Cut source.toList ps ∧ (∀ ps', Cut source.toList ps' → ps' = ps) ∧
      (∃ final, (ScanState.ofSource source).Completes final ∧
        (scan source).tokens = final.tokens ++ [.endOfSource final.cursor.line] ∧
        (scan source).errors = final.errors) ∧
      (∃ body stop, (scan source).tokens = body ++ [stop] ∧
        body.map (·.lexeme) =
          (ps.filter Piece.isToken).map (fun piece => String.ofList piece.text) ∧
        (∀ token ∈ body, token.kind ≠ .eof) ∧ stop.kind = .eof ∧ stop.lexeme = "") ∧
      (scan source).errors.map (·.problem) = ps.filterMap Piece.problem? := by
  refine ⟨pieces source.toList, cut_pieces _, fun _ => cut_iff.1, ?_, ?_, problems_of_numbered _ _⟩
  · obtain ⟨final, completes, tokens, errors, last⟩ :=
      ScanState.exists_completes source.toList (ScanState.ofSource source) rfl
    refine ⟨final, completes, ?_, errors.symm⟩
    rw [tokens, last]
    rfl
  · exact ⟨_, _, rfl, lexemes_of_numbered _ _, fun token => kind_ne_eof_of_mem_scanFrom, rfl, rfl⟩

end LoxCheck
