import LoxCheck.Proofs.RewrittenSources

/-!
# Lines that end with a carriage return and a line feed

A carriage return before every line feed changes nothing but strings that go over several lines, which
get the carriage returns too. It is a blank wherever it comes to stand between tokens, the last
character of a line comment, or one more character of a string or of a block comment, and it counts
for no line.
-/

namespace LoxCheck

namespace Text

/-! ## Line feeds with carriage returns -/

/-- A line feed with a carriage return before it, or another character alone. -/
def withReturn (c : Char) : List Char := if c = '\n' then ['\r', '\n'] else [c]

/-- A text with a carriage return before every line feed. -/
def withReturns (text : List Char) : List Char := text.flatMap withReturn

theorem withReturns_append (first second : List Char) :
    withReturns (first ++ second) = withReturns first ++ withReturns second :=
  List.flatMap_append

theorem withReturns_lineFeed (rest : List Char) :
    withReturns ('\n' :: rest) = '\r' :: '\n' :: withReturns rest := rfl

theorem withReturns_cons {c : Char} (other : c ≠ '\n') (rest : List Char) :
    withReturns (c :: rest) = c :: withReturns rest := by
  rw [withReturns, List.flatMap_cons, withReturn, if_neg other]
  rfl

theorem withReturns_of_unbroken {text : List Char} (h : '\n' ∉ text) : withReturns text = text := by
  induction text with
  | nil => rfl
  | cons c rest ih =>
    obtain ⟨other, unbroken⟩ := not_or.1 (mt List.mem_cons.2 h)
    rw [withReturns_cons (Ne.symm other), ih unbroken]

theorem withReturns_ne_nil {text : List Char} (h : text ≠ []) : withReturns text ≠ [] := by
  obtain ⟨c, rest, rfl⟩ := List.exists_cons_of_ne_nil h
  by_cases lineFeed : c = '\n'
  · rw [lineFeed]
    exact List.cons_ne_nil _ _
  · rw [withReturns_cons lineFeed]
    exact List.cons_ne_nil _ _

theorem lineFeeds_withReturns (text : List Char) :
    lineFeeds (withReturns text) = lineFeeds text := by
  induction text with
  | nil => rfl
  | cons c rest ih =>
    by_cases lineFeed : c = '\n'
    · subst lineFeed
      simp only [withReturns_lineFeed, lineFeeds, List.count_cons] at ih ⊢
      simpa using ih
    · simp only [withReturns_cons lineFeed, lineFeeds, List.count_cons] at ih ⊢
      rw [ih]

/-- Only carriage returns are new. -/
theorem not_mem_withReturns {c : Char} (other : c ≠ '\r') {text : List Char} (h : c ∉ text) :
    c ∉ withReturns text := by
  intro listed
  obtain ⟨d, hd, hc⟩ := List.mem_flatMap.1 listed
  unfold withReturn at hc
  split at hc
  · next lineFeed =>
    subst lineFeed
    rcases List.mem_cons.1 hc with rfl | hc
    · exact other rfl
    · obtain rfl := List.mem_singleton.1 hc
      exact h hd
  · obtain rfl := List.mem_singleton.1 hc
    exact h hd

theorem head?_withReturns {text : List Char} {c : Char} (h : c ∈ (withReturns text).head?) :
    c ∈ text.head? ∨ c = '\r' := by
  cases text with
  | nil => exact absurd h (by simp [withReturns])
  | cons d rest =>
    by_cases lineFeed : d = '\n'
    · subst lineFeed
      exact .inr (Option.some.inj h).symm
    · rw [withReturns_cons lineFeed] at h
      exact .inl h

/-- Where a line ends at once, a carriage return comes to stand first. -/
theorem softer_withReturns (text : List Char) : Softer text (withReturns text) := by
  have blank : Piece.isBlank '\r' = true := rfl
  constructor
  · intro c hc
    rcases head?_withReturns hc with before | rfl
    · exact .inl before
    · exact .inr blank
  · intro d tail point
    cases text with
    | nil => exact absurd point (by simp [withReturns])
    | cons c rest =>
      by_cases lineFeed : c = '\n'
      · subst lineFeed
        exact absurd (List.cons.inj point).1 (by decide)
      · rw [withReturns_cons lineFeed] at point
        obtain ⟨rfl, tail_eq⟩ := List.cons.inj point
        rcases head?_withReturns (by rw [tail_eq]; rfl) with before | rfl
        · obtain ⟨more, rfl⟩ := List.head?_eq_some_iff.1 before
          exact .inr ⟨more, rfl⟩
        · exact .inl blank

end Text

open Text

namespace Piece

/-! ## Comments -/

/-- The search for the closing of a comment reads carriage returns like other characters. -/
theorem closeComment_withReturns (depth : Nat) (read cs : List Char) :
    ∀ read' : List Char, read'.reverse = withReturns read.reverse →
      closeComment depth read' (withReturns cs) =
        (closeComment depth read cs).map fun found => (withReturns found.1, withReturns found.2) := by
  fun_induction closeComment depth read cs with
  | case1 => exact fun _ _ => rfl
  | case2 depth read rest ih =>
    intro read' same
    rw [withReturns_cons (by decide), withReturns_cons (by decide), closeComment_open]
    exact ih _ (by simp [same, withReturns, withReturn])
  | case3 read rest =>
    intro read' same
    rw [withReturns_cons (by decide), withReturns_cons (by decide), closeComment_close]
    simp [same, withReturns, withReturn]
  | case4 read rest outer ih =>
    intro read' same
    rw [withReturns_cons (by decide), withReturns_cons (by decide), closeComment_close_inner]
    exact ih _ (by simp [same, withReturns, withReturn])
  | case5 depth read c rest opens closes ih =>
    intro read' same
    by_cases lineFeed : c = '\n'
    · -- neither the carriage return nor the line feed opens or closes a comment
      subst lineFeed
      rw [withReturns_lineFeed, closeComment_char _ _ (by simp) (by simp),
        closeComment_char _ _ (by simp) (by simp)]
      exact ih _ (by simp [same, withReturns, withReturn])
    · have not_open : ¬(c = '/' ∧ (withReturns rest).head? = some '*') := by
        rintro ⟨hc, star⟩
        have before := (head?_withReturns star).resolve_right (by decide)
        obtain ⟨tail, ht⟩ := List.head?_eq_some_iff.1 before
        exact opens tail hc ht
      have not_close : ¬(c = '*' ∧ (withReturns rest).head? = some '/') := by
        rintro ⟨hc, slash⟩
        have before := (head?_withReturns slash).resolve_right (by decide)
        obtain ⟨tail, ht⟩ := List.head?_eq_some_iff.1 before
        exact closes tail hc ht
      rw [withReturns_cons lineFeed, closeComment_char _ _ not_open not_close]
      exact ih _ (by simp [same, withReturns, withReturn, lineFeed])

theorem commentBody_withReturns {body : List Char} (h : CommentBody body) :
    CommentBody (withReturns body) := by
  have found := closeComment_eq_some_iff.2 ⟨(List.append_nil body).symm, h⟩
  have found' := closeComment_withReturns 0 [] body [] rfl
  rw [found] at found'
  exact (closeComment_eq_some_iff.1 found').2

theorem unclosed_withReturns {body : List Char}
    (h : ∀ inside more, body = inside ++ more → ¬CommentBody inside) :
    ∀ inside more, withReturns body = inside ++ more → ¬CommentBody inside := by
  have missing := closeComment_withReturns 0 [] body [] rfl
  rw [closeComment_eq_none_iff.2 h] at missing
  exact closeComment_eq_none_iff.1 missing

/-! ## Pieces -/

/-- A piece with a carriage return before every line feed in it. -/
def returned : Piece → Piece
  | .string content => .string (withReturns content)
  | .blockComment body => .blockComment (withReturns body)
  | .openString body => .openString (withReturns body)
  | .openComment body => .openComment (withReturns body)
  | piece => piece

/-- The pieces that no line feed can be in. -/
def isSingleLine : Piece → Bool
  | .symbol _ | .word _ | .number .. | .lineComment _ | .stray _ => true
  | _ => false

variable {piece : Piece} {after : List Char}

theorem Stands.unbroken (h : piece.Stands after) (single : piece.isSingleLine = true) :
    '\n' ∉ piece.text := by
  intro listed
  cases piece with
  | symbol kind =>
    have symbols : ∀ kind ∈ symbolKinds, '\n' ∉ kind.spelling := by decide
    exact symbols kind h.1 listed
  | word text =>
    obtain ⟨⟨first, others, rfl, start, inside⟩, -⟩ := h
    rcases List.mem_cons.1 listed with rfl | listed
    · exact absurd start (by decide)
    · exact absurd (inside _ listed) (by decide)
  | number whole fraction =>
    obtain ⟨-, digits, decimals, -⟩ := h
    have no_digit : '\n' ∉ whole ∧ '\n' ∉ fraction :=
      ⟨fun hw => absurd (digits _ hw) (by decide), fun hf => absurd (decimals _ hf) (by decide)⟩
    rw [text_number] at listed
    split at listed <;> simp [no_digit] at listed
  | lineComment body => exact h.1 (by simpa [text] using listed)
  | stray c =>
    obtain rfl := List.mem_singleton.1 listed
    exact h.not_blank (by decide)
  | _ => exact absurd single (by simp [isSingleLine])

theorem text_returned (h : piece.Stands after) (other : piece ≠ .blank '\n') :
    piece.returned.text = withReturns piece.text := by
  cases piece with
  | symbol | word | number | lineComment | stray =>
    rw [withReturns_of_unbroken (h.unbroken rfl)]
    rfl
  | blank c =>
    have no_feed : c ≠ '\n' := fun same => other (congrArg Piece.blank same)
    exact (withReturns_cons no_feed []).symm
  | string content =>
    simp only [returned, text, withReturns_cons (by decide : '"' ≠ '\n'), withReturns_append]
    rfl
  | blockComment body | openComment body =>
    simp only [returned, text, withReturns_cons (by decide : '/' ≠ '\n'),
      withReturns_cons (by decide : '*' ≠ '\n')]
  | openString body =>
    simp only [returned, text, withReturns_cons (by decide : '"' ≠ '\n')]

/-- A piece stands where it stood, unless it is a comment that has the carriage return behind it. -/
theorem Stands.returned (h : piece.Stands after)
    (comment : ∀ body, piece = .lineComment body → after = []) :
    piece.returned.Stands (withReturns after) := by
  cases piece with
  | symbol | word | number => exact h.of_softer rfl (softer_withReturns after)
  | string content => exact not_mem_withReturns (by decide) h
  | blank | stray => exact h
  | lineComment body =>
    obtain rfl := comment body rfl
    exact h
  | blockComment body => exact commentBody_withReturns h
  | openString body =>
    obtain ⟨unquoted, rfl⟩ := h
    exact ⟨not_mem_withReturns (by decide) unquoted, rfl⟩
  | openComment body =>
    obtain ⟨unclosed, rfl⟩ := h
    exact ⟨unclosed_withReturns unclosed, rfl⟩

end Piece

/-! ## Tokens -/

/-- A value that is a text with carriage returns in it, or another value. -/
def Value.withReturns : Value → Value
  | .text content => .text (String.ofList (Text.withReturns content.toList))
  | value => value

/-- A token whose text, and the text that it carries, has a carriage return before every line
feed. -/
def Token.withReturns (token : Token) : Token :=
  { token with
    lexeme := String.ofList (Text.withReturns token.lexeme.toList)
    literal := token.literal.withReturns }

theorem Token.withReturns_ofList (kind : TokenKind) (text : List Char) (literal : Value)
    (line : Int) :
    Token.withReturns ⟨kind, String.ofList text, literal, line⟩ =
      ⟨kind, String.ofList (Text.withReturns text), literal.withReturns, line⟩ := by
  rw [Token.withReturns, String.toList_ofList]

namespace Piece

variable {piece : Piece} {after : List Char}

theorem token?_returned (h : piece.Stands after) (line : Int) :
    piece.returned.token? line = (piece.token? line).map Token.withReturns := by
  cases piece with
  | symbol | word | number =>
    have text := text_returned h (by simp)
    simp only [token?, Option.map_some, Token.withReturns_ofList, ← text]
    rfl
  | string content =>
    have text := text_returned h (by simp)
    have literal : (Value.text (String.ofList content)).withReturns =
        .text (String.ofList (withReturns content)) := by
      rw [Value.withReturns, String.toList_ofList]
    simp only [token?, Option.map_some, Token.withReturns_ofList, ← text, literal]
    rfl
  | _ => rfl

theorem lineFeeds_returned (h : piece.Stands after) :
    lineFeeds piece.returned.text = lineFeeds piece.text := by
  by_cases other : piece = .blank '\n'
  · rw [other]
    rfl
  · rw [text_returned h other, lineFeeds_withReturns]

theorem error?_returned (h : piece.Stands after) (line : Int) :
    piece.returned.error? line = piece.error? line := by
  have lines := lineFeeds_returned h
  cases piece with
  | openString | openComment =>
    simp only [returned] at lines
    simp only [returned, error?, lines]
  | _ => rfl

/-- A piece reads as it did, but for the carriage returns. -/
theorem readsAs_returned (h : piece.Stands after) :
    ReadsAs Token.withReturns (fun _ => true) [piece] [piece.returned] where
  tokens line := by
    have token := token?_returned h line
    simp only [tokensOn, numbered, List.filterMap_cons, List.filterMap_nil, token]
    cases piece.token? line <;> rfl
  errors line := by
    simp only [errorsOn, numbered, List.filterMap_cons, List.filterMap_nil,
      error?_returned h line, List.filter_true]
  feeds := by
    rw [List.flatMap_singleton, List.flatMap_singleton, lineFeeds_returned h]

end Piece

/-! ## A whole source -/

/-- A carriage return is neither a token nor an error nor the end of a line. -/
theorem readsAs_return_cons {change : Token → Token} {keeps : LexicalError → Bool}
    {ps others : List Piece} :
    ReadsAs change keeps ps (.blank '\r' :: others) ↔ ReadsAs change keeps ps others := by
  have same_line : ∀ line : Int, line + lineFeeds ['\r'] = line := Int.add_zero
  have tokens : ∀ line, tokensOn line (.blank '\r' :: others) = tokensOn line others := by
    intro line
    show tokensOn (line + lineFeeds ['\r']) others = _
    rw [same_line]
  have errors : ∀ line, errorsOn line (.blank '\r' :: others) = errorsOn line others := by
    intro line
    show errorsOn (line + lineFeeds ['\r']) others = _
    rw [same_line]
  constructor
  · exact fun h => ⟨fun line => tokens line ▸ h.tokens line, fun line => errors line ▸ h.errors line,
      h.feeds⟩
  · exact fun h => ⟨fun line => (tokens line).trans (h.tokens line),
      fun line => (errors line).trans (h.errors line), h.feeds⟩

/-- A carriage return behind a line comment belongs to it. -/
theorem Cut.of_comment {body rest : List Char} {ps : List Piece} (unbroken : '\n' ∉ body)
    (h : Cut ('\r' :: '\n' :: rest) ps) :
    ∃ others, ps = .blank '\r' :: others ∧
      Cut ('/' :: '/' :: body ++ '\r' :: '\n' :: rest) (.lineComment (body ++ ['\r']) :: others) := by
  have first := cut_iff.1 h
  rw [pieces_cons, Piece.next_of_blank rfl] at first
  have stands : (Piece.lineComment (body ++ ['\r'])).Stands ('\n' :: rest) :=
    ⟨by simpa using unbroken, fun c hc => (Option.some.inj hc).symm⟩
  have nonempty : (Piece.lineComment (body ++ ['\r'])).text ≠ [] := List.cons_ne_nil _ _
  refine ⟨_, first, ?_⟩
  have whole := Cut.cons nonempty stands (cut_pieces ('\n' :: rest))
  simpa [Piece.text] using whole

section

variable {after : List Char} {others ps' : List Piece}

/-- The carriage return before a line feed between pieces becomes a blank of its own. -/
theorem Cut.exists_lineFeed (stands : (Piece.blank '\n').Stands after)
    (cut : Cut (withReturns after) ps')
    (reads : ReadsAs Token.withReturns (fun _ => true) others ps') :
    ∃ ps'', Cut ('\r' :: '\n' :: withReturns after) ps'' ∧
      ReadsAs Token.withReturns (fun _ => true) (.blank '\n' :: others) ps'' := by
  have nonempty : ∀ c, (Piece.blank c).text ≠ [] := fun _ => List.cons_ne_nil _ _
  have lineFeed : Cut ('\n' :: withReturns after) (.blank '\n' :: ps') :=
    .cons (nonempty _) stands cut
  have blank : (Piece.blank '\r').Stands ('\n' :: withReturns after) := by simp [Piece.Stands]
  have single := Piece.readsAs_returned stands
  exact ⟨.blank '\r' :: .blank '\n' :: ps', .cons (nonempty _) blank lineFeed,
    readsAs_return_cons.2 (single.append reads)⟩

/-- The carriage return before the line feed that ends a line comment becomes its last
character. -/
theorem Cut.exists_comment {body rest : List Char} (unbroken : '\n' ∉ body)
    (cut : Cut (withReturns ('\n' :: rest)) ps')
    (reads : ReadsAs Token.withReturns (fun _ => true) others ps') :
    ∃ ps'', Cut ('/' :: '/' :: body ++ withReturns ('\n' :: rest)) ps'' ∧
      ReadsAs Token.withReturns (fun _ => true) (.lineComment body :: others) ps'' := by
  obtain ⟨more, rfl, longer⟩ := Cut.of_comment unbroken cut
  have alike : ReadsAs Token.withReturns (fun _ => true) [.lineComment body]
      [.lineComment (body ++ ['\r'])] :=
    ⟨fun _ => rfl, fun _ => rfl, by simp [Piece.text, lineFeeds]⟩
  exact ⟨_, longer, alike.append (readsAs_return_cons.1 reads)⟩

end

/-- With carriage returns a source is cut into pieces that read alike. -/
theorem Cut.exists_withReturns {cs : List Char} {ps : List Piece} (h : Cut cs ps) :
    ∃ ps', Cut (withReturns cs) ps' ∧ ReadsAs Token.withReturns (fun _ => true) ps ps' := by
  induction h with
  | nil => exact ⟨[], .nil, .nil⟩
  | @cons piece after others nonempty stands cut ih =>
    obtain ⟨ps', cut', reads⟩ := ih
    rw [withReturns_append]
    by_cases feed : piece = .blank '\n'
    · subst feed
      exact Cut.exists_lineFeed stands cut' reads
    by_cases comment : ∃ body rest, piece = .lineComment body ∧ after = '\n' :: rest
    · obtain ⟨body, rest, rfl, rfl⟩ := comment
      rw [withReturns_of_unbroken (stands.unbroken rfl)]
      exact Cut.exists_comment stands.1 cut' reads
    · -- a comment that no line feed ends goes on to the end of the source
      have ends : ∀ body, piece = .lineComment body → after = [] := by
        rintro body rfl
        cases after with
        | nil => rfl
        | cons c rest =>
          obtain rfl := stands.2 c rfl
          exact absurd ⟨body, rest, rfl, rfl⟩ comment
      have text := Piece.text_returned stands feed
      have nonempty' : piece.returned.text ≠ [] := by
        rw [text]
        exact withReturns_ne_nil nonempty
      rw [← text]
      exact ⟨piece.returned :: ps', .cons nonempty' (stands.returned ends) cut',
        (Piece.readsAs_returned stands).append reads⟩

/-- A token that is no string over several lines has no place for a carriage return. -/
theorem withReturns_eq_of_mem_scan {source : String} {token : Token}
    (listed : token ∈ (scan source).tokens)
    (one_line : token.kind ≠ .string ∨ '\n' ∉ token.lexeme.toList) : token.withReturns = token := by
  rcases List.mem_append.1 listed with listed | last
  · obtain ⟨⟨line, piece⟩, numbered, made⟩ := List.mem_filterMap.1 listed
    obtain ⟨after, stands⟩ :=
      (cut_pieces source.toList).exists_stands (mem_pieces_of_mem_numbered numbered)
    have same : piece.returned = piece := by
      cases piece with
      | string content =>
        obtain rfl := Option.some.inj made
        have unbroken := one_line.resolve_left fun other => other rfl
        rw [String.toList_ofList] at unbroken
        have inside : '\n' ∉ content := fun hc => unbroken (by simp [Piece.text, hc])
        rw [Piece.returned, withReturns_of_unbroken inside]
      | symbol | word | number => rfl
      | _ => exact absurd made (by simp [Piece.token?])
    have token := Piece.token?_returned stands line
    have made : piece.token? line = some _ := made
    rw [same, made] at token
    exact (Option.some.inj token).symm
  · obtain rfl := List.mem_singleton.1 last
    rfl

/-- Lines may end with a carriage return and a line feed. With a carriage return before every line
feed a source is scanned to the same errors and to the same tokens, on the same lines, except that
the strings that go over several lines have the carriage returns in their text and in the text that
they carry. -/
theorem scan_withReturns (source : String) :
    (scan (String.ofList (withReturns source.toList))).tokens =
        (scan source).tokens.map Token.withReturns ∧
      (scan (String.ofList (withReturns source.toList))).errors = (scan source).errors ∧
      ∀ token ∈ (scan source).tokens,
        token.kind ≠ .string ∨ '\n' ∉ token.lexeme.toList → token.withReturns = token := by
  obtain ⟨ps', cut, reads⟩ := (cut_pieces source.toList).exists_withReturns
  obtain ⟨tokens, errors⟩ := reads.scan cut fun _ => rfl
  rw [String.ofList_toList] at tokens errors
  rw [List.filter_true] at errors
  exact ⟨tokens, errors, fun token listed => withReturns_eq_of_mem_scan listed⟩

/-- The carriage return goes into the string and into the comment, and the number before it gets no
fraction. -/
example :
    (scan "\"a\r\n\" //\r\n1.\r\n5@").tokens.map (fun token => (token.lexeme, token.line)) =
      [("\"a\r\n\"", 1), ("1", 3), (".", 3), ("5", 4), ("", 4)] := by
  decide +kernel

end LoxCheck
