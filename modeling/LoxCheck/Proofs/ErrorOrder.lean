import LoxCheck.Check
import LoxCheck.Proofs.FatalErrors
import LoxCheck.Proofs.ProgressTheorems
import LoxCheck.Proofs.ScanTheorems

/-!
# The order of syntax errors

Errors are recorded at the token that a step stands at, so that they come in the order of the
source. The one exception is an assignment target that is no name: it is reported when the right
side has been read, at the `=` before it. A right side that was read has itself recorded nothing but
such targets, and so only they may be out of order, and only among themselves.
-/

namespace LoxCheck

/-! ## Errors with the places of their tokens -/

/-- Two errors with the places of their tokens, the first recorded first. -/
def InOrder (a b : SyntaxError × Nat) : Prop :=
  a.2 ≤ b.2 ∨ a.1.problem = .invalidTarget ∧ b.1.problem = .invalidTarget

/-- Between two cursors errors are recorded, each at a token on the way, and in order. -/
def Recorded (c : TokenCursor) (errors : List SyntaxError) (after : TokenCursor) : Prop :=
  ∃ n, ∃ located : List (SyntaxError × Nat), c.Onward after n ∧ errors = located.map (·.1) ∧
    (∀ l ∈ located, l.2 ≤ n ∧ l.1 = SyntaxError.at l.1.problem (c.tokenAt l.2)) ∧
    located.Pairwise InOrder

namespace Recorded

variable {c between after : TokenCursor} {errors errors' : List SyntaxError} {n : Nat}

theorem silent (h : c.Onward after n) : Recorded c [] after :=
  ⟨n, [], h, rfl, fun _ absent => absurd absent List.not_mem_nil, .nil⟩

theorem current (problem : SyntaxProblem) (h : c.Onward after n) :
    Recorded c [SyntaxError.at problem c.current] after := by
  refine ⟨n, [(SyntaxError.at problem c.current, 0)], h, rfl, fun l hl => ?_,
    List.pairwise_singleton _ _⟩
  obtain rfl := List.mem_singleton.1 hl
  exact ⟨Nat.zero_le n, rfl⟩

/-- What is recorded later is recorded further on. -/
theorem trans (first : Recorded c errors between) (second : Recorded between errors' after) :
    Recorded c (errors ++ errors') after := by
  obtain ⟨m, located, moved, rfl, placed, ordered⟩ := first
  obtain ⟨n, located', moved', rfl, placed', ordered'⟩ := second
  -- the places of the second part are counted from where it begins
  let shifted := located'.map fun l => (l.1, m + l.2)
  refine ⟨m + n, located ++ shifted, moved.trans moved', ?_, fun l hl => ?_, ?_⟩
  · rw [List.map_append, List.map_map]
    rfl
  · rcases List.mem_append.1 hl with hl | hl
    · have place := placed l hl
      exact ⟨by omega, place.2⟩
    · obtain ⟨l', hl', rfl⟩ := List.mem_map.1 hl
      have place := placed' l' hl'
      rw [moved.tokenAt] at place
      exact ⟨Nat.add_le_add_left place.1 m, place.2⟩
  · rw [List.pairwise_append]
    refine ⟨ordered, ?_, fun a ha b hb => ?_⟩
    · rw [List.pairwise_map]
      apply ordered'.imp
      intro a b order
      exact order.imp_left fun le => Nat.add_le_add_left le m
    · obtain ⟨b', -, rfl⟩ := List.mem_map.1 hb
      have place := (placed a ha).1
      exact .inl (by show a.2 ≤ m + b'.2; omega)

/-- A target may be reported behind other targets that stand after it. -/
theorem late {token : Token} {rest : List Token} (h : c.ahead = token :: rest)
    (read : Recorded c.advance errors after)
    (targets : ∀ e ∈ errors, e.problem = .invalidTarget) :
    Recorded c (errors ++ [SyntaxError.at .invalidTarget token]) after := by
  have whole : Recorded c errors after := (silent (Parse.onward_advance h)).trans read
  obtain ⟨n, located, moved, rfl, placed, ordered⟩ := whole
  have here : c.tokenAt 0 = token := by
    rw [TokenCursor.tokenAt, h]
    rfl
  refine ⟨n, located ++ [(SyntaxError.at .invalidTarget token, 0)], moved, by simp,
    fun l hl => ?_, ?_⟩
  · rcases List.mem_append.1 hl with hl | hl
    · exact placed l hl
    · obtain rfl := List.mem_singleton.1 hl
      exact ⟨Nat.zero_le n, by rw [here]; rfl⟩
  · rw [List.pairwise_append]
    refine ⟨ordered, List.pairwise_singleton _ _, fun a ha b hb => ?_⟩
    obtain rfl := List.mem_singleton.1 hb
    exact .inr ⟨targets a.1 (List.mem_map_of_mem ha), rfl⟩

end Recorded

namespace Parse

variable {α β : Type}

/-! ## Steps record in order -/

/-- A step that records its errors in order. -/
def Records (p : Parse α) : Prop :=
  ∀ c : TokenCursor, Recorded c (p c).errors (p c).cursor

theorem Records.andThen {p : Parse α} {f : α → Parse β} (hp : Records p)
    (hf : ∀ a, Records (f a)) : Records (p.andThen f) := by
  intro c
  cases hr : (p c).result with
  | none =>
    rw [andThen_of_none hr]
    exact hp c
  | some a =>
    rw [andThen_of_some hr]
    exact (hp c).trans (hf a (p c).cursor)

theorem records_done (a : α) : Records (done a) := fun c => .silent (.refl c)

theorem records_takeIf (kinds : List TokenKind) : Records (takeIf kinds) := by
  intro c
  rcases takeIf_cases kinds c with ⟨token, rest, h, -, eq⟩ | ⟨-, eq⟩ <;> rw [eq]
  · exact .silent (onward_advance h)
  · exact .silent (.refl c)

theorem records_fail {problem : SyntaxProblem} : Records (fail problem : Parse α) :=
  fun c => .current problem (.refl c)

theorem records_sequential : Sequential fun _ p _ => Records p where
  done := records_done
  andThen := Records.andThen
  takeIf _ := records_takeIf _

theorem records_level : LevelClosed fun _ p _ => Records p where
  toSequential := records_sequential
  binaryLevel {_ operand _} listed h := h.andThen fun left c =>
    @Sequential.binaryTail _ records_sequential _ operand operand listed h c.ahead left c

/-- The two ways to go on after looking for a token. -/
theorem recorded_choice {kinds : List TokenKind} {f : Option Token → Parse β} {c : TokenCursor}
    (taken : ∀ token rest, c.ahead = token :: rest →
      Recorded c (f (some token) c.advance).errors (f (some token) c.advance).cursor)
    (left : Recorded c (f none c).errors (f none c).cursor) :
    Recorded c ((takeIf kinds).andThen f c).errors ((takeIf kinds).andThen f c).cursor := by
  rcases takeIf_andThen_cases kinds f c with ⟨token, rest, h, -, eq⟩ | ⟨-, eq⟩ <;> rw [eq]
  · exact taken token rest h
  · exact left

/-- An assignment reports its target last of all, which is in order if the value has recorded only
targets. -/
theorem records_assignmentWith {unary expression : Parse Expr} (hu : Records unary)
    (he : Records expression) (reports : ReportsOnce expression) :
    Records (assignmentWith unary expression) := by
  have target : Records (equality unary) :=
    @LevelClosed.equality _ records_level unary unary hu
  refine target.andThen fun target c => recorded_choice (fun equals rest h => ?_)
    (records_done target c)
  have read := he c.advance
  have whole := (Recorded.silent (onward_advance h)).trans read
  show Recorded c (expression.andThen _ c.advance).errors (expression.andThen _ c.advance).cursor
  cases hv : (expression c.advance).result with
  | none =>
    rw [andThen_of_none hv]
    exact whole
  | some value =>
    rw [andThen_of_some hv]
    cases target with
    | reference name => exact whole.trans (.silent (.refl _))
    | _ => exact .late h read (reports.targets hv)

theorem Records.declarations {declaration : Parse Stmt} (h : Records declaration)
    (stops : List TokenKind) (fuel : List Token) (c : TokenCursor) :
    Recorded c (declarations stops declaration fuel c).errors
      (declarations stops declaration fuel c).cursor := by
  induction fuel generalizing c with
  | nil => exact .silent (.refl c)
  | cons token fuel ih =>
    unfold Parse.declarations
    split
    · exact .silent (.refl c)
    · exact (h c).trans (ih (declaration c).cursor)

theorem records_expect (kind : TokenKind) (problem : SyntaxProblem) :
    Records (expect kind problem) := by
  refine (records_takeIf [kind]).andThen fun found => ?_
  cases found with
  | some token => exact records_done token
  | none => exact records_fail

theorem Records.recovering {step : Parse Stmt} (h : Records step) : Records (recovering step) := by
  intro c
  rw [Parse.recovering]
  split
  · exact h c
  · split
    · exact h c
    · -- recovery moves on and records nothing
      obtain ⟨n, bound, eq, -⟩ := (step c).cursor.toBoundary_onward c.position
      have moved : (step c).cursor.Onward ((step c).cursor.toBoundary c.position) n := by
        rw [eq]
        exact .skip bound
      have whole := (h c).trans (.silent moved)
      rwa [List.append_nil] at whole

theorem records_closed : StatementClosed fun _ p _ => Records p where
  toLevelClosed := records_level
  fail _ := records_fail
  overflow _ := records_fail
  assignment {room _} hu he := records_assignmentWith hu he (reportsOnce_expression room)
  takeAny _ := records_takeIf _
  recovering := Records.recovering
  blockWith h c := (h.declarations [.rightBrace] c.ahead c).trans
    (records_expect .rightBrace .expectBraceAfterBlock _)
  overdeepBlock _ c := .current .tooMuchNesting c.skipBlock_onward

/-- A program records its errors in order. -/
theorem recorded_program (room : Nat) (c : TokenCursor) :
    Recorded c (program room c).errors (program room c).cursor :=
  Records.declarations (records_closed.declaration (Nat.le_refl room)) [] c.ahead c

end Parse

/-! ## Sources -/

/-- The syntax errors of a source, with the places of their tokens. Of two errors the earlier one is
at the same token as the later one or before it, and on no later line, unless both are assignment
targets. -/
theorem errors_in_order (source : String) (maxDepth : Int) :
    ∃ d, ∃ located : List (SyntaxError × Nat),
      parse (scan source).tokens maxDepth = .ok d ∧ d.errors = located.map (·.1) ∧
      (∀ l ∈ located, ∃ token, (scan source).tokens[l.2]? = some token ∧
        l.1 = SyntaxError.at l.1.problem token) ∧
      located.Pairwise fun a b => (a.2 ≤ b.2 ∧ a.1.line ≤ b.1.line) ∨
        (a.1.problem = .invalidTarget ∧ b.1.problem = .invalidTarget) := by
  have readable : ∀ token ∈ (scan source).body, token.kind ≠ .eof :=
    fun _ => kind_ne_eof_of_mem_scanFrom
  let start := TokenCursor.start (scan source).body (scan source).stop (scan source).stop
  obtain ⟨n, located, moved, errors, placed, ordered⟩ :=
    Parse.recorded_program (room maxDepth 0) start
  have parsed : parse (scan source).tokens maxDepth =
      .ok (Parse.program (room maxDepth 0) start) := by
    rw [parse, Scan.tokens, TokenCursor.ofTokens?_append_singleton readable rfl]
  have bound : n ≤ (scan source).body.length := moved.bound
  have token_of : ∀ l ∈ located, (scan source).tokens[l.2]? = some (start.tokenAt l.2) := by
    intro l hl
    exact TokenCursor.getElem?_tokenAt (Nat.le_trans (placed l hl).1 bound)
  refine ⟨_, located, parsed, errors, fun l hl => ⟨_, token_of l hl, (placed l hl).2⟩, ?_⟩
  apply ordered.imp_of_mem
  intro a b ha hb order
  refine order.imp_left fun le => ⟨le, ?_⟩
  -- the lines of the tokens ascend with their places
  rw [(placed a ha).2, (placed b hb).2]
  show (start.tokenAt a.2).line ≤ (start.tokenAt b.2).line
  rcases Nat.eq_or_lt_of_le le with same | before
  · exact Int.le_of_eq (by rw [same])
  · obtain ⟨ha', eqa⟩ := List.getElem?_eq_some_iff.1 (token_of a ha)
    obtain ⟨hb', eqb⟩ := List.getElem?_eq_some_iff.1 (token_of b hb)
    rw [← eqa, ← eqb]
    exact List.pairwise_iff_getElem.1 (pairwise_line_scan source) _ _ ha' hb' before

/-- Two targets of one assignment, on two lines, are reported from the inside out. -/
theorem targets_out_of_order :
    ∃ d, parse (scan "1 =\n2 = 3;").tokens = .ok d ∧
      d.errors = [⟨2, .invalidTarget, some "="⟩, ⟨1, .invalidTarget, some "="⟩] :=
  ⟨_, parse_tokens_scan _, by decide +kernel⟩

end LoxCheck
