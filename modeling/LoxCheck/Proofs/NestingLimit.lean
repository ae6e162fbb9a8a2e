import LoxCheck.Proofs.ProgressTheorems

/-!
# The limit of nesting

A limit of nesting only cuts. Two runs with different room do the same until the one with less room
has none left: either they agree, or the smaller one has recorded an overflow, and what it had
recorded by then the other one has recorded too.
-/

namespace LoxCheck

/-! ## Errors up to an overflow -/

/-- Errors that a run records until the limit cuts it, and that a run with more room begins with. -/
def CutShort (errors errors' : List SyntaxError) : Prop :=
  ∃ before overflow after, errors = before ++ overflow :: after ∧
    overflow.problem = .tooMuchNesting ∧ before <+: errors'

namespace CutShort

variable {errors errors' : List SyntaxError}

/-- What is recorded after the overflow does not matter. -/
theorem append (h : CutShort errors errors') (more more' : List SyntaxError) :
    CutShort (errors ++ more) (errors' ++ more') := by
  obtain ⟨before, overflow, after, rfl, problem, agreed⟩ := h
  refine ⟨before, overflow, after ++ more, by simp, problem, ?_⟩
  exact agreed.trans (List.prefix_append errors' more')

/-- What both runs recorded earlier belongs to what they agree on. -/
theorem prepend (h : CutShort errors errors') (earlier : List SyntaxError) :
    CutShort (earlier ++ errors) (earlier ++ errors') := by
  obtain ⟨before, overflow, after, rfl, problem, agreed⟩ := h
  refine ⟨earlier ++ before, overflow, after, by simp, problem, ?_⟩
  exact (List.prefix_append_right_inj earlier).2 agreed

/-- The errors before the first overflow come first in the other run. -/
theorem takeWhile_prefix {p : SyntaxError → Bool} (h : CutShort errors errors')
    (stops : ∀ e : SyntaxError, e.problem = .tooMuchNesting → p e = false) :
    errors.takeWhile p <+: errors' := by
  obtain ⟨before, overflow, after, rfl, problem, agreed⟩ := h
  have none_taken : (overflow :: after).takeWhile p = [] :=
    List.takeWhile_cons_of_neg (by simp [stops overflow problem])
  have short : (before ++ overflow :: after).takeWhile p <+: before := by
    rw [List.takeWhile_append]
    split
    · simp [none_taken]
    · exact List.takeWhile_prefix p
  exact short.trans agreed

end CutShort

namespace Parse

variable {α β : Type}

/-! ## Steps that agree up to an overflow -/

/-- The second step does the same as the first, unless the first was cut short. -/
def Agrees (p p' : Parse α) : Prop :=
  ∀ c : TokenCursor, p' c = p c ∨ CutShort (p c).errors (p' c).errors

theorem Agrees.refl (p : Parse α) : Agrees p p := fun _ => .inl rfl

/-- An overflow with nothing recorded before it agrees with everything. -/
theorem agrees_of_overflow {p : Parse α}
    (h : ∀ c, (p c).errors = [SyntaxError.at .tooMuchNesting c.current]) (other : Parse α) :
    Agrees p other :=
  fun c => .inr ⟨[], _, [], h c, rfl, List.nil_prefix⟩

/-- Steps in sequence record what the first of them does, and maybe more. -/
theorem exists_errors_andThen (p : Parse α) (f : α → Parse β) (c : TokenCursor) :
    ∃ more, (p.andThen f c).errors = (p c).errors ++ more := by
  cases hr : (p c).result with
  | none => exact ⟨[], by rw [andThen_of_none hr, List.append_nil]⟩
  | some a => exact ⟨_, by rw [andThen_of_some hr]⟩

theorem Agrees.andThen {p p' : Parse α} {f f' : α → Parse β} (hp : Agrees p p')
    (hf : ∀ a, Agrees (f a) (f' a)) : Agrees (p.andThen f) (p'.andThen f') := by
  intro c
  cases hp c with
  | inl same =>
    cases hr : (p c).result with
    | none =>
      rw [andThen_of_none hr, andThen_of_none (same ▸ hr), same]
      exact .inl rfl
    | some a =>
      rw [andThen_of_some hr, andThen_of_some (same ▸ hr), same]
      -- the second steps go on from the same cursor
      cases hf a (p c).cursor with
      | inl same' => exact .inl (by rw [same'])
      | inr cut => exact .inr (cut.prepend (p c).errors)
  | inr cut =>
    obtain ⟨more, errors⟩ := exists_errors_andThen p f c
    obtain ⟨more', errors'⟩ := exists_errors_andThen p' f' c
    rw [errors, errors']
    exact .inr (cut.append more more')

theorem Agrees.recovering {step step' : Parse Stmt} (h : Agrees step step') :
    Agrees (recovering step) (recovering step') := by
  intro c
  rw [errors_recovering, errors_recovering]
  cases h c with
  | inl same => exact .inl (by simp only [Parse.recovering, same])
  | inr cut => exact .inr cut

/-- Declarations that agree make up sequences that agree. -/
theorem Agrees.declarations {declaration declaration' : Parse Stmt}
    (h : Agrees declaration declaration') (stops : List TokenKind) (fuel : List Token)
    (c : TokenCursor) :
    declarations stops declaration' fuel c = declarations stops declaration fuel c ∨
      CutShort (declarations stops declaration fuel c).errors
        (declarations stops declaration' fuel c).errors := by
  induction fuel generalizing c with
  | nil => exact .inl rfl
  | cons token fuel ih =>
    unfold Parse.declarations
    split
    · exact .inl rfl
    · cases h c with
      | inr cut => exact .inr (cut.append _ _)
      | inl same =>
        rw [same]
        cases ih (declaration c).cursor with
        | inl others => exact .inl (by simp only [others])
        | inr cut => exact .inr (cut.prepend (declaration c).errors)

theorem Agrees.blockWith {declaration declaration' : Parse Stmt}
    (h : Agrees declaration declaration') :
    Agrees (blockWith declaration) (blockWith declaration') := by
  intro c
  cases h.declarations [.rightBrace] c.ahead c with
  | inl same => exact .inl (by simp only [Parse.blockWith, same])
  | inr cut => exact .inr (cut.append _ _)

/-! ## The grammar with less and with more room -/

theorem agrees_sequential : Sequential fun _ p p' => Agrees p p' where
  done a := .refl (done a)
  andThen := Agrees.andThen
  takeIf _ := .refl _

theorem agrees_level : LevelClosed fun _ p p' => Agrees p p' where
  toSequential := agrees_sequential
  binaryLevel listed h := h.andThen fun left c =>
    agrees_sequential.binaryTail listed h c.ahead left c

theorem agrees_closed : StatementClosed fun _ p p' => Agrees p p' where
  toLevelClosed := agrees_level
  fail _ := .refl _
  overflow := agrees_of_overflow fun _ => rfl
  assignment := agrees_level.assignment fun _ => .refl _
  takeAny _ := .refl _
  recovering := Agrees.recovering
  blockWith := Agrees.blockWith
  overdeepBlock := agrees_of_overflow fun _ => rfl

/-- More room changes nothing of a program that the limit did not cut short. -/
theorem program_agrees {room room' : Nat} (le : room ≤ room') (c : TokenCursor) :
    program room' c = program room c ∨
      CutShort (program room c).errors (program room' c).errors :=
  (agrees_closed.declaration le).declarations [] c.ahead c

end Parse

/-- The limit of nesting only cuts. If a parse reports no overflow, a parse with a higher limit
comes to just the same; and in every case, its errors before the first overflow are the first ones
of the other. -/
theorem parse_of_higher_limit {tokens : List Token} {last : Token}
    (present : tokens.getLast? = some last) (ends : last.kind = .eof) {maxDepth maxDepth' : Int}
    (le : maxDepth ≤ maxDepth') :
    ∃ d d', parse tokens maxDepth = .ok d ∧ parse tokens maxDepth' = .ok d' ∧
      ((∀ e ∈ d.errors, e.problem.message ≠ "Too much nesting.") → d' = d) ∧
      d.errors.takeWhile (fun e => e.problem.message ≠ "Too much nesting.") <+: d'.errors := by
  obtain ⟨start, found⟩ := TokenCursor.ofTokens?_of_getLast? present ends
  have more : room maxDepth 0 ≤ room maxDepth' 0 := by
    unfold room
    omega
  refine ⟨_, _, by rw [parse, found], by rw [parse, found], ?_⟩
  cases Parse.program_agrees more start with
  | inl same =>
    rw [same]
    exact ⟨fun _ => rfl, List.takeWhile_prefix _⟩
  | inr cut =>
    have worded : ∀ e : SyntaxError, e.problem = .tooMuchNesting →
        decide (e.problem.message ≠ "Too much nesting.") = false := by
      intro e problem
      rw [problem]
      rfl
    refine ⟨fun none_cut => ?_, cut.takeWhile_prefix worded⟩
    obtain ⟨before, overflow, after, errors, problem, -⟩ := cut
    have reported : overflow ∈ before ++ overflow :: after := by simp
    have other := none_cut overflow (errors ▸ reported)
    rw [problem] at other
    exact absurd rfl other

/-- The tokens of `1 = 2; ((1));`, whose second statement is too deep for two levels. -/
def deepParens : List Token :=
  [⟨.number, "1", .number .one, 1⟩, ⟨.equal, "=", .nil, 1⟩, ⟨.number, "2", .number .one, 1⟩,
    ⟨.semicolon, ";", .nil, 1⟩, ⟨.leftParen, "(", .nil, 1⟩, ⟨.leftParen, "(", .nil, 1⟩,
    ⟨.number, "1", .number .one, 1⟩, ⟨.rightParen, ")", .nil, 1⟩, ⟨.rightParen, ")", .nil, 1⟩,
    ⟨.semicolon, ";", .nil, 1⟩, ⟨.eof, "", .nil, 1⟩]

/-- The invalid target of the first statement is reported with either limit. -/
theorem parse_of_higher_limit_deepParens :
    ∃ d d', parse deepParens 2 = .ok d ∧ parse deepParens 3 = .ok d' ∧
      d.errors = [⟨1, .invalidTarget, some "="⟩, ⟨1, .tooMuchNesting, some "1"⟩] ∧
      [⟨1, .invalidTarget, some "="⟩] <+: d'.errors := by
  obtain ⟨d, d', hd, hd', -, first⟩ :=
    @parse_of_higher_limit deepParens _ rfl rfl 2 3 (by decide)
  have errors : d.errors = [⟨1, .invalidTarget, some "="⟩, ⟨1, .tooMuchNesting, some "1"⟩] := by
    have parsed : some d.errors = (parse deepParens 2).toOption.map (·.errors) := by rw [hd]; rfl
    rw [← Option.some_inj, parsed]
    rfl
  rw [errors] at first
  exact ⟨d, d', hd, hd', errors, first⟩

end LoxCheck
