import LoxCheck.Proofs.Soundness

/-!
# What derives is read

The other direction: tokens with a derivation that fits the room are read without an error, and the
tree that is read is the tree of the derivation. A chain of operands only ends where no operator of
its level or a tighter one follows, so the token after an expression matters here. The token after a
declaration does not.
-/

namespace LoxCheck

namespace Grammar

/-! ## Tokens that extend what was read -/

/-- The kinds that go on with what derives from a symbol: the operators of its level and of the
tighter ones, and for an assignment also the equals sign. -/
def Nonterminal.extenders : Nonterminal → List TokenKind
  | .primary | .unary => []
  | .binary .factor => BinaryLevel.factor.operators
  | .binary .term => BinaryLevel.term.operators ++ BinaryLevel.factor.operators
  | .binary .comparison =>
    BinaryLevel.comparison.operators ++
      (BinaryLevel.term.operators ++ BinaryLevel.factor.operators)
  | .binary .equality =>
    BinaryLevel.equality.operators ++
      (BinaryLevel.comparison.operators ++
        (BinaryLevel.term.operators ++ BinaryLevel.factor.operators))
  | .expression | .assignment =>
    .equal :: (BinaryLevel.equality.operators ++
      (BinaryLevel.comparison.operators ++
        (BinaryLevel.term.operators ++ BinaryLevel.factor.operators)))

theorem Nonterminal.extenders_binary (level : BinaryLevel) :
    (Nonterminal.binary level).extenders = level.operators ++ level.operand.extenders := by
  cases level <;> rfl

theorem Nonterminal.extenders_assignment :
    Nonterminal.assignment.extenders =
      .equal :: (Nonterminal.binary .equality).extenders := rfl

/-- An operator never goes on with an operand of its own level. -/
theorem BinaryLevel.not_mem_extenders {level : BinaryLevel} {kind : TokenKind}
    (h : kind ∈ level.operators) : kind ∉ level.operand.extenders := by
  revert kind
  cases level <;> decide

/-- Nothing among the tokens that follow goes on with what derives from a symbol. -/
def Ends (symbol : Nonterminal) (rest : List Token) : Prop :=
  ∀ token ∈ rest.head?, token.kind ∉ symbol.extenders

theorem ends_cons {symbol : Nonterminal} {token : Token} {rest : List Token}
    (h : token.kind ∉ symbol.extenders) : Ends symbol (token :: rest) := by
  intro first hfirst
  obtain rfl : token = first := by simpa using hfirst
  exact h

theorem Ends.operand {level : BinaryLevel} {rest : List Token} (h : Ends (.binary level) rest) :
    Ends level.operand rest := by
  intro token ht listed
  apply h token ht
  rw [Nonterminal.extenders_binary]
  exact List.mem_append_right _ listed

theorem Ends.no_operator {level : BinaryLevel} {rest : List Token}
    (h : Ends (.binary level) rest) : ∀ token ∈ rest.head?, token.kind ∉ level.operators := by
  intro token ht listed
  apply h token ht
  rw [Nonterminal.extenders_binary]
  exact List.mem_append_left _ listed

theorem Ends.equality {rest : List Token} (h : Ends .assignment rest) :
    Ends (.binary .equality) rest := by
  intro token ht listed
  apply h token ht
  rw [Nonterminal.extenders_assignment]
  exact List.mem_cons_of_mem _ listed

theorem Ends.no_equals {rest : List Token} (h : Ends .assignment rest) :
    ∀ token ∈ rest.head?, token.kind ∉ [TokenKind.equal] := by
  intro token ht listed
  apply h token ht
  rw [Nonterminal.extenders_assignment, List.mem_singleton.1 listed]
  exact List.mem_cons_self

/-! ## Expressions -/

/-- Wherever the tokens stand before something that does not go on with them, and there is room for
the nesting, they are read as the tree, without an error. -/
def Complete (symbol : Nonterminal) (tokens : List Token) (nesting : Nat) (tree : Expr) : Prop :=
  ∀ (room : Nat) (c : TokenCursor) (rest : List Token), nesting ≤ room →
    c.ahead = tokens ++ rest → Ends symbol rest →
    symbol.step room c = ⟨some tree, [], c.skip tokens.length⟩

/-- The tokens are read as the left end of a chain: whatever follows, except for a tighter operator,
the step for the level goes on with the rest of a chain after them. -/
def Leads (level : BinaryLevel) (tokens : List Token) (nesting : Nat) (tree : Expr) : Prop :=
  ∀ (room : Nat) (c : TokenCursor) (rest : List Token), nesting ≤ room →
    c.ahead = tokens ++ rest → Ends level.operand rest →
    ∃ fuel : List Token, rest.length ≤ fuel.length ∧
      (Nonterminal.binary level).step room c =
        Parse.binaryTail level.operators (level.operand.step room) fuel tree
          (c.skip tokens.length)

theorem Leads.complete {level : BinaryLevel} {tokens : List Token} {nesting : Nat} {tree : Expr}
    (h : Leads level tokens nesting tree) : Complete (.binary level) tokens nesting tree := by
  intro room c rest fits hc ends
  obtain ⟨fuel, -, eq⟩ := h _ _ _ fits hc ends.operand
  rw [eq]
  apply Parse.binaryTail_of_end
  rw [TokenCursor.ahead_skip_of_append hc]
  exact ends.no_operator

theorem Complete.leads {level : BinaryLevel} {tokens : List Token} {nesting : Nat} {tree : Expr}
    (h : Complete level.operand tokens nesting tree) : Leads level tokens nesting tree := by
  intro room c rest fits hc ends
  have first := h _ _ _ fits hc ends
  have left := TokenCursor.ahead_skip_of_append hc
  refine ⟨(c.skip tokens.length).ahead, left ▸ Nat.le_refl _, ?_⟩
  rw [Nonterminal.step_binary]
  exact Parse.andThen_of_eq first

/-- One more operator and operand. -/
theorem Leads.chain {level : BinaryLevel} {operator : Token} {tokens more : List Token}
    {m n : Nat} {left right : Expr} (ho : operator.kind ∈ level.operators)
    (hl : Leads level tokens m left) (hr : Complete level.operand more n right) :
    Leads level (tokens ++ operator :: more) (max m n) (.binary left operator right) := by
  intro room c rest fits hc ends
  have fits' := Nat.max_le.1 fits
  have split : c.ahead = tokens ++ operator :: (more ++ rest) := by rw [hc]; simp
  have before := TokenCursor.ahead_skip_of_append split
  obtain ⟨fuel, enough, eq⟩ := hl _ _ _ fits'.1 split (ends_cons (BinaryLevel.not_mem_extenders ho))
  obtain ⟨token, fuel, rfl⟩ : ∃ token fuel', fuel = token :: fuel' := by
    apply List.exists_cons_of_length_pos
    rw [List.length_cons] at enough
    omega
  refine ⟨fuel, ?_, ?_⟩
  · rw [List.length_cons, List.length_cons, List.length_append] at enough
    omega
  · have taken := Parse.takeIf_of_mem before ho
    have after : (c.skip tokens.length).advance.ahead = more ++ rest :=
      TokenCursor.ahead_advance_of_ahead before
    have second := hr _ _ _ fits'.2 after ends
    have place : (c.skip tokens.length).advance.skip more.length =
        c.skip (tokens ++ operator :: more).length := by
      rw [← TokenCursor.skip_succ, TokenCursor.skip_skip, List.length_append, List.length_cons]
    -- the step for the level goes on with the tail, which takes one more operator and operand
    rw [eq, ← place]
    exact (Parse.andThen_of_eq taken).trans (Parse.andThen_of_eq second)

theorem Complete.unary_of_primary {tokens : List Token} {nesting : Nat} {tree : Expr}
    (head : ∀ token ∈ tokens.head?, token.kind ∉ [TokenKind.bang, .minus]) (nonempty : tokens ≠ [])
    (h : Complete .primary tokens nesting tree) : Complete .unary tokens nesting tree := by
  intro room c rest fits hc ends
  have missing : Parse.takeIf [.bang, .minus] c = ⟨some none, [], c⟩ := by
    apply Parse.takeIf_of_not_mem
    rw [hc]
    cases tokens with
    | nil => exact absurd rfl nonempty
    | cons token tokens => exact head
  show Parse.unary room c = _
  rw [Parse.unary_eq]
  exact (Parse.andThen_of_eq missing).trans (h _ _ _ fits hc ends)

theorem Complete.unary {operator : Token} {tokens : List Token} {nesting : Nat} {tree : Expr}
    (ho : operator.kind ∈ [TokenKind.bang, .minus]) (h : Complete .unary tokens nesting tree) :
    Complete .unary (operator :: tokens) (nesting + 1) (.unary operator tree) := by
  intro room c rest fits hc ends
  obtain ⟨room, rfl⟩ : ∃ inner, room = inner + 1 := ⟨room - 1, by omega⟩
  -- the operator takes one level of the room, the operand has the others
  have taken := Parse.takeIf_of_mem hc ho
  have after : c.advance.ahead = tokens ++ rest := TokenCursor.ahead_advance_of_ahead hc
  have inner := h _ _ _ (by omega : nesting ≤ room) after ends
  show Parse.unary (room + 1) c = _
  rw [Parse.unary_eq]
  exact (Parse.andThen_of_eq taken).trans (Parse.andThen_of_eq inner)

/-- A primary expression of one token is read if the step for its kind returns it. -/
theorem complete_token {token : Token} {tree : Expr}
    (h : ∀ (expression : Parse Expr) (c : TokenCursor) (rest : List Token), c.ahead = token :: rest →
      Parse.primaryWith expression c = Parse.done tree c.advance) :
    Complete .primary [token] 0 tree := by
  intro room c rest fits hc ends
  exact h _ c rest hc

theorem complete_reference {name : Token} (hn : name.kind = .identifier) :
    Complete .primary [name] 0 (.reference name) :=
  complete_token fun expression c rest hc => by simp [Parse.primaryWith, hc, hn]

theorem Complete.equality_of_unary {tokens : List Token} {nesting : Nat} {tree : Expr}
    (h : Complete .unary tokens nesting tree) :
    Complete (.binary .equality) tokens nesting tree := by
  have factor : Complete (.binary .factor) tokens nesting tree := Leads.complete (Complete.leads h)
  have term : Complete (.binary .term) tokens nesting tree := Leads.complete (Complete.leads factor)
  have comparison : Complete (.binary .comparison) tokens nesting tree :=
    Leads.complete (Complete.leads term)
  exact Leads.complete (Complete.leads comparison)

theorem Complete.assignment_of_equality {tokens : List Token} {nesting : Nat} {tree : Expr}
    (h : Complete (.binary .equality) tokens nesting tree) :
    Complete .assignment tokens nesting tree := by
  intro room c rest fits hc ends
  have target := h _ _ _ fits hc ends.equality
  have missing : Parse.takeIf [.equal] (c.skip tokens.length) =
      ⟨some none, [], c.skip tokens.length⟩ := by
    apply Parse.takeIf_of_not_mem
    rw [TokenCursor.ahead_skip_of_append hc]
    exact ends.no_equals
  exact (Parse.andThen_of_eq target).trans (Parse.andThen_of_eq missing)

/-- The name before an equals sign is read as an equality, which makes it a target. -/
theorem Complete.assign {name equals : Token} {tokens : List Token} {nesting : Nat} {value : Expr}
    (hn : name.kind = .identifier) (he : equals.kind = .equal)
    (h : Complete .assignment tokens nesting value) :
    Complete .assignment (name :: equals :: tokens) (nesting + 1) (.assign name value) := by
  intro room c rest fits hc ends
  obtain ⟨room, rfl⟩ : ∃ inner, room = inner + 1 := ⟨room - 1, by omega⟩
  have reference : Complete (.binary .equality) [name] 0 (.reference name) := by
    apply Complete.equality_of_unary
    apply Complete.unary_of_primary _ (by simp) (complete_reference hn)
    simp [hn]
  have target := reference (room + 1) c (equals :: tokens ++ rest) (Nat.zero_le _) hc
    (ends_cons (by rw [he]; decide))
  have between : c.advance.ahead = equals :: (tokens ++ rest) := by
    rw [TokenCursor.ahead_advance_of_ahead hc]
    rfl
  have taken := Parse.takeIf_of_mem between (by simpa using he : equals.kind ∈ [TokenKind.equal])
  have after : c.advance.advance.ahead = tokens ++ rest :=
    TokenCursor.ahead_advance_of_ahead between
  have right := h _ _ _ (by omega : nesting ≤ room) after ends
  calc Parse.assignmentWith (Parse.unary (room + 1)) (Parse.expression (room + 1)) c
      = _ := Parse.andThen_of_eq target
    _ = _ := Parse.andThen_of_eq taken
    _ = _ := Parse.andThen_of_eq right

theorem complete_grouping {opening closing : Token} {tokens : List Token} {nesting : Nat}
    {tree : Expr} (ho : opening.kind = .leftParen) (hc : closing.kind = .rightParen)
    (h : Complete .expression tokens nesting tree) :
    Complete .primary (opening :: tokens ++ [closing]) nesting (.grouping tree) := by
  intro room c rest fits hahead ends
  have inParens := TokenCursor.ahead_advance_of_enclosed hahead
  have inner := h _ _ _ fits inParens (ends_cons (by rw [hc]; decide))
  have before := TokenCursor.ahead_skip_of_append inParens
  have close := Parse.expect_of_ahead .expectParenAfterExpression before hc
  have form : Parse.primaryWith (Parse.expression room) c = (do
      let inner ← (Parse.expression room : Parse Expr)
      let _ ← Parse.expect .rightParen .expectParenAfterExpression
      pure (.grouping inner) : Parse Expr) c.advance := by
    simp [Parse.primaryWith, hahead, ho]
  rw [TokenCursor.skip_enclosed]
  calc Parse.primaryWith (Parse.expression room) c
      = _ := form
    _ = _ := Parse.andThen_of_eq inner
    _ = _ := Parse.andThen_of_eq close

/-- Whatever derives is read. -/
theorem Derives.complete {symbol : Nonterminal} {tokens : List Token} {nesting : Nat} {tree : Expr}
    (h : Derives symbol tokens nesting tree) : Complete symbol tokens nesting tree := by
  -- a chain is followed by more of it, so that for the levels the induction proves `Leads`
  suffices strong : Complete symbol tokens nesting tree ∧
      ∀ level, symbol = .binary level → Leads level tokens nesting tree from strong.1
  induction h with
  | expression _ ih =>
    refine ⟨fun room c rest fits hc ends => ?_, by simp⟩
    obtain ⟨room, rfl⟩ : ∃ inner, room = inner + 1 := ⟨room - 1, by omega⟩
    exact ih.1 room c rest (by omega) hc ends
  | assign hn he _ ih => exact ⟨ih.1.assign hn he, by simp⟩
  | equality _ ih => exact ⟨ih.1.assignment_of_equality, by simp⟩
  | @operand level _ _ _ _ ih =>
    have leads : Leads level _ _ _ := Complete.leads ih.1
    refine ⟨leads.complete, fun level' same => ?_⟩
    obtain rfl := Nonterminal.binary.inj same
    exact leads
  | @chain level _ _ _ _ _ _ _ ho _ _ ihl ihr =>
    have leads := Leads.chain ho (ihl.2 level rfl) ihr.1
    refine ⟨leads.complete, fun level' same => ?_⟩
    obtain rfl := Nonterminal.binary.inj same
    exact leads
  | unary ho _ ih => exact ⟨ih.1.unary (by simpa using ho), by simp⟩
  | primary h ih =>
    obtain ⟨token, rest, rfl, hk⟩ := h.head_primary
    exact ⟨ih.1.unary_of_primary (by simpa using hk) (by simp), by simp⟩
  | literal hk =>
    refine ⟨complete_token fun expression c rest hc => ?_, by simp⟩
    rcases hk with hk | hk <;> simp [Parse.primaryWith, hc, hk]
  | kwTrue hk =>
    exact ⟨complete_token fun expression c rest hc => by simp [Parse.primaryWith, hc, hk], by simp⟩
  | kwFalse hk =>
    exact ⟨complete_token fun expression c rest hc => by simp [Parse.primaryWith, hc, hk], by simp⟩
  | kwNil hk =>
    exact ⟨complete_token fun expression c rest hc => by simp [Parse.primaryWith, hc, hk], by simp⟩
  | reference hn => exact ⟨complete_reference hn, by simp⟩
  | grouping ho hc _ ih => exact ⟨complete_grouping ho hc ih.1, by simp⟩

/-- The tokens determine the tree of an expression. -/
theorem Derives.unique {symbol : Nonterminal} {tokens : List Token} {m n : Nat}
    {tree tree' : Expr} (h : Derives symbol tokens m tree) (h' : Derives symbol tokens n tree') :
    tree = tree' := by
  -- the step for the symbol comes to both trees in room for both derivations
  let stop : Token := { kind := .eof, lexeme := "" }
  let c := TokenCursor.start tokens stop stop
  have ends : Ends symbol [] := by simp [Ends]
  have all : c.ahead = tokens ++ [] := (List.append_nil tokens).symm
  have read := h.complete (max m n) c [] (Nat.le_max_left m n) all ends
  have read' := h'.complete (max m n) c [] (Nat.le_max_right m n) all ends
  rw [read] at read'
  exact Option.some.inj (congrArg Outcome.result read')

/-! ## Declarations -/

section

variable {room : Nat} {c : TokenCursor} {rest : List Token}

/-- An expression up to the semicolon after it, which nothing goes on with. -/
theorem Derives.read_to_semicolon {tokens : List Token} {nesting : Nat} {tree : Expr}
    {semicolon : Token} (problem : SyntaxProblem) (h : Derives .expression tokens nesting tree)
    (hs : semicolon.kind = .semicolon) (fits : nesting ≤ room)
    (hc : c.ahead = tokens ++ semicolon :: rest) :
    Parse.expression room c = ⟨some tree, [], c.skip tokens.length⟩ ∧
      Parse.expect .semicolon problem (c.skip tokens.length) =
        ⟨some semicolon, [], (c.skip tokens.length).advance⟩ := by
  have ends : Ends .expression (semicolon :: rest) := ends_cons (by rw [hs]; decide)
  have before := TokenCursor.ahead_skip_of_append hc
  exact ⟨h.complete room c _ fits hc ends, Parse.expect_of_ahead problem before hs⟩

theorem declaration_bare {var name semicolon : Token} (hv : var.kind = .kwVar)
    (hn : name.kind = .identifier) (hs : semicolon.kind = .semicolon)
    (hc : c.ahead = [var, name, semicolon] ++ rest) :
    Parse.declaration room c =
      ⟨some (.declaration name none), [], c.skip [var, name, semicolon].length⟩ := by
  have second := TokenCursor.ahead_advance_of_ahead hc
  have third := TokenCursor.ahead_advance_of_ahead second
  apply Parse.recovering_of_eq
  calc Parse.attempt room c
      = Parse.varDeclaration (Parse.expression room) c.advance :=
        Parse.takeIf_andThen_of_mem _ hc (by simp [hv])
    _ = _ := Parse.andThen_of_eq (Parse.expect_of_ahead .expectVariableName second hn)
    _ = _ := Parse.andThen_of_eq (Parse.takeIf_andThen_of_not_mem _ third (by simp [hs]))
    _ = _ := Parse.andThen_of_eq (Parse.expect_of_ahead .expectSemicolonAfterDeclaration third hs)

theorem declaration_initialized {var name equals semicolon : Token} {tokens : List Token}
    {nesting : Nat} {tree : Expr} (hv : var.kind = .kwVar) (hn : name.kind = .identifier)
    (he : equals.kind = .equal) (h : Derives .expression tokens nesting tree)
    (hs : semicolon.kind = .semicolon) (fits : nesting ≤ room)
    (hc : c.ahead = var :: name :: equals :: tokens ++ [semicolon] ++ rest) :
    Parse.declaration room c = ⟨some (.declaration name (some tree)), [],
      c.skip (var :: name :: equals :: tokens ++ [semicolon]).length⟩ := by
  have second := TokenCursor.ahead_advance_of_ahead hc
  have third := TokenCursor.ahead_advance_of_ahead second
  have fourth := TokenCursor.ahead_advance_of_enclosed third
  obtain ⟨value, close⟩ :=
    h.read_to_semicolon .expectSemicolonAfterDeclaration hs fits fourth
  have initialized : Parse.initializer (Parse.expression room) c.advance.advance =
      ⟨some (some tree), [], c.advance.advance.advance.skip tokens.length⟩ := by
    calc Parse.initializer (Parse.expression room) c.advance.advance
        = _ := Parse.takeIf_andThen_of_mem _ third (by simp [he])
      _ = _ := Parse.andThen_of_eq value
  have place : c.skip (var :: name :: equals :: tokens ++ [semicolon]).length =
      (c.advance.advance.advance.skip tokens.length).advance :=
    TokenCursor.skip_enclosed equals semicolon tokens c.advance.advance
  rw [place]
  apply Parse.recovering_of_eq
  calc Parse.attempt room c
      = Parse.varDeclaration (Parse.expression room) c.advance :=
        Parse.takeIf_andThen_of_mem _ hc (by simp [hv])
    _ = _ := Parse.andThen_of_eq (Parse.expect_of_ahead .expectVariableName second hn)
    _ = _ := Parse.andThen_of_eq initialized
    _ = _ := Parse.andThen_of_eq close

theorem declaration_print {print semicolon : Token} {tokens : List Token} {nesting : Nat}
    {tree : Expr} (hp : print.kind = .kwPrint) (h : Derives .expression tokens nesting tree)
    (hs : semicolon.kind = .semicolon) (fits : nesting ≤ room)
    (hc : c.ahead = print :: tokens ++ [semicolon] ++ rest) :
    Parse.declaration room c =
      ⟨some (.print tree), [], c.skip (print :: tokens ++ [semicolon]).length⟩ := by
  have second := TokenCursor.ahead_advance_of_enclosed hc
  obtain ⟨value, close⟩ := h.read_to_semicolon .expectSemicolonAfterExpression hs fits second
  rw [TokenCursor.skip_enclosed]
  apply Parse.recovering_of_eq
  calc Parse.attempt room c
      = Parse.statementWith (Parse.expression room) (Parse.block room) c :=
        Parse.takeIf_andThen_of_not_mem _ hc (by simp [hp])
    _ = Parse.printStatement (Parse.expression room) c.advance :=
        Parse.takeIf_andThen_of_mem _ hc (by simp [hp])
    _ = _ := Parse.andThen_of_eq value
    _ = _ := Parse.andThen_of_eq close

/-- An expression statement is read where its expression is, with the errors that are recorded in
it. -/
theorem declaration_of_expression {first semicolon : Token} {others : List Token} {tree : Expr}
    {errors : List SyntaxError} {after : TokenCursor} (hc : c.ahead = first :: others)
    (starts : first.kind ∈ expressionStarters)
    (read : Parse.expression room c = ⟨some tree, errors, after⟩)
    (behind : after.ahead = semicolon :: rest) (hs : semicolon.kind = .semicolon) :
    Parse.declaration room c = ⟨some (.expression tree), errors, after.advance⟩ := by
  -- no keyword or brace that begins another kind of statement begins an expression
  have other : ∀ kind ∈ [TokenKind.kwVar, .kwPrint, .leftBrace], first.kind ∉ [kind] := by
    have apart : ∀ kind ∈ [TokenKind.kwVar, .kwPrint, .leftBrace], kind ∉ expressionStarters := by
      decide
    intro kind listed same
    rw [List.mem_singleton.1 same] at starts
    exact apart kind listed starts
  have close := Parse.expect_of_ahead .expectSemicolonAfterExpression behind hs
  have statement : Parse.expressionStatement (Parse.expression room) c =
      ⟨some (.expression tree), errors ++ [], after.advance⟩ :=
    Parse.andThen_eq_append read (Parse.andThen_of_eq close)
  rw [List.append_nil] at statement
  apply Parse.recovering_of_eq
  calc Parse.attempt room c
      = Parse.statementWith (Parse.expression room) (Parse.block room) c :=
        Parse.takeIf_andThen_of_not_mem _ hc (other .kwVar (by decide))
    _ = _ := Parse.takeIf_andThen_of_not_mem _ hc (other .kwPrint (by decide))
    _ = Parse.expressionStatement (Parse.expression room) c :=
        Parse.takeIf_andThen_of_not_mem _ hc (other .leftBrace (by decide))
    _ = _ := statement

theorem declaration_expression {semicolon : Token} {tokens : List Token} {nesting : Nat}
    {tree : Expr} (h : Derives .expression tokens nesting tree) (hs : semicolon.kind = .semicolon)
    (fits : nesting ≤ room) (hc : c.ahead = tokens ++ [semicolon] ++ rest) :
    Parse.declaration room c =
      ⟨some (.expression tree), [], c.skip (tokens ++ [semicolon]).length⟩ := by
  rw [List.append_assoc, List.singleton_append] at hc
  have read := h.complete room c (semicolon :: rest) fits hc (ends_cons (by rw [hs]; decide))
  have behind := TokenCursor.ahead_skip_of_append hc
  obtain ⟨first, others, rfl, starts⟩ := h.head
  rw [List.length_append, List.length_singleton, ← TokenCursor.advance_skip]
  exact declaration_of_expression hc starts read behind hs

/-- A block is read if its declarations are, in one level less of room. -/
theorem declaration_block {opening closing : Token} {tokens : List Token} {statements : List Stmt}
    (ho : opening.kind = .leftBrace) (hk : closing.kind = .rightBrace)
    (hc : c.ahead = opening :: tokens ++ [closing] ++ rest)
    (body : Parse.allDeclarations [.rightBrace] (Parse.declaration room) c.advance =
      ⟨statements, [], c.advance.skip tokens.length⟩) :
    Parse.declaration (room + 1) c =
      ⟨some (.block statements), [], c.skip (opening :: tokens ++ [closing]).length⟩ := by
  have second := TokenCursor.ahead_advance_of_enclosed hc
  have before := TokenCursor.ahead_skip_of_append second
  have block : Parse.block (room + 1) c.advance = _ := Parse.block_of_closing body before hk
  rw [TokenCursor.skip_enclosed]
  apply Parse.recovering_of_eq
  exact (Parse.attempt_of_brace (room + 1) hc ho).trans block

end

/-- The first declaration is read on its own, and the others after it. -/
theorem allDeclarations_cons {room : Nat} {c : TokenCursor} {stops : List TokenKind}
    {tokens more rest : List Token} {statement : Stmt} {statements : List Stmt}
    (hc : c.ahead = tokens ++ (more ++ rest)) (nonempty : tokens ≠ [])
    (going : c.current.kind ∉ stops)
    (first : Parse.declaration room c = ⟨some statement, [], c.skip tokens.length⟩)
    (others : Parse.allDeclarations stops (Parse.declaration room) (c.skip tokens.length) =
      ⟨statements, [], (c.skip tokens.length).skip more.length⟩) :
    Parse.allDeclarations stops (Parse.declaration room) c =
      ⟨statement :: statements, [], c.skip (tokens ++ more).length⟩ := by
  have inside : c.ahead ≠ [] := by
    rw [hc]
    exact List.append_ne_nil_of_left_ne_nil nonempty _
  have advances : Parse.Advances (Parse.declaration room) :=
    fun _ => Parse.declaration_progress room
  rw [Parse.allDeclarations_of_go advances inside going, first, others, TokenCursor.skip_skip,
    List.length_append]
  rfl

mutual

/-- A declaration with a derivation is read, whatever follows it. -/
theorem Declaration.complete {tokens : List Token} {nesting : Nat} {statement : Stmt} :
    Declaration tokens nesting statement → ∀ {room : Nat} {c : TokenCursor} {rest : List Token},
      nesting ≤ room → c.ahead = tokens ++ rest →
      Parse.declaration room c = ⟨some statement, [], c.skip tokens.length⟩
  | .bare hv hn hs, _, _, _, _, hc => declaration_bare hv hn hs hc
  | .initialized hv hn he h hs, _, _, _, fits, hc => declaration_initialized hv hn he h hs fits hc
  | .print hp h hs, _, _, _, fits, hc => declaration_print hp h hs fits hc
  | .block ho h hk, room, c, rest, fits, hc => by
    obtain ⟨room, rfl⟩ : ∃ inner, room = inner + 1 := ⟨room - 1, by omega⟩
    have second := TokenCursor.ahead_advance_of_enclosed hc
    have inner := h.complete (by omega : _ ≤ room) second
      (fun kind listed => List.mem_singleton.1 listed) (by simpa using hk)
    exact declaration_block ho hk hc inner
  | .expression h hs, _, _, _, fits, hc => declaration_expression h hs fits hc

/-- Declarations with derivations are read up to the end or a token that stops them. -/
theorem Program.complete {tokens : List Token} {nesting : Nat} {statements : List Stmt} :
    Program tokens nesting statements → ∀ {room : Nat} {c : TokenCursor} {rest : List Token}
      {stops : List TokenKind}, nesting ≤ room → c.ahead = tokens ++ rest →
      (∀ kind ∈ stops, kind = .rightBrace) → (∀ token ∈ rest.head?, token.kind ∈ stops) →
      Parse.allDeclarations stops (Parse.declaration room) c =
        ⟨statements, [], c.skip tokens.length⟩
  | .nil, room, c, rest, stops, _, hc, _, stopped => by
    apply Parse.allDeclarations_of_stop
    cases rest with
    | nil => exact .inl hc
    | cons token rest =>
      right
      rw [TokenCursor.current_of_ahead hc]
      exact stopped token rfl
  | @Program.cons tokens more _ _ _ _ h hs, room, c, rest, stops, fits, hc, braces, stopped => by
    have fits' := Nat.max_le.1 fits
    have split : c.ahead = tokens ++ (more ++ rest) := by rw [hc, List.append_assoc]
    have first := h.complete fits'.1 split
    have others := hs.complete fits'.2 (TokenCursor.ahead_skip_of_append split) braces stopped
    obtain ⟨token, others', rfl, hk⟩ := h.head
    have going : c.current.kind ∉ stops := by
      rw [TokenCursor.current_of_ahead split]
      exact fun listed => hk (braces _ listed)
    exact allDeclarations_cons split (List.cons_ne_nil _ _) going first others

end

/-- A program with a derivation that fits the room is read to the end. -/
theorem complete_program {room nesting : Nat} {c : TokenCursor} {statements : List Stmt}
    (h : Program c.ahead nesting statements) (fits : nesting ≤ room) :
    Parse.program room c = ⟨statements, [], c.skip c.ahead.length⟩ :=
  h.complete fits (List.append_nil _).symm (by simp) (by simp)

/-- The tokens determine the tree of a program. -/
theorem Program.unique {tokens : List Token} {m n : Nat} {statements statements' : List Stmt}
    (h : Program tokens m statements) (h' : Program tokens n statements') :
    statements = statements' := by
  -- a parse in room for both derivations comes to both trees
  let stop : Token := { kind := .eof, lexeme := "" }
  let c := TokenCursor.start tokens stop stop
  have read : Parse.program (max m n) c = _ := complete_program h (Nat.le_max_left m n)
  have read' : Parse.program (max m n) c = _ := complete_program h' (Nat.le_max_right m n)
  rw [read] at read'
  exact congrArg Declarations.statements read'

end Grammar

end LoxCheck
