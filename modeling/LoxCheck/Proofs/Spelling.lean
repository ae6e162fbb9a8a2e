import LoxCheck.Proofs.Acceptance

/-!
# Spelling trees

A tree can be spelled as tokens again. Names and operators are spelled by the tokens the tree keeps,
everything else by tokens made from the kinds; no parentheses are added. The trees that a parse
returns are derived, errors or not, so their spelling is a program with just these trees.
-/

namespace LoxCheck

/-! ## Tokens for trees -/

/-- A token of a kind that has only one spelling. -/
def Token.ofKind (kind : TokenKind) : Token := { kind, lexeme := String.ofList kind.spelling }

@[simp] theorem Token.kind_ofKind (kind : TokenKind) : (Token.ofKind kind).kind = kind := rfl

/-- The token of a literal. Truth values and nothing are keywords, the other values are carried by
the token. -/
def Value.spell : Value → Token
  | .nil => .ofKind .kwNil
  | .boolean true => .ofKind .kwTrue
  | .boolean false => .ofKind .kwFalse
  | .number value => { kind := .number, lexeme := value.text, literal := .number value }
  | .text value =>
    { kind := .string, lexeme := String.ofList ('"' :: value.toList ++ ['"']),
      literal := .text value }

/-- The tokens of an expression. -/
def Expr.spell : Expr → List Token
  | .literal value => [value.spell]
  | .grouping inner => .ofKind .leftParen :: inner.spell ++ [.ofKind .rightParen]
  | .unary operator operand => operator :: operand.spell
  | .binary left operator right => left.spell ++ operator :: right.spell
  | .reference name => [name]
  | .assign name value => name :: .ofKind .equal :: value.spell

mutual

/-- The tokens of a statement. -/
def Stmt.spell : Stmt → List Token
  | .expression expr => expr.spell ++ [.ofKind .semicolon]
  | .print expr => .ofKind .kwPrint :: expr.spell ++ [.ofKind .semicolon]
  | .declaration name none => [.ofKind .kwVar, name, .ofKind .semicolon]
  | .declaration name (some value) =>
    .ofKind .kwVar :: name :: .ofKind .equal :: value.spell ++ [.ofKind .semicolon]
  | .block statements => .ofKind .leftBrace :: Stmt.spellAll statements ++ [.ofKind .rightBrace]

/-- The tokens of some statements, one statement after the other. -/
def Stmt.spellAll : List Stmt → List Token
  | [] => []
  | statement :: rest => statement.spell ++ Stmt.spellAll rest

end

namespace Grammar

/-! ## Spelling keeps derivations -/

/-- Every literal value is a literal. -/
theorem derives_spell (value : Value) : Derives .primary [value.spell] 0 (.literal value) := by
  match value with
  | .nil => exact .kwNil rfl
  | .boolean true => exact .kwTrue rfl
  | .boolean false => exact .kwFalse rfl
  | .number value => exact .literal (.inl rfl)
  | .text value => exact .literal (.inr rfl)

/-- The spelling of a derived tree derives from the same symbol, with the same nesting. -/
theorem Derives.spell {symbol : Nonterminal} {tokens : List Token} {nesting : Nat} {tree : Expr}
    (h : Derives symbol tokens nesting tree) : Derives symbol tree.spell nesting tree := by
  induction h with
  | expression _ ih => exact .expression ih
  | assign hn _ _ ih => exact .assign hn rfl ih
  | equality _ ih => exact .equality ih
  | operand _ ih => exact .operand ih
  | chain ho _ _ ihl ihr => exact .chain ho ihl ihr
  | unary ho _ ih => exact .unary ho ih
  | primary _ ih => exact .primary ih
  | literal _ => exact derives_spell _
  | kwTrue _ => exact derives_spell (.boolean true)
  | kwFalse _ => exact derives_spell (.boolean false)
  | kwNil _ => exact derives_spell .nil
  | reference hn => exact .reference hn
  | grouping _ _ _ ih => exact .grouping rfl rfl ih

mutual

theorem Declaration.spell {tokens : List Token} {nesting : Nat} {statement : Stmt} :
    Declaration tokens nesting statement → Declaration statement.spell nesting statement
  | .bare _ hn _ => by
    unfold Stmt.spell
    exact .bare rfl hn rfl
  | .initialized _ hn _ h _ => by
    unfold Stmt.spell
    exact .initialized rfl hn rfl h.spell rfl
  | .print _ h _ => by
    unfold Stmt.spell
    exact .print rfl h.spell rfl
  | .block _ h _ => by
    unfold Stmt.spell
    exact .block rfl h.spell rfl
  | .expression h _ => by
    unfold Stmt.spell
    exact .expression h.spell rfl

/-- The spelling of derived statements derives from a program, with the same nesting. -/
theorem Program.spell {tokens : List Token} {nesting : Nat} {statements : List Stmt} :
    Program tokens nesting statements → Program (Stmt.spellAll statements) nesting statements
  | .nil => by
    unfold Stmt.spellAll
    exact .nil
  | .cons h hs => by
    unfold Stmt.spellAll
    exact .cons h.spell hs.spell

end

/-! ## Derived tokens are no end-of-source tokens -/

theorem Derives.readable {symbol : Nonterminal} {tokens : List Token} {nesting : Nat} {tree : Expr}
    (h : Derives symbol tokens nesting tree) : ∀ token ∈ tokens, token.kind ≠ .eof := by
  induction h with
  | expression _ ih => exact ih
  | assign hn he _ ih => simpa [hn, he] using ih
  | equality _ ih => exact ih
  | operand _ ih => exact ih
  | @chain level operator _ _ _ _ _ _ ho _ _ ihl ihr =>
    have readable : operator.kind ≠ .eof := by
      intro ends
      rw [ends] at ho
      revert ho
      cases level <;> decide
    exact List.forall_mem_append.2 ⟨ihl, List.forall_mem_cons.2 ⟨readable, ihr⟩⟩
  | unary ho _ ih =>
    rcases ho with ho | ho <;> simpa [ho] using ih
  | primary _ ih => exact ih
  | literal ht => rcases ht with ht | ht <;> simp [ht]
  | kwTrue ht => simp [ht]
  | kwFalse ht => simp [ht]
  | kwNil ht => simp [ht]
  | reference hn => simp [hn]
  | grouping ho hc _ ih => exact readable_enclosed (by simp [ho]) ih (by simp [hc])

mutual

theorem Declaration.readable {tokens : List Token} {nesting : Nat} {statement : Stmt} :
    Declaration tokens nesting statement → ∀ token ∈ tokens, token.kind ≠ .eof
  | .bare hv hn hs => by simp [hv, hn, hs]
  | @Declaration.initialized var name equals semicolon _ _ _ hv hn he h hs => by
    have opening : equals.kind ≠ .eof := by simp [he]
    have closing : semicolon.kind ≠ .eof := by simp [hs]
    have value := readable_enclosed opening h.readable closing
    exact List.forall_mem_cons.2 ⟨by simp [hv], List.forall_mem_cons.2 ⟨by simp [hn], value⟩⟩
  | .print hp h hs => readable_enclosed (by simp [hp]) h.readable (by simp [hs])
  | .block ho h hc => readable_enclosed (by simp [ho]) h.readable (by simp [hc])
  | .expression h hs => List.forall_mem_append.2 ⟨h.readable, by simp [hs]⟩

/-- No token of a derived program ends the source. -/
theorem Program.readable {tokens : List Token} {nesting : Nat} {statements : List Stmt} :
    Program tokens nesting statements → ∀ token ∈ tokens, token.kind ≠ .eof
  | .nil => by simp
  | .cons h hs => List.forall_mem_append.2 ⟨h.readable, hs.readable⟩

end

end Grammar

/-! ## Parsing the spelling -/

/-- What a parse returns, with or without errors, is spelled by a program, and parsing the spelling
under the same limit returns it again, without an error. -/
theorem parse_spell {tokens : List Token} {last : Token} (present : tokens.getLast? = some last)
    (ends : last.kind = .eof) (maxDepth : Int) :
    ∃ d, parse tokens maxDepth = .ok d ∧
      ∀ stop : Token, stop.kind = .eof → ∃ after,
        parse (Stmt.spellAll d.statements ++ [stop]) maxDepth = .ok ⟨d.statements, [], after⟩ := by
  obtain ⟨start, hstart⟩ := TokenCursor.ofTokens?_of_getLast? present ends
  have parsed : parse tokens maxDepth = .ok (Parse.program (room maxDepth 0) start) := by
    rw [parse, hstart]
  refine ⟨_, parsed, fun stop hstop => ?_⟩
  obtain ⟨_, nesting, fits, h, -⟩ := Grammar.sound_program (room maxDepth 0) start
  -- what was read derives, its spelling derives too, and that is read again
  have spelled := h.spell
  rw [parse_append_singleton spelled.readable hstop]
  exact ⟨_, congrArg Except.ok (Grammar.complete_program spelled fits)⟩

/-- The tokens of `1 = 2;` have no valid target, and what is returned is spelled `1;`. -/
theorem parse_spell_invalid_target :
    ∃ d, parse [⟨.number, "1", .number .one, 1⟩, ⟨.equal, "=", .nil, 1⟩,
        ⟨.number, "2", .number .one, 1⟩, ⟨.semicolon, ";", .nil, 1⟩, ⟨.eof, "", .nil, 1⟩] 64 =
          .ok d ∧
      d.errors ≠ [] ∧
      ∀ stop : Token, stop.kind = .eof → ∃ after,
        parse (Stmt.spellAll d.statements ++ [stop]) 64 = .ok ⟨d.statements, [], after⟩ := by
  obtain ⟨d, hd, h⟩ := @parse_spell
    [⟨.number, "1", .number .one, 1⟩, ⟨.equal, "=", .nil, 1⟩, ⟨.number, "2", .number .one, 1⟩,
      ⟨.semicolon, ";", .nil, 1⟩, ⟨.eof, "", .nil, 1⟩] ⟨.eof, "", .nil, 1⟩ rfl rfl 64
  refine ⟨d, hd, ?_, h⟩
  have parsed : (parse _ 64).toOption.map (·.errors.isEmpty) = some d.errors.isEmpty :=
    congrArg (fun outcome => outcome.toOption.map (·.errors.isEmpty)) hd
  have reported : false = d.errors.isEmpty := Option.some.inj parsed
  exact fun silent => absurd reported (by simp [silent])

end LoxCheck
