import LoxCheck.Proofs.Acceptance
import LoxCheck.Proofs.Spelling

/-!
# Chains of assignments

A chain of equals signs is read from the right: each side but the last is a target for what its
equals sign is followed by. A target that is a single name makes an assignment. Any other is an
error at its equals sign, and stands for the whole: what was assigned to it is dropped from the
tree, but not the errors that were found there.
-/

namespace LoxCheck

namespace Grammar

/-- One side of a chain of equals signs: tokens that derive from an equality. -/
structure Side where
  tokens : List Token
  nesting : Nat
  tree : Expr
  derives : Derives (.binary .equality) tokens nesting tree

/-- The name that a side is, if it is nothing but a name. -/
def Side.name? (side : Side) : Option Token :=
  match side.tokens with
  | [token] => if token.kind = .identifier then some token else none
  | _ => none

/-- A side before an equals sign. -/
structure Target extends Side where
  equals : Token
  is_equals : equals.kind = .equal

namespace Target

/-- The tree of an assignment to a target. -/
def assign (target : Target) (value : Expr) : Expr :=
  match target.name? with
  | some name => .assign name value
  | none => target.tree

/-- The error of a target that is no name. -/
def error (target : Target) : SyntaxError :=
  ⟨target.equals.line, .invalidTarget, some target.equals.lexeme⟩

end Target

/-- The sides of a chain from the left to the right. -/
def chainSides (targets : List Target) (last : Side) : List Side :=
  targets.map (·.toSide) ++ [last]

/-- The tokens of a chain. -/
def chainTokens (targets : List Target) (last : Side) : List Token :=
  targets.flatMap (fun target => target.tokens ++ [target.equals]) ++ last.tokens

/-- The tree of a chain. -/
def chainTree (targets : List Target) (last : Side) : Expr :=
  targets.foldr Target.assign last.tree

/-- The errors of a chain. A target is found out after what is assigned to it was read, so that the
last one comes first. -/
def chainErrors (targets : List Target) : List SyntaxError :=
  (targets.filter (·.name?.isNone)).reverse.map Target.error

/-- Each side of a chain is one level deeper than the one before it, and the first is one deep. -/
def ChainFits (room : Nat) (sides : List Side) : Prop :=
  ∀ place side, sides[place]? = some side → side.nesting + (place + 1) ≤ room

/-! ## Targets -/

theorem Derives.equality_of_unary {tokens : List Token} {nesting : Nat} {tree : Expr}
    (h : Derives .unary tokens nesting tree) :
    Derives (.binary .equality) tokens nesting tree := by
  have factor : Derives (.binary .factor) tokens nesting tree := .operand h
  exact .operand (.operand (.operand factor))

theorem derives_name {name : Token} (hn : name.kind = .identifier) :
    Derives (.binary .equality) [name] 0 (.reference name) :=
  .equality_of_unary (.primary (.reference hn))

theorem Side.tokens_of_name? {side : Side} {name : Token} (h : side.name? = some name) :
    side.tokens = [name] ∧ name.kind = .identifier := by
  unfold name? at h
  split at h
  · next token alone =>
    split at h
    · next hn =>
      obtain rfl := Option.some.inj h
      exact ⟨alone, hn⟩
    · exact absurd h (by simp)
  · exact absurd h (by simp)

/-- A side is nothing but a name if and only if its tree is one. -/
theorem Side.name?_eq_some_iff {side : Side} {name : Token} :
    side.name? = some name ↔ side.tree = .reference name := by
  constructor
  · intro named
    obtain ⟨alone, hn⟩ := tokens_of_name? named
    have derives := side.derives
    rw [alone] at derives
    exact derives.unique (derives_name hn)
  · intro reference
    have derives := side.derives
    rw [reference] at derives
    obtain ⟨alone, hn⟩ := derives.of_reference
    simp [name?, alone, hn]

/-- What is made of a target and of the value behind its equals sign. -/
theorem Target.assign_cases (target : Target) (value : Expr) :
    (∃ name, target.tree = .reference name ∧ target.name?.isNone = false ∧
      target.assign value = .assign name value) ∨
    ((∀ name, target.tree ≠ .reference name) ∧ target.name?.isNone = true ∧
      target.assign value = target.tree) := by
  cases named : target.name? with
  | some name =>
    refine .inl ⟨name, Side.name?_eq_some_iff.1 named, rfl, ?_⟩
    rw [assign, named]
  | none =>
    refine .inr ⟨fun name reference => ?_, rfl, ?_⟩
    · rw [Side.name?_eq_some_iff.2 reference] at named
      exact absurd named (by simp)
    · rw [assign, named]

theorem Target.error_eq (target : Target) :
    SyntaxError.at .invalidTarget target.equals = target.error := by
  simp [SyntaxError.at, target.is_equals, error]

theorem chainTokens_cons (target : Target) (targets : List Target) (last : Side) :
    chainTokens (target :: targets) last =
      target.tokens ++ target.equals :: chainTokens targets last := by
  simp [chainTokens]

theorem chainErrors_cons (target : Target) (targets : List Target) :
    chainErrors (target :: targets) =
      chainErrors targets ++ if target.name?.isNone then [target.error] else [] := by
  unfold chainErrors
  rw [List.filter_cons]
  split <;> simp

/-- A target, its equals sign and a value that was read are an assignment, or an error and the
target alone. -/
theorem assignmentWith_of_target {target : Target} {unary expression : Parse Expr}
    {c between after : TokenCursor} {rest : List Token} {value : Expr} {errors : List SyntaxError}
    (first : Parse.equality unary c = ⟨some target.tree, [], between⟩)
    (equals : between.ahead = target.equals :: rest)
    (second : expression between.advance = ⟨some value, errors, after⟩) :
    Parse.assignmentWith unary expression c =
      ⟨some (target.assign value),
        errors ++ if target.name?.isNone then [target.error] else [], after⟩ := by
  have taken := Parse.takeIf_of_mem equals
    (by simp [target.is_equals] : target.equals.kind ∈ [TokenKind.equal])
  refine (Parse.andThen_of_eq first).trans ((Parse.andThen_of_eq taken).trans ?_)
  rcases target.assign_cases value with ⟨name, tree, named, eq⟩ | ⟨other, unnamed, eq⟩
  · rw [eq, named]
    refine Parse.andThen_eq_append second ?_
    rw [tree]
    rfl
  · rw [eq, unnamed, ← target.error_eq]
    refine Parse.andThen_eq_append second ?_
    cases tree : target.tree with
    | reference name => exact absurd tree (other name)
    | _ => rfl

/-! ## Chains -/

section

variable {room : Nat} {targets : List Target} {last : Side} {c : TokenCursor} {rest : List Token}

theorem ChainFits.head {side : Side} {sides : List Side} (h : ChainFits room (side :: sides)) :
    side.nesting + 1 ≤ room :=
  h 0 side rfl

theorem ChainFits.tail {side : Side} {sides : List Side}
    (h : ChainFits (room + 1) (side :: sides)) : ChainFits room sides := by
  intro place other found
  have deeper := h (place + 1) other found
  omega

/-- A chain is read up to something that does not go on with it. -/
theorem expression_chain (fits : ChainFits room (chainSides targets last))
    (hc : c.ahead = chainTokens targets last ++ rest) (ends : Ends .expression rest) :
    Parse.expression room c =
      ⟨some (chainTree targets last), chainErrors targets,
        c.skip (chainTokens targets last).length⟩ := by
  induction targets generalizing room c with
  | nil =>
    have derives : Derives .expression last.tokens (last.nesting + 1) last.tree :=
      .expression (.equality last.derives)
    exact derives.complete room c rest fits.head hc ends
  | cons target targets ih =>
    -- the value is one level deeper than its target
    have level : target.nesting + 1 ≤ room := fits.head
    obtain ⟨room, rfl⟩ : ∃ inner, room = inner + 1 := ⟨room - 1, by omega⟩
    have split : c.ahead =
        target.tokens ++ target.equals :: (chainTokens targets last ++ rest) := by
      rw [hc, chainTokens_cons, List.append_assoc, List.cons_append]
    have first : Parse.equality (Parse.unary room) c =
        ⟨some target.tree, [], c.skip target.tokens.length⟩ :=
      target.derives.complete room c _ (by omega) split
        (ends_cons (by rw [target.is_equals]; decide))
    have equals := TokenCursor.ahead_skip_of_append split
    have value := ih fits.tail (TokenCursor.ahead_advance_of_ahead equals)
    have place : (c.skip target.tokens.length).advance.skip (chainTokens targets last).length =
        c.skip (chainTokens (target :: targets) last).length := by
      rw [← TokenCursor.skip_succ, TokenCursor.skip_skip, chainTokens_cons, List.length_append,
        List.length_cons]
    rw [chainErrors_cons, ← place]
    exact assignmentWith_of_target first equals value

/-- A chain begins like its first side. -/
theorem head_chainTokens (targets : List Target) (last : Side) :
    ∃ first others, chainTokens targets last = first :: others ∧
      first.kind ∈ expressionStarters := by
  cases targets with
  | nil => exact last.derives.head
  | cons target targets =>
    obtain ⟨first, others, eq, starts⟩ := target.derives.head
    exact ⟨first, _, by rw [chainTokens_cons, eq, List.cons_append], starts⟩

theorem readable_chainTokens (targets : List Target) (last : Side) :
    ∀ token ∈ chainTokens targets last, token.kind ≠ .eof := by
  induction targets with
  | nil => exact last.derives.readable
  | cons target targets ih =>
    rw [chainTokens_cons]
    refine List.forall_mem_append.2 ⟨target.derives.readable, List.forall_mem_cons.2 ⟨?_, ih⟩⟩
    rw [target.is_equals]
    decide

/-- A program of one declaration. -/
theorem program_of_declaration {c after : TokenCursor} {statement : Stmt}
    {errors : List SyntaxError} (nonempty : c.ahead ≠ [])
    (read : Parse.declaration room c = ⟨some statement, errors, after⟩)
    (ended : after.ahead = []) : Parse.program room c = ⟨[statement], errors, after⟩ := by
  have advances : Parse.Advances (Parse.declaration room) :=
    fun _ => Parse.declaration_progress room
  have others : Parse.allDeclarations [] (Parse.declaration room) after = ⟨[], [], after⟩ :=
    Parse.allDeclarations_of_stop (.inl ended)
  show Parse.allDeclarations [] (Parse.declaration room) c = _
  rw [Parse.allDeclarations_of_go advances nonempty List.not_mem_nil, read, others]
  simp only [Option.toList_some, List.append_nil]

/-- A chain with a semicolon behind it is one statement. -/
theorem program_chain {semicolon : Token} (fits : ChainFits room (chainSides targets last))
    (hs : semicolon.kind = .semicolon) (hc : c.ahead = chainTokens targets last ++ [semicolon]) :
    Parse.program room c =
      ⟨[.expression (chainTree targets last)], chainErrors targets,
        (c.skip (chainTokens targets last).length).advance⟩ := by
  have read := expression_chain fits hc (ends_cons (by rw [hs]; decide))
  have behind := TokenCursor.ahead_skip_of_append hc
  obtain ⟨first, others, eq, starts⟩ := head_chainTokens targets last
  have next : c.ahead = first :: (others ++ [semicolon]) := by rw [hc, eq, List.cons_append]
  have nonempty : c.ahead ≠ [] := by
    rw [next]
    exact List.cons_ne_nil _ _
  exact program_of_declaration nonempty (declaration_of_expression next starts read behind hs)
    (TokenCursor.ahead_advance_of_ahead behind)

end

end Grammar

/-- Targets that are no names cost one error each and nothing else. Sides that derive from
equalities, with equals signs between them and a semicolon behind, are one statement, if each side
fits the limit one level deeper than the one before it. Every target that is not just a name is
reported at its equals sign, and no other error is. The tree is that of the first side where that is
such a target or the last side, and otherwise assigns the tree of the rest to its name. -/
theorem parse_chain {targets : List Grammar.Target} {last : Grammar.Side} {semicolon stop : Token}
    (hs : semicolon.kind = .semicolon) (ends : stop.kind = .eof) {maxDepth : Int}
    (fits : ∀ place side, (Grammar.chainSides targets last)[place]? = some side →
      ((side.nesting + (place + 1) : Nat) : Int) ≤ maxDepth) :
    ∃ d, parse (Grammar.chainTokens targets last ++ [semicolon] ++ [stop]) maxDepth = .ok d ∧
      d.statements = [.expression (Grammar.chainTree targets last)] ∧
      d.errors = ((targets.filter (·.name?.isNone)).reverse.map fun target =>
        ⟨target.equals.line, .invalidTarget, some target.equals.lexeme⟩) ∧
      ∀ e ∈ d.errors, e.problem.message = "Invalid assignment target." := by
  have readable : ∀ token ∈ Grammar.chainTokens targets last ++ [semicolon],
      token.kind ≠ .eof :=
    List.forall_mem_append.2 ⟨Grammar.readable_chainTokens targets last, by simp [hs]⟩
  have levels : Grammar.ChainFits (room maxDepth 0) (Grammar.chainSides targets last) := by
    intro place side found
    have within := fits place side found
    rw [le_room_iff]
    omega
  have read := Grammar.program_chain levels hs
    (rfl : (TokenCursor.start _ stop stop).ahead = Grammar.chainTokens targets last ++ [semicolon])
  refine ⟨_, parse_append_singleton readable ends maxDepth, ?_⟩
  rw [read]
  refine ⟨rfl, rfl, fun e he => ?_⟩
  obtain ⟨target, -, rfl⟩ := List.mem_map.1 he
  rfl

/-- The sides `b`, `(a)` and `-c`, with equals signs on the lines from 1 to 3. -/
def mixedTargets : List Grammar.Target :=
  [{ tokens := [⟨.identifier, "b", .nil, 1⟩]
     nesting := 0
     tree := .reference ⟨.identifier, "b", .nil, 1⟩
     derives := Grammar.derives_name rfl
     equals := ⟨.equal, "=", .nil, 1⟩
     is_equals := rfl },
   { tokens := ⟨.leftParen, "(", .nil, 2⟩ :: [⟨.identifier, "a", .nil, 2⟩] ++
       [⟨.rightParen, ")", .nil, 2⟩]
     nesting := 1
     tree := .grouping (.reference ⟨.identifier, "a", .nil, 2⟩)
     derives := .equality_of_unary
       (.primary (.grouping rfl rfl (.expression (.equality (Grammar.derives_name rfl)))))
     equals := ⟨.equal, "=", .nil, 2⟩
     is_equals := rfl },
   { tokens := [⟨.minus, "-", .nil, 3⟩, ⟨.identifier, "c", .nil, 3⟩]
     nesting := 1
     tree := .unary ⟨.minus, "-", .nil, 3⟩ (.reference ⟨.identifier, "c", .nil, 3⟩)
     derives := .equality_of_unary (.unary (.inr rfl) (.primary (.reference rfl)))
     equals := ⟨.equal, "=", .nil, 3⟩
     is_equals := rfl }]

/-- The side `1`. -/
def lastSide : Grammar.Side where
  tokens := [⟨.number, "1", .number .one, 4⟩]
  nesting := 0
  tree := .literal (.number .one)
  derives := .equality_of_unary (.primary (.literal (.inl rfl)))

/-- The tokens of `b = (a) = -c = 1;` need four levels, and assign `(a)` to `b`. -/
theorem parse_chain_mixed :
    ∃ d, parse [⟨.identifier, "b", .nil, 1⟩, ⟨.equal, "=", .nil, 1⟩, ⟨.leftParen, "(", .nil, 2⟩,
        ⟨.identifier, "a", .nil, 2⟩, ⟨.rightParen, ")", .nil, 2⟩, ⟨.equal, "=", .nil, 2⟩,
        ⟨.minus, "-", .nil, 3⟩, ⟨.identifier, "c", .nil, 3⟩, ⟨.equal, "=", .nil, 3⟩,
        ⟨.number, "1", .number .one, 4⟩, ⟨.semicolon, ";", .nil, 4⟩, ⟨.eof, "", .nil, 4⟩] 4 =
          .ok d ∧
      d.statements = [.expression (.assign ⟨.identifier, "b", .nil, 1⟩
        (.grouping (.reference ⟨.identifier, "a", .nil, 2⟩)))] ∧
      d.errors = [⟨3, .invalidTarget, some "="⟩, ⟨2, .invalidTarget, some "="⟩] := by
  have fits : ∀ place side, (Grammar.chainSides mixedTargets lastSide)[place]? = some side →
      ((side.nesting + (place + 1) : Nat) : Int) ≤ 4
    | 0, _, rfl | 1, _, rfl | 2, _, rfl | 3, _, rfl => by decide
    | place + 4, side, found => by simp [Grammar.chainSides, mixedTargets] at found
  obtain ⟨d, parsed, statements, errors, -⟩ :=
    @parse_chain mixedTargets lastSide ⟨.semicolon, ";", .nil, 4⟩ ⟨.eof, "", .nil, 4⟩ rfl rfl 4 fits
  exact ⟨d, parsed, statements, errors⟩

end LoxCheck
