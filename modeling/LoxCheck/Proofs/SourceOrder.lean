import LoxCheck.Proofs.ReachableStates
import Mathlib.Data.List.Forall2

/-!
# Trees keep the order of the source

No step of the grammar invents a token, uses one twice or puts one in another place. What a tree
holds of the source, its names, operators and literals from left to right, was read from tokens that
stand in this order, whatever was dropped, skipped or reported on the way.
-/

namespace LoxCheck

/-! ## What a tree holds of the source -/

/-- A name or an operator, which a tree keeps by its token, or a literal, which it keeps by its
value. -/
inductive Leaf where
  | name (token : Token)
  | operator (token : Token)
  | literal (value : Value)
  deriving DecidableEq, Repr

/-- The names, operators and literals of an expression from left to right. -/
def Expr.leaves : Expr → List Leaf
  | .literal value => [.literal value]
  | .grouping inner => inner.leaves
  | .unary operator operand => .operator operator :: operand.leaves
  | .binary left operator right => left.leaves ++ .operator operator :: right.leaves
  | .reference name => [.name name]
  | .assign name value => .name name :: value.leaves

mutual

/-- The names, operators and literals of a statement from left to right. -/
def Stmt.leaves : Stmt → List Leaf
  | .expression expr => expr.leaves
  | .print expr => expr.leaves
  | .declaration name initializer => .name name :: initializer.elim [] Expr.leaves
  | .block statements => Stmt.allLeaves statements

/-- The names, operators and literals of some statements, one statement after the other. -/
def Stmt.allLeaves : List Stmt → List Leaf
  | [] => []
  | statement :: rest => statement.leaves ++ Stmt.allLeaves rest

end

/-- A leaf is what a token says: the token itself, the value it carries, or the value that its
keyword stands for. -/
inductive Leaf.ReadFrom : Leaf → Token → Prop where
  | name {token : Token} : token.kind = .identifier → ReadFrom (.name token) token
  | operator {token : Token} : token.kind ∈ operatorKinds → ReadFrom (.operator token) token
  | literal {token : Token} : token.kind = .number ∨ token.kind = .string →
    ReadFrom (.literal token.literal) token
  | kwTrue {token : Token} : token.kind = .kwTrue → ReadFrom (.literal (.boolean true)) token
  | kwFalse {token : Token} : token.kind = .kwFalse → ReadFrom (.literal (.boolean false)) token
  | kwNil {token : Token} : token.kind = .kwNil → ReadFrom (.literal .nil) token

/-! ## Leaves between two cursors -/

/-- On the way from one cursor to another the leaves were read in order, each from a token of its
own. -/
def Gathered (c : TokenCursor) (leaves : List Leaf) (after : TokenCursor) : Prop :=
  ∃ n, c.Onward after n ∧ List.SublistForall₂ Leaf.ReadFrom leaves (c.ahead.take n)

namespace Gathered

variable {c between after : TokenCursor} {leaves leaves' : List Leaf} {token : Token}

/-- Tokens may be passed over. -/
theorem nothing {n : Nat} (h : c.Onward after n) : Gathered c [] after := ⟨n, h, .nil⟩

/-- What was gathered may be thrown away. -/
theorem discard (h : Gathered c leaves after) : Gathered c [] after := by
  obtain ⟨n, moved, -⟩ := h
  exact nothing moved

theorem passed (h : c.ahead = token :: c.advance.ahead) : Gathered c [] c.advance :=
  nothing (Parse.onward_advance h)

theorem one {leaf : Leaf} (h : c.ahead = token :: c.advance.ahead) (read : leaf.ReadFrom token) :
    Gathered c [leaf] c.advance := by
  refine ⟨1, Parse.onward_advance h, ?_⟩
  rw [h, List.take_succ_cons, List.take_zero]
  exact .cons read .nil

/-- What is gathered later comes from tokens further on. -/
theorem trans (first : Gathered c leaves between) (second : Gathered between leaves' after) :
    Gathered c (leaves ++ leaves') after := by
  obtain ⟨m, moved, read⟩ := first
  obtain ⟨n, moved', read'⟩ := second
  rw [List.sublistForall₂_iff] at read read'
  obtain ⟨kept, from_kept, sub⟩ := read
  obtain ⟨kept', from_kept', sub'⟩ := read'
  rw [moved.ahead] at sub'
  refine ⟨m + n, moved.trans moved', List.sublistForall₂_iff.2 ⟨kept ++ kept', ?_, ?_⟩⟩
  · exact List.rel_append from_kept from_kept'
  · rw [List.take_add]
    exact sub.append sub'

end Gathered

namespace Parse

variable {α : Type}

/-! ## Expressions -/

/-- A step whose results hold what was read for them, in order. -/
def Gathers (p : Parse α) (leaves : α → List Leaf) : Prop :=
  ∀ c, p.Ensures c fun a _ after => Gathered c (leaves a) after

/-- A step that goes on from where something was gathered already. -/
theorem Gathers.after {p : Parse α} {leaves : α → List Leaf} (h : Gathers p leaves)
    {start c : TokenCursor} {earlier : List Leaf} (first : Gathered start earlier c) :
    p.Ensures c fun a _ after => Gathered start (earlier ++ leaves a) after :=
  fun a ha => first.trans (h c a ha)

/-- A chain holds its left operand, and then each operator with the operand behind it. -/
theorem gathers_binaryTail {operators : List TokenKind}
    (listed : ∀ kind ∈ operators, kind ∈ operatorKinds) {operand : Parse Expr}
    (ho : Gathers operand Expr.leaves) (fuel : List Token) {start c : TokenCursor} {left : Expr}
    (h : Gathered start left.leaves c) :
    (binaryTail operators operand fuel left).Ensures c fun tree _ after =>
      Gathered start tree.leaves after := by
  induction fuel generalizing c left with
  | nil => exact .done h
  | cons token fuel ih =>
    refine .takeIf (fun operator hc hk => ?_) fun _ => .done h
    have read : Gathered start (left.leaves ++ [.operator operator]) c.advance :=
      h.trans (.one hc (.operator (listed _ hk)))
    refine .andThen (ho.after read) fun right _ _ whole => ih ?_
    rwa [List.append_assoc] at whole

theorem gathers_binaryLevel {operators : List TokenKind}
    (listed : ∀ kind ∈ operators, kind ∈ operatorKinds) {operand : Parse Expr}
    (ho : Gathers operand Expr.leaves) : Gathers (binaryLevel operators operand) Expr.leaves :=
  fun c => .andThen (ho c) fun _ _ after h => gathers_binaryTail listed ho after.ahead h

theorem gathers_equality {unary : Parse Expr} (hu : Gathers unary Expr.leaves) :
    Gathers (equality unary) Expr.leaves :=
  @equality_of_levels (fun p _ => Gathers p Expr.leaves)
    (fun listed ho => gathers_binaryLevel listed ho) unary unary hu

/-- The value of an assignment is thrown away if its target is no name. -/
theorem gathers_assignmentWith {unary expression : Parse Expr} (hu : Gathers unary Expr.leaves)
    (he : Gathers expression Expr.leaves) :
    Gathers (assignmentWith unary expression) Expr.leaves := by
  intro c
  refine .andThen (gathers_equality hu c) fun target _ _ h => ?_
  refine .takeIf (fun equals hc _ => ?_) fun _ => .done h
  have passed := h.trans (.passed hc)
  rw [List.append_nil] at passed
  refine .andThen (he _) fun value _ _ read => ?_
  cases target with
  | reference name => exact .done (passed.trans read)
  | _ =>
    have kept := passed.trans read.discard
    rw [List.append_nil] at kept
    exact .report (.done kept)

theorem gathers_primaryWith {expression : Parse Expr} (he : Gathers expression Expr.leaves) :
    Gathers (primaryWith expression) Expr.leaves := by
  intro c
  rw [primaryWith_eq]
  refine .takeIf (fun token hc hk => .done (.one hc (.kwFalse (by simpa using hk)))) fun _ => ?_
  refine .takeIf (fun token hc hk => .done (.one hc (.kwTrue (by simpa using hk)))) fun _ => ?_
  refine .takeIf (fun token hc hk => .done (.one hc (.kwNil (by simpa using hk)))) fun _ => ?_
  refine .takeIf (fun token hc hk => .done (.one hc (.literal (by simpa using hk)))) fun _ => ?_
  refine .takeIf (fun name hc hk => .done (.one hc (.name (by simpa using hk)))) fun _ => ?_
  refine .takeIf (fun opening hc _ => ?_) fun _ => .fail
  refine .andThen (he.after (.passed hc)) fun inner _ _ h => .expect fun closing hc' _ => ?_
  have closed := h.trans (.passed hc')
  rw [List.append_nil] at closed
  exact .done closed

theorem gathers_unaryWith {operand expression : Parse Expr} (ho : Gathers operand Expr.leaves)
    (he : Gathers expression Expr.leaves) :
    Gathers (unaryWith operand expression) Expr.leaves := by
  have listed : ∀ kind ∈ [TokenKind.bang, .minus], kind ∈ operatorKinds := by decide
  intro c
  refine .takeIf (fun operator hc hk => ?_) fun _ => gathers_primaryWith he c
  exact .andThen (ho.after (.one hc (.operator (listed _ hk)))) fun _ _ _ h => .done h

theorem gathers_fail {leaves : α → List Leaf} {problem : SyntaxProblem} :
    Gathers (fail problem) leaves :=
  fun _ => .fail

theorem gathers_expression_and_unary (room : Nat) :
    Gathers (expression room) Expr.leaves ∧ Gathers (unary room) Expr.leaves := by
  -- what is in an expression has one level less, and so has the operand of a unary operator
  induction room with
  | zero => exact ⟨gathers_fail, gathers_unaryWith gathers_fail gathers_fail⟩
  | succ room ih =>
    have expression : Gathers (Parse.expression (room + 1)) Expr.leaves :=
      gathers_assignmentWith ih.2 ih.1
    exact ⟨expression, gathers_unaryWith ih.2 expression⟩

theorem gathers_expression (room : Nat) : Gathers (expression room) Expr.leaves :=
  (gathers_expression_and_unary room).1

/-! ## Statements -/

section

variable {expression : Parse Expr} {start c : TokenCursor}

/-- An expression with a semicolon behind it. -/
theorem gathers_terminated (he : Gathers expression Expr.leaves) {problem : SyntaxProblem}
    {make : Expr → Stmt} (made : ∀ expr, (make expr).leaves = expr.leaves)
    (h : Gathered start [] c) :
    (expression.andThen fun expr => (expect .semicolon problem).andThen fun _ =>
      done (make expr)).Ensures c fun statement _ after =>
        Gathered start statement.leaves after := by
  refine .andThen (he.after h) fun expr _ _ read => .expect fun semicolon hc _ => .done ?_
  have closed := read.trans (.passed hc)
  rwa [List.append_nil, List.nil_append, ← made] at closed

theorem gathers_initializer (he : Gathers expression Expr.leaves) :
    Gathers (initializer expression) fun value => value.elim [] Expr.leaves := by
  intro c
  refine .takeIf (fun equals hc _ => ?_) fun _ => .done (.nothing (.refl c))
  exact .andThen (he.after (.passed hc)) fun _ _ _ h => .done h

theorem gathers_varDeclaration (he : Gathers expression Expr.leaves) (h : Gathered start [] c) :
    (varDeclaration expression).Ensures c fun statement _ after =>
      Gathered start statement.leaves after := by
  refine .expect fun name hc hk => ?_
  have named := h.trans (.one hc (.name hk))
  refine .andThen ((gathers_initializer he).after named) fun value _ _ read => ?_
  refine .expect fun semicolon hc' _ => .done ?_
  have closed := read.trans (.passed hc')
  rwa [List.append_nil] at closed

theorem gathers_declarationWith {block : Parse Stmt} (he : Gathers expression Expr.leaves)
    (hb : Gathers block Stmt.leaves) :
    Gathers (declarationWith expression block) Stmt.leaves := by
  intro c
  refine .recovering (.takeIf (fun _ hc _ => gathers_varDeclaration he (.passed hc)) fun _ => ?_)
  refine .takeIf (fun _ hc _ => gathers_terminated he (fun _ => rfl) (.passed hc)) fun _ => ?_
  refine .takeIf (fun _ hc _ => hb.after (.passed hc)) fun _ => ?_
  exact gathers_terminated he (fun _ => rfl) (.nothing (.refl c))

end

/-- A declaration that is dropped leaves nothing behind. -/
theorem gathered_declarations {declaration : Parse Stmt} (hd : Gathers declaration Stmt.leaves)
    (moves : Moves declaration) (stops : List TokenKind) (fuel : List Token) (c : TokenCursor) :
    Gathered c (Stmt.allLeaves (declarations stops declaration fuel c).statements)
      (declarations stops declaration fuel c).cursor := by
  induction fuel generalizing c with
  | nil => exact .nothing (.refl c)
  | cons token fuel ih =>
    unfold declarations
    split
    · exact .nothing (.refl c)
    · have others := ih (declaration c).cursor
      cases hr : (declaration c).result with
      | none =>
        obtain ⟨n, moved⟩ := moves c
        simpa [hr] using (Gathered.nothing moved).trans others
      | some statement =>
        have first := hd c statement hr
        simpa [hr, Stmt.allLeaves] using first.trans others

theorem gathers_block (room : Nat) : Gathers (block room) Stmt.leaves := by
  induction room with
  | zero => exact fun _ _ hr => absurd hr (by simp [block, overdeepBlock, fail])
  | succ room ih =>
    intro c statement hr
    have declaration : Gathers (declaration room) Stmt.leaves :=
      gathers_declarationWith (gathers_expression room) ih
    have moves : Moves (Parse.declaration room) := moves_closed.declaration (Nat.le_refl room)
    have body := gathered_declarations declaration moves [.rightBrace] c.ahead c
    change (blockWith (Parse.declaration room) c).result = some statement at hr
    show Gathered c statement.leaves (blockWith (Parse.declaration room) c).cursor
    rcases blockWith_cases (Parse.declaration room) c with ⟨closing, rest, hc, -, eq⟩ | ⟨-, eq⟩
    · rw [eq] at hr ⊢
      obtain rfl := Option.some.inj hr
      have closed := body.trans (.passed (TokenCursor.ahead_eq_cons hc))
      rwa [List.append_nil] at closed
    · rw [eq] at hr
      exact absurd hr (by simp)

/-- The statements of a program hold what was read for them, in order. -/
theorem gathered_program (room : Nat) (c : TokenCursor) :
    Gathered c (Stmt.allLeaves (program room c).statements) (program room c).cursor :=
  gathered_declarations (gathers_declarationWith (gathers_expression room) (gathers_block room))
    (moves_closed.declaration (Nat.le_refl room)) [] c.ahead c

end Parse

/-! ## The whole parse -/

/-- What was read in order from some of the tokens stands at ascending places. -/
theorem exists_places {leaves : List Leaf} {part tokens : List Token}
    (h : List.SublistForall₂ Leaf.ReadFrom leaves part) (sub : part.Sublist tokens) :
    ∃ places : List Nat, places.Pairwise (· < ·) ∧ (∀ place ∈ places, place < tokens.length) ∧
      List.Forall₂ (fun leaf place => ∃ token, tokens[place]? = some token ∧ leaf.ReadFrom token)
        leaves places := by
  rw [List.sublistForall₂_iff] at h
  obtain ⟨kept, read, sub'⟩ := h
  obtain ⟨places, rfl, ascending⟩ := List.sublist_eq_map_getElem (sub'.trans sub)
  rw [List.forall₂_map_right_iff] at read
  refine ⟨places.map (·.val), List.pairwise_map.2 ascending, ?_, ?_⟩
  · intro place listed
    obtain ⟨i, -, rfl⟩ := List.mem_map.1 listed
    exact i.isLt
  · rw [List.forall₂_map_right_iff]
    exact read.imp fun leaf i from_token => ⟨_, List.getElem?_eq_getElem i.isLt, from_token⟩

/-- The names, operators and literals of the statements that a parse returns, with or without
errors, stand from left to right at ascending places of the sequence, all of them in front of the
first end-of-source token: each is what the token at its place says. -/
theorem leaves_in_source_order {tokens : List Token} {last : Token}
    (present : tokens.getLast? = some last) (ends : last.kind = .eof) (maxDepth : Int) :
    ∃ d, parse tokens maxDepth = .ok d ∧
      ∃ places : List Nat, places.Pairwise (· < ·) ∧
        (∀ place ∈ places, place < tokens.findIdx (·.kind = .eof)) ∧
        List.Forall₂ (fun leaf place => ∃ token, tokens[place]? = some token ∧ leaf.ReadFrom token)
          (Stmt.allLeaves d.statements) places := by
  obtain ⟨ahead, stop, more, rfl, readable, hstop⟩ := TokenCursor.exists_readable present ends
  have found := TokenCursor.ofTokens?_append_cons readable hstop present ends
  obtain ⟨n, -, read⟩ := Parse.gathered_program (room maxDepth 0) (.start ahead stop last)
  obtain ⟨places, ascending, bound, placed⟩ := exists_places read (List.take_sublist n ahead)
  refine ⟨_, by rw [parse, found], places, ascending, ?_, ?_⟩
  · rw [TokenCursor.findIdx_eof readable hstop]
    exact bound
  · apply placed.imp
    intro leaf place at_place
    obtain ⟨token, here, from_token⟩ := at_place
    have inside : place < ahead.length := (List.getElem?_eq_some_iff.1 here).1
    exact ⟨token, by rwa [List.getElem?_append_left inside], from_token⟩

/-- The tokens of `1 = x; ) y; print -z;`: a target that is no name, and a statement that cannot be
read, in front of one that can. -/
def brokenBeforePrint : List Token :=
  [⟨.number, "1", .number .one, 1⟩, ⟨.equal, "=", .nil, 1⟩, ⟨.identifier, "x", .nil, 1⟩,
    ⟨.semicolon, ";", .nil, 1⟩, ⟨.rightParen, ")", .nil, 1⟩, ⟨.identifier, "y", .nil, 1⟩,
    ⟨.semicolon, ";", .nil, 1⟩, ⟨.kwPrint, "print", .nil, 1⟩, ⟨.minus, "-", .nil, 1⟩,
    ⟨.identifier, "z", .nil, 1⟩, ⟨.semicolon, ";", .nil, 1⟩, ⟨.eof, "", .nil, 1⟩]

/-- Neither the discarded value nor the dropped statement leaves anything in the trees. -/
theorem leaves_in_source_order_brokenBeforePrint :
    ∃ d, parse brokenBeforePrint 64 = .ok d ∧
      d.errors.map (·.problem) = [.invalidTarget, .expectExpression] ∧
      ∃ places : List Nat, places.Pairwise (· < ·) ∧ (∀ place ∈ places, place < 11) ∧
        List.Forall₂ (fun leaf place => ∃ token, brokenBeforePrint[place]? = some token ∧
            Leaf.ReadFrom leaf token)
          [.literal (.number .one), .operator ⟨.minus, "-", .nil, 1⟩,
            .name ⟨.identifier, "z", .nil, 1⟩] places := by
  obtain ⟨d, hd, places, ascending, bound, placed⟩ :=
    @leaves_in_source_order brokenBeforePrint _ rfl rfl 64
  have computed : some (d.errors.map (·.problem), Stmt.allLeaves d.statements) =
      (parse brokenBeforePrint 64).toOption.map fun d =>
        (d.errors.map (·.problem), Stmt.allLeaves d.statements) := by rw [hd]; rfl
  obtain ⟨problems, leaves⟩ := Prod.mk.inj (Option.some.inj computed)
  rw [leaves] at placed
  exact ⟨d, hd, problems, places, ascending, bound, placed⟩

end LoxCheck
