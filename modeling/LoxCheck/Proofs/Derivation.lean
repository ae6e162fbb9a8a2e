import LoxCheck.Tree

/-!
# Derivations

The grammar as a relation between token sequences and syntax trees, stated apart from the functions
that read it:

    program      := declaration* EOF
    declaration  := varDecl | statement
    varDecl      := "var" IDENTIFIER ("=" expression)? ";"
    statement    := printStmt | block | exprStmt
    printStmt    := "print" expression ";"
    block        := "{" declaration* "}"
    exprStmt     := expression ";"
    expression   := assignment
    assignment   := (IDENTIFIER "=" assignment) | equality
    equality     := comparison (("!=" | "==") comparison)*
    comparison   := term ((">" | ">=" | "<" | "<=") term)*
    term         := factor (("-" | "+") factor)*
    factor       := unary (("/" | "*") unary)*
    unary        := ("!" | "-") unary | primary
    primary      := NUMBER | STRING | "true" | "false" | "nil"
                  | IDENTIFIER | "(" expression ")"

A derivation looks at the kinds of tokens only (`Program.of_kinds`). It has a tree, which keeps the
tokens of names and operators, and a nesting: each expression, the right side of an assignment,
each unary operator and each block opens one level.
-/

namespace LoxCheck

namespace Grammar

/-- The levels of binary operators, the loosest first. -/
inductive BinaryLevel where
  | equality | comparison | term | factor
  deriving DecidableEq, Repr

/-- What expressions and their parts derive from. -/
inductive Nonterminal where
  | expression | assignment
  | binary (level : BinaryLevel)
  | unary | primary
  deriving DecidableEq, Repr

namespace BinaryLevel

/-- The operators of a level. -/
def operators : BinaryLevel → List TokenKind
  | equality => [.bangEqual, .equalEqual]
  | comparison => [.greater, .greaterEqual, .less, .lessEqual]
  | term => [.minus, .plus]
  | factor => [.slash, .star]

/-- What the operands of a level derive from. -/
def operand : BinaryLevel → Nonterminal
  | equality => .binary comparison
  | comparison => .binary term
  | term => .binary factor
  | factor => .unary

end BinaryLevel

/-- `Derives symbol tokens nesting tree`: the tokens derive from the symbol by a derivation with
that nesting and that tree. A chain of operands and operators is read from the left: it is one
operand, or a chain followed by an operator and one more operand. -/
inductive Derives : Nonterminal → List Token → Nat → Expr → Prop where
  | expression {tokens nesting tree} :
    Derives .assignment tokens nesting tree → Derives .expression tokens (nesting + 1) tree
  | assign {name equals : Token} {tokens nesting value} :
    name.kind = .identifier → equals.kind = .equal → Derives .assignment tokens nesting value →
    Derives .assignment (name :: equals :: tokens) (nesting + 1) (.assign name value)
  | equality {tokens nesting tree} :
    Derives (.binary .equality) tokens nesting tree → Derives .assignment tokens nesting tree
  | operand {level : BinaryLevel} {tokens nesting tree} :
    Derives level.operand tokens nesting tree → Derives (.binary level) tokens nesting tree
  | chain {level : BinaryLevel} {operator : Token} {tokens more m n left right} :
    operator.kind ∈ level.operators → Derives (.binary level) tokens m left →
    Derives level.operand more n right →
    Derives (.binary level) (tokens ++ operator :: more) (max m n) (.binary left operator right)
  | unary {operator : Token} {tokens nesting tree} :
    operator.kind = .bang ∨ operator.kind = .minus → Derives .unary tokens nesting tree →
    Derives .unary (operator :: tokens) (nesting + 1) (.unary operator tree)
  | primary {tokens nesting tree} :
    Derives .primary tokens nesting tree → Derives .unary tokens nesting tree
  | literal {token : Token} :
    token.kind = .number ∨ token.kind = .string →
    Derives .primary [token] 0 (.literal token.literal)
  | kwTrue {token : Token} :
    token.kind = .kwTrue → Derives .primary [token] 0 (.literal (.boolean true))
  | kwFalse {token : Token} :
    token.kind = .kwFalse → Derives .primary [token] 0 (.literal (.boolean false))
  | kwNil {token : Token} :
    token.kind = .kwNil → Derives .primary [token] 0 (.literal .nil)
  | reference {name : Token} : name.kind = .identifier → Derives .primary [name] 0 (.reference name)
  | grouping {opening closing : Token} {tokens nesting tree} :
    opening.kind = .leftParen → closing.kind = .rightParen →
    Derives .expression tokens nesting tree →
    Derives .primary (opening :: tokens ++ [closing]) nesting (.grouping tree)

mutual

/-- The tokens derive from a declaration by a derivation with that nesting and that tree. -/
inductive Declaration : List Token → Nat → Stmt → Prop where
  | bare {var name semicolon : Token} :
    var.kind = .kwVar → name.kind = .identifier → semicolon.kind = .semicolon →
    Declaration [var, name, semicolon] 0 (.declaration name none)
  | initialized {var name equals semicolon : Token} {tokens nesting tree} :
    var.kind = .kwVar → name.kind = .identifier → equals.kind = .equal →
    Derives .expression tokens nesting tree → semicolon.kind = .semicolon →
    Declaration (var :: name :: equals :: tokens ++ [semicolon]) nesting
      (.declaration name (some tree))
  | print {print semicolon : Token} {tokens nesting tree} :
    print.kind = .kwPrint → Derives .expression tokens nesting tree →
    semicolon.kind = .semicolon →
    Declaration (print :: tokens ++ [semicolon]) nesting (.print tree)
  | block {opening closing : Token} {tokens nesting statements} :
    opening.kind = .leftBrace → Program tokens nesting statements →
    closing.kind = .rightBrace →
    Declaration (opening :: tokens ++ [closing]) (nesting + 1) (.block statements)
  | expression {semicolon : Token} {tokens nesting tree} :
    Derives .expression tokens nesting tree → semicolon.kind = .semicolon →
    Declaration (tokens ++ [semicolon]) nesting (.expression tree)

/-- The tokens are the declarations of a program or a block, by derivations with these trees, the
deepest of which has that nesting. -/
inductive Program : List Token → Nat → List Stmt → Prop where
  | nil : Program [] 0 []
  | cons {tokens more m n statement statements} :
    Declaration tokens m statement → Program more n statements →
    Program (tokens ++ more) (max m n) (statement :: statements)

end

/-- A list of token kinds is a program with a nesting if tokens of these kinds are. -/
def ProgramOfKinds (kinds : List TokenKind) (nesting : Nat) : Prop :=
  ∃ tokens statements, tokens.map (·.kind) = kinds ∧ Program tokens nesting statements

/-! ## The first token -/

/-- The kinds of the tokens that an expression can begin with. -/
def expressionStarters : List TokenKind :=
  [.bang, .minus, .number, .string, .kwTrue, .kwFalse, .kwNil, .identifier, .leftParen]

theorem Derives.head {symbol : Nonterminal} {tokens : List Token} {nesting : Nat} {tree : Expr}
    (h : Derives symbol tokens nesting tree) :
    ∃ token rest, tokens = token :: rest ∧ token.kind ∈ expressionStarters := by
  induction h with
  | expression _ ih => exact ih
  | @assign name equals tokens _ _ hn =>
    exact ⟨name, equals :: tokens, rfl, by simp [hn, expressionStarters]⟩
  | equality _ ih => exact ih
  | operand _ ih => exact ih
  | @chain _ operator _ more _ _ _ _ _ _ _ ih =>
    obtain ⟨token, rest, rfl, starts⟩ := ih
    exact ⟨token, rest ++ operator :: more, rfl, starts⟩
  | @unary operator tokens _ _ ho =>
    refine ⟨operator, tokens, rfl, ?_⟩
    rcases ho with ho | ho <;> simp [ho, expressionStarters]
  | primary _ ih => exact ih
  | @literal token ht =>
    refine ⟨token, [], rfl, ?_⟩
    rcases ht with ht | ht <;> simp [ht, expressionStarters]
  | @kwTrue token ht => exact ⟨token, [], rfl, by simp [ht, expressionStarters]⟩
  | @kwFalse token ht => exact ⟨token, [], rfl, by simp [ht, expressionStarters]⟩
  | @kwNil token ht => exact ⟨token, [], rfl, by simp [ht, expressionStarters]⟩
  | @reference name hn => exact ⟨name, [], rfl, by simp [hn, expressionStarters]⟩
  | @grouping opening closing tokens _ _ ho =>
    exact ⟨opening, tokens ++ [closing], rfl, by simp [ho, expressionStarters]⟩

/-- No primary expression begins with a unary operator. -/
theorem Derives.head_primary {tokens : List Token} {nesting : Nat} {tree : Expr}
    (h : Derives .primary tokens nesting tree) :
    ∃ token rest, tokens = token :: rest ∧ token.kind ∉ [TokenKind.bang, .minus] := by
  cases h with
  | literal ht =>
    refine ⟨_, _, rfl, ?_⟩
    rcases ht with ht | ht <;> simp [ht]
  | kwTrue ht => exact ⟨_, _, rfl, by simp [ht]⟩
  | kwFalse ht => exact ⟨_, _, rfl, by simp [ht]⟩
  | kwNil ht => exact ⟨_, _, rfl, by simp [ht]⟩
  | reference hn => exact ⟨_, _, rfl, by simp [hn]⟩
  | grouping ho => exact ⟨_, _, rfl, by simp [ho]⟩

/-- No declaration begins with the closing brace of a block. -/
theorem Declaration.head {tokens : List Token} {nesting : Nat} {statement : Stmt}
    (h : Declaration tokens nesting statement) :
    ∃ token rest, tokens = token :: rest ∧ token.kind ≠ .rightBrace := by
  cases h with
  | bare hv => exact ⟨_, _, rfl, by simp [hv]⟩
  | initialized hv => exact ⟨_, _, rfl, by simp [hv]⟩
  | print hp => exact ⟨_, _, rfl, by simp [hp]⟩
  | block ho => exact ⟨_, _, rfl, by simp [ho]⟩
  | expression he =>
    obtain ⟨token, rest, rfl, starts⟩ := he.head
    -- no expression begins with a brace
    refine ⟨token, _, rfl, fun brace => ?_⟩
    rw [brace] at starts
    exact absurd starts (by decide)

/-- Tokens between two others. -/
theorem readable_enclosed {opening closing : Token} {tokens : List Token}
    (ho : opening.kind ≠ .eof) (h : ∀ token ∈ tokens, token.kind ≠ .eof)
    (hc : closing.kind ≠ .eof) : ∀ token ∈ opening :: tokens ++ [closing], token.kind ≠ .eof :=
  List.forall_mem_append.2 ⟨List.forall_mem_cons.2 ⟨ho, h⟩, by simpa using hc⟩

/-! ## Only kinds matter -/

/-- A token list with the kinds of a list that is cut in front of a token is cut there too. -/
theorem split_of_kinds {tokens before after : List Token} {token : Token}
    (h : tokens.map (·.kind) = (before ++ token :: after).map (·.kind)) :
    ∃ before' token' after', tokens = before' ++ token' :: after' ∧
      before'.map (·.kind) = before.map (·.kind) ∧ token'.kind = token.kind ∧
      after'.map (·.kind) = after.map (·.kind) := by
  rw [List.map_append, List.map_eq_append_iff] at h
  obtain ⟨before', tail, rfl, hbefore, htail⟩ := h
  rw [List.map_cons, List.map_eq_cons_iff] at htail
  obtain ⟨token', after', rfl, hkind, hafter⟩ := htail
  exact ⟨before', token', after', rfl, hbefore, hkind, hafter⟩

/-- Tokens of the same kinds derive from the same symbol, with the same nesting. -/
theorem Derives.of_kinds {symbol : Nonterminal} {tokens tokens' : List Token} {nesting : Nat}
    {tree : Expr} (h : Derives symbol tokens nesting tree)
    (same : tokens'.map (·.kind) = tokens.map (·.kind)) :
    ∃ tree', Derives symbol tokens' nesting tree' := by
  induction h generalizing tokens' with
  | expression _ ih =>
    obtain ⟨tree, h⟩ := ih same
    exact ⟨tree, .expression h⟩
  | assign hn he _ ih =>
    obtain ⟨name', tail, rfl, hname, htail⟩ := List.map_eq_cons_iff.1 same
    obtain ⟨equals', tokens', rfl, hequals, htokens⟩ := List.map_eq_cons_iff.1 htail
    obtain ⟨value, h⟩ := ih htokens
    exact ⟨_, .assign (hname.trans hn) (hequals.trans he) h⟩
  | equality _ ih =>
    obtain ⟨tree, h⟩ := ih same
    exact ⟨tree, .equality h⟩
  | operand _ ih =>
    obtain ⟨tree, h⟩ := ih same
    exact ⟨tree, .operand h⟩
  | chain ho _ _ ihl ihr =>
    -- the operator stands where the one of its kind does
    obtain ⟨before, operator', after, rfl, hbefore, hoperator, hafter⟩ := split_of_kinds same
    obtain ⟨left, hl⟩ := ihl hbefore
    obtain ⟨right, hr⟩ := ihr hafter
    exact ⟨_, .chain (hoperator ▸ ho) hl hr⟩
  | unary ho _ ih =>
    obtain ⟨operator', tokens', rfl, hoperator, htokens⟩ := List.map_eq_cons_iff.1 same
    obtain ⟨tree, h⟩ := ih htokens
    exact ⟨_, .unary (hoperator ▸ ho) h⟩
  | primary _ ih =>
    obtain ⟨tree, h⟩ := ih same
    exact ⟨tree, .primary h⟩
  | literal ht =>
    obtain ⟨token', rfl, hkind⟩ := List.map_eq_singleton_iff.1 same
    exact ⟨_, .literal (hkind ▸ ht)⟩
  | kwTrue ht =>
    obtain ⟨token', rfl, hkind⟩ := List.map_eq_singleton_iff.1 same
    exact ⟨_, .kwTrue (hkind.trans ht)⟩
  | kwFalse ht =>
    obtain ⟨token', rfl, hkind⟩ := List.map_eq_singleton_iff.1 same
    exact ⟨_, .kwFalse (hkind.trans ht)⟩
  | kwNil ht =>
    obtain ⟨token', rfl, hkind⟩ := List.map_eq_singleton_iff.1 same
    exact ⟨_, .kwNil (hkind.trans ht)⟩
  | reference hn =>
    obtain ⟨name', rfl, hkind⟩ := List.map_eq_singleton_iff.1 same
    exact ⟨_, .reference (hkind.trans hn)⟩
  | grouping ho hc _ ih =>
    obtain ⟨opening', tail, rfl, hopening, htail⟩ := List.map_eq_cons_iff.1 same
    obtain ⟨tokens', closing', rest, rfl, htokens, hclosing, hrest⟩ := split_of_kinds htail
    obtain rfl := List.map_eq_nil_iff.1 hrest
    obtain ⟨tree, h⟩ := ih htokens
    exact ⟨_, .grouping (hopening.trans ho) (hclosing.trans hc) h⟩

mutual

theorem Declaration.of_kinds {tokens : List Token} {nesting : Nat} {statement : Stmt} :
    Declaration tokens nesting statement → ∀ {tokens' : List Token},
      tokens'.map (·.kind) = tokens.map (·.kind) →
      ∃ statement', Declaration tokens' nesting statement'
  | .bare hv hn hs, tokens', same => by
    obtain ⟨var', tail, rfl, hvar, htail⟩ := List.map_eq_cons_iff.1 same
    obtain ⟨name', tail, rfl, hname, htail⟩ := List.map_eq_cons_iff.1 htail
    obtain ⟨semicolon', rfl, hsemicolon⟩ := List.map_eq_singleton_iff.1 htail
    exact ⟨_, .bare (hvar.trans hv) (hname.trans hn) (hsemicolon.trans hs)⟩
  | .initialized hv hn he h hs, tokens', same => by
    obtain ⟨var', tail, rfl, hvar, htail⟩ := List.map_eq_cons_iff.1 same
    obtain ⟨name', tail, rfl, hname, htail⟩ := List.map_eq_cons_iff.1 htail
    obtain ⟨equals', tail, rfl, hequals, htail⟩ := List.map_eq_cons_iff.1 htail
    obtain ⟨tokens', semicolon', rest, rfl, htokens, hsemicolon, hrest⟩ := split_of_kinds htail
    obtain rfl := List.map_eq_nil_iff.1 hrest
    obtain ⟨tree, h'⟩ := h.of_kinds htokens
    exact ⟨_, .initialized (hvar.trans hv) (hname.trans hn) (hequals.trans he) h'
      (hsemicolon.trans hs)⟩
  | .print hp h hs, tokens', same => by
    obtain ⟨print', tail, rfl, hprint, htail⟩ := List.map_eq_cons_iff.1 same
    obtain ⟨tokens', semicolon', rest, rfl, htokens, hsemicolon, hrest⟩ := split_of_kinds htail
    obtain rfl := List.map_eq_nil_iff.1 hrest
    obtain ⟨tree, h'⟩ := h.of_kinds htokens
    exact ⟨_, .print (hprint.trans hp) h' (hsemicolon.trans hs)⟩
  | .block ho h hc, tokens', same => by
    obtain ⟨opening', tail, rfl, hopening, htail⟩ := List.map_eq_cons_iff.1 same
    obtain ⟨tokens', closing', rest, rfl, htokens, hclosing, hrest⟩ := split_of_kinds htail
    obtain rfl := List.map_eq_nil_iff.1 hrest
    obtain ⟨statements, h'⟩ := h.of_kinds htokens
    exact ⟨_, .block (hopening.trans ho) h' (hclosing.trans hc)⟩
  | .expression h hs, tokens', same => by
    obtain ⟨tokens', semicolon', rest, rfl, htokens, hsemicolon, hrest⟩ := split_of_kinds same
    obtain rfl := List.map_eq_nil_iff.1 hrest
    obtain ⟨tree, h'⟩ := h.of_kinds htokens
    exact ⟨_, .expression h' (hsemicolon.trans hs)⟩

/-- Tokens of the same kinds are programs with the same nesting. -/
theorem Program.of_kinds {tokens : List Token} {nesting : Nat} {statements : List Stmt} :
    Program tokens nesting statements → ∀ {tokens' : List Token},
      tokens'.map (·.kind) = tokens.map (·.kind) → ∃ statements', Program tokens' nesting statements'
  | .nil, tokens', same => by
    obtain rfl := List.map_eq_nil_iff.1 same
    exact ⟨[], .nil⟩
  | .cons h hs, tokens', same => by
    rw [List.map_append, List.map_eq_append_iff] at same
    obtain ⟨first, others, rfl, hfirst, hothers⟩ := same
    obtain ⟨statement, h'⟩ := h.of_kinds hfirst
    obtain ⟨statements, hs'⟩ := hs.of_kinds hothers
    exact ⟨statement :: statements, .cons h' hs'⟩

end

theorem programOfKinds_iff {tokens : List Token} {nesting : Nat} :
    ProgramOfKinds (tokens.map (·.kind)) nesting ↔
      ∃ statements, Program tokens nesting statements := by
  constructor
  · intro h
    obtain ⟨tokens', statements', same, h⟩ := h
    exact h.of_kinds same.symm
  · intro h
    obtain ⟨statements, h⟩ := h
    exact ⟨tokens, statements, rfl, h⟩

end Grammar

end LoxCheck
