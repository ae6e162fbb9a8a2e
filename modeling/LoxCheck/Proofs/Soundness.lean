import LoxCheck.Proofs.Derivation
import LoxCheck.Proofs.ProgressTheorems

/-!
# What is read derives

Every tree that the grammar's steps return is the tree of a derivation that fits the room they were
given, whether or not errors were recorded on the way. A step that recorded none has read exactly
the tokens of that derivation.
-/

namespace LoxCheck

namespace Grammar

/-! ## The step for each symbol -/

/-- The step that reads what derives from a symbol, when `room` levels of nesting are left. -/
def Nonterminal.step (room : Nat) : Nonterminal → Parse Expr
  | .expression => Parse.expression room
  | .assignment => Parse.assignmentWith (Parse.unary room) (Parse.expression room)
  | .binary .equality => Parse.equality (Parse.unary room)
  | .binary .comparison => Parse.comparison (Parse.unary room)
  | .binary .term => Parse.term (Parse.unary room)
  | .binary .factor => Parse.factor (Parse.unary room)
  | .unary => Parse.unary room
  | .primary => Parse.primaryWith (Parse.expression room)

theorem Nonterminal.step_binary (room : Nat) (level : BinaryLevel) :
    (Nonterminal.binary level).step room =
      Parse.binaryLevel level.operators (level.operand.step room) := by
  cases level <;> rfl

/-! ## Expressions -/

/-- A tree that was read from `c` on is derived: it has a derivation from the symbol that fits the
room, and if no error was recorded that derivation is of the tokens that were read. -/
def Derived (symbol : Nonterminal) (room : Nat) (c : TokenCursor) (tree : Expr)
    (errors : List SyntaxError) (after : TokenCursor) : Prop :=
  ∃ tokens nesting, nesting ≤ room ∧ Derives symbol tokens nesting tree ∧
    (errors = [] → c.ahead = tokens ++ after.ahead)

/-- A step all of whose results are derived. -/
def Sound (symbol : Nonterminal) (room : Nat) (p : Parse Expr) : Prop :=
  ∀ c, p.Ensures c (Derived symbol room c)

/-- Reading some tokens and then some more. -/
theorem read_trans {tokens before after first second : List Token}
    (h : tokens = first ++ before) (h' : before = second ++ after) :
    tokens = first ++ second ++ after := by
  rw [h, h', List.append_assoc]

/-- A tree that is a name derives from nothing but that name. -/
theorem Derives.of_reference {symbol : Nonterminal} {tokens : List Token} {nesting : Nat}
    {name : Token} (h : Derives symbol tokens nesting (.reference name)) :
    tokens = [name] ∧ name.kind = .identifier := by
  generalize ht : Expr.reference name = tree at h
  induction h with
  | expression _ ih => exact ih ht
  | equality _ ih => exact ih ht
  | operand _ ih => exact ih ht
  | primary _ ih => exact ih ht
  | reference hn =>
    obtain rfl := Expr.reference.inj ht
    exact ⟨rfl, hn⟩
  | _ => exact absurd ht (by simp)

/-- The rest of a chain extends a derivation of what stands before it. -/
theorem ensures_binaryTail {level : BinaryLevel} {room : Nat} {operand : Parse Expr}
    (ho : Sound level.operand room operand) (fuel : List Token) {left : Expr}
    {tokens : List Token} {nesting : Nat} (hl : Derives (.binary level) tokens nesting left)
    (fits : nesting ≤ room) (c : TokenCursor) :
    (Parse.binaryTail level.operators operand fuel left).Ensures c fun tree errors after =>
      ∃ more nesting', nesting' ≤ room ∧ Derives (.binary level) (tokens ++ more) nesting' tree ∧
        (errors = [] → c.ahead = more ++ after.ahead) := by
  -- what is read so far grows with every operator, and so does its derivation
  induction fuel generalizing c left tokens nesting with
  | nil => exact .done ⟨[], nesting, fits, by rwa [List.append_nil], fun _ => rfl⟩
  | cons token fuel ih =>
    refine .takeIf (fun operator hc listed => ?_) fun _ => ?_
    · refine .andThen (ho _) ?_
      rintro right errors after ⟨more, n, fits', h, read⟩
      intro tree hr
      obtain ⟨others, n', fits'', h', read'⟩ :=
        ih (.chain listed hl h) (Nat.max_le.2 ⟨fits, fits'⟩) after tree hr
      refine ⟨operator :: more ++ others, n', fits'', by simpa using h', fun silent => ?_⟩
      obtain ⟨silent, silent'⟩ := List.append_eq_nil_iff.1 silent
      have reads : c.ahead = operator :: more ++ after.ahead := by
        rw [hc, read silent, List.cons_append]
      exact read_trans reads (read' silent')
    · exact .done ⟨[], nesting, fits, by rwa [List.append_nil], fun _ => rfl⟩

theorem sound_binaryLevel {level : BinaryLevel} {room : Nat} {operand : Parse Expr}
    (ho : Sound level.operand room operand) :
    Sound (.binary level) room (Parse.binaryLevel level.operators operand) := by
  intro c
  refine .andThen (ho c) ?_
  -- the first operand is the shortest chain
  rintro left errors after ⟨tokens, n, fits, h, read⟩ tree hr
  obtain ⟨more, n', fits', h', read'⟩ :=
    ensures_binaryTail ho after.ahead (.operand h) fits after tree hr
  refine ⟨tokens ++ more, n', fits', h', fun silent => ?_⟩
  obtain ⟨silent, silent'⟩ := List.append_eq_nil_iff.1 silent
  exact read_trans (read silent) (read' silent')

theorem sound_equality {room : Nat} {unary : Parse Expr} (hu : Sound .unary room unary) :
    Sound (.binary .equality) room (Parse.equality unary) := by
  -- each level has the next tighter one for its operands
  have factor : Sound (.binary .factor) room (Parse.factor unary) := sound_binaryLevel hu
  have term : Sound (.binary .term) room (Parse.term unary) := sound_binaryLevel factor
  have comparison : Sound (.binary .comparison) room (Parse.comparison unary) :=
    sound_binaryLevel term
  exact sound_binaryLevel comparison

/-- Without an error the right side of an assignment belongs to it; with one, what is returned is
the left side, which derives by itself. -/
theorem sound_assignmentWith {room : Nat} {unary expression : Parse Expr}
    (hu : Sound .unary room unary) (he : Sound .expression room expression) :
    Sound .assignment room (Parse.assignmentWith unary expression) := by
  intro c
  refine .andThen (sound_equality hu c) ?_
  rintro target errors after ⟨tokens, n, fits, h, read⟩
  refine .takeIf (fun equals hc hk => ?_) fun _ => ?_
  · refine .andThen (he _) ?_
    rintro value errors' after' ⟨more, n', fits', h', read'⟩
    -- only a name is a target; any other target is reported, so that no tokens are claimed
    cases target with
    | reference name =>
      obtain ⟨rfl, hn⟩ := h.of_reference
      cases h' with
      | expression h' =>
        refine .done ⟨name :: equals :: more, _, fits', .assign hn (by simpa using hk) h', ?_⟩
        intro silent
        obtain ⟨silent, silent'⟩ := List.append_eq_nil_iff.1 silent
        rw [List.append_nil] at silent'
        rw [read silent, hc, read' silent']
        simp
    | _ => exact .report (.done ⟨tokens, n, fits, .equality h, fun silent => absurd silent (by simp)⟩)
  · refine .done ⟨tokens, n, fits, .equality h, fun silent => ?_⟩
    exact read (List.append_eq_nil_iff.1 silent).1

theorem sound_primaryWith {room : Nat} {expression : Parse Expr}
    (he : Sound .expression room expression) :
    Sound .primary room (Parse.primaryWith expression) := by
  -- a form that is one token
  have single : ∀ {c : TokenCursor} {token : Token} {tree : Expr},
      c.ahead = token :: c.advance.ahead → Derives .primary [token] 0 tree →
      (Parse.done tree).Ensures c.advance (Derived .primary room c) :=
    fun hc h => .done ⟨_, 0, Nat.zero_le _, h, fun _ => hc⟩
  intro c
  rw [Parse.primaryWith_eq]
  refine .takeIf (fun token hc hk => single hc (.kwFalse (by simpa using hk))) fun _ => ?_
  refine .takeIf (fun token hc hk => single hc (.kwTrue (by simpa using hk))) fun _ => ?_
  refine .takeIf (fun token hc hk => single hc (.kwNil (by simpa using hk))) fun _ => ?_
  refine .takeIf (fun token hc hk => single hc (.literal (by simpa using hk))) fun _ => ?_
  refine .takeIf (fun name hc hk => single hc (.reference (by simpa using hk))) fun _ => ?_
  refine .takeIf (fun opening hc hk => ?_) fun _ => .fail
  refine .andThen (he _) ?_
  rintro inner errors after ⟨tokens, n, fits, h, read⟩
  refine .expect fun closing hc' hk' => ?_
  refine .done ⟨opening :: tokens ++ [closing], n, fits, .grouping (by simpa using hk) hk' h, ?_⟩
  intro silent
  rw [List.append_nil] at silent
  rw [hc, read silent, hc']
  simp

theorem sound_unaryWith {room : Nat} {operand expression : Parse Expr}
    (ho : ∀ c, operand.Ensures c fun tree errors after =>
      ∃ inner, room = inner + 1 ∧ Derived .unary inner c tree errors after)
    (he : Sound .expression room expression) :
    Sound .unary room (Parse.unaryWith operand expression) := by
  intro c
  refine .takeIf (fun operator hc hk => ?_) fun _ => ?_
  · refine .andThen (ho _) ?_
    rintro tree errors after ⟨inner, rfl, tokens, n, fits, h, read⟩
    refine .done ⟨operator :: tokens, n + 1, Nat.succ_le_succ fits, .unary (by simpa using hk) h, ?_⟩
    intro silent
    rw [List.append_nil] at silent
    rw [hc, read silent, List.cons_append]
  · intro tree hr
    obtain ⟨tokens, n, fits, h, read⟩ := sound_primaryWith he c tree hr
    exact ⟨tokens, n, fits, .primary h, read⟩

theorem sound_expression_and_unary (room : Nat) :
    Sound .expression room (Parse.expression room) ∧ Sound .unary room (Parse.unary room) := by
  -- without room neither an expression nor a unary operator has a result
  induction room with
  | zero => exact ⟨fun c => .fail, sound_unaryWith (fun c => .fail) fun c => .fail⟩
  | succ room ih =>
    obtain ⟨he, hu⟩ := ih
    have expression : Sound .expression (room + 1) (Parse.expression (room + 1)) := by
      intro c tree hr
      obtain ⟨tokens, n, fits, h, read⟩ := sound_assignmentWith hu he c tree hr
      exact ⟨tokens, n + 1, Nat.succ_le_succ fits, .expression h, read⟩
    exact ⟨expression, sound_unaryWith (fun c tree hr => ⟨room, rfl, hu c tree hr⟩) expression⟩

/-- Every expression that is read is derived. -/
theorem sound_expression (room : Nat) : Sound .expression room (Parse.expression room) :=
  (sound_expression_and_unary room).1

/-! ## Declarations -/

/-- A statement that was read from `c` on is derived, within the room and, if no error was recorded,
from the tokens that were read. -/
def DerivedStatement (room : Nat) (c : TokenCursor) (statement : Stmt)
    (errors : List SyntaxError) (after : TokenCursor) : Prop :=
  ∃ tokens nesting, nesting ≤ room ∧ Declaration tokens nesting statement ∧
    (errors = [] → c.ahead = tokens ++ after.ahead)

/-- The declarations read from `c` on are derived in the same way. -/
def DerivedProgram (room : Nat) (c : TokenCursor) (d : Declarations) : Prop :=
  ∃ tokens nesting, nesting ≤ room ∧ Program tokens nesting d.statements ∧
    (d.errors = [] → c.ahead = tokens ++ d.cursor.ahead)

section

variable {room : Nat} {c : TokenCursor}

theorem sound_expressionStatement :
    (Parse.expressionStatement (Parse.expression room)).Ensures c (DerivedStatement room c) := by
  refine .andThen (sound_expression room c) ?_
  rintro tree errors after ⟨tokens, n, fits, h, read⟩
  refine .expect fun semicolon hc hk => ?_
  refine .done ⟨tokens ++ [semicolon], n, fits, .expression h hk, fun silent => ?_⟩
  rw [List.append_nil] at silent
  rw [read silent, hc]
  simp

theorem sound_printStatement {print : Token} (hp : print.kind = .kwPrint)
    (hc : c.ahead = print :: c.advance.ahead) :
    (Parse.printStatement (Parse.expression room)).Ensures c.advance (DerivedStatement room c) := by
  refine .andThen (sound_expression room _) ?_
  rintro tree errors after ⟨tokens, n, fits, h, read⟩
  refine .expect fun semicolon hc' hk => ?_
  refine .done ⟨print :: tokens ++ [semicolon], n, fits, .print hp h hk, fun silent => ?_⟩
  rw [List.append_nil] at silent
  rw [hc, read silent, hc']
  simp

/-- An initializer is an equals sign with an expression, or nothing. -/
theorem sound_initializer :
    (Parse.initializer (Parse.expression room)).Ensures c fun value errors after =>
      (value = none ∧ c.ahead = after.ahead) ∨
      ∃ equals tree tokens nesting, value = some tree ∧ equals.kind = .equal ∧ nesting ≤ room ∧
        Derives .expression tokens nesting tree ∧
        (errors = [] → c.ahead = equals :: tokens ++ after.ahead) := by
  refine .takeIf (fun equals he hk => ?_) fun _ => .done (.inl ⟨rfl, rfl⟩)
  refine .andThen (sound_expression room _) ?_
  rintro tree errors after ⟨tokens, n, fits, h, read⟩
  refine .done (.inr ⟨equals, tree, tokens, n, rfl, by simpa using hk, fits, h, fun silent => ?_⟩)
  rw [List.append_nil] at silent
  rw [he, read silent, List.cons_append]

theorem sound_varDeclaration {var : Token} (hv : var.kind = .kwVar)
    (hc : c.ahead = var :: c.advance.ahead) :
    (Parse.varDeclaration (Parse.expression room)).Ensures c.advance (DerivedStatement room c) := by
  refine .expect fun name hname hn => ?_
  refine .andThen sound_initializer ?_
  rintro value errors after (⟨rfl, same⟩ | ⟨equals, tree, tokens, n, rfl, he, fits, h, read⟩)
  · refine .expect fun semicolon hs hk => ?_
    refine .done ⟨[var, name, semicolon], 0, Nat.zero_le _, .bare hv hn hk, fun _ => ?_⟩
    rw [hc, hname, same, hs]
    simp
  · refine .expect fun semicolon hs hk => ?_
    refine .done ⟨var :: name :: equals :: tokens ++ [semicolon], n, fits,
      .initialized hv hn he h hk, fun silent => ?_⟩
    rw [List.append_nil] at silent
    rw [hc, hname, read silent, hs]
    simp

/-- What follows the opening brace of a block is derived: declarations in the room that the block
leaves them, and the closing brace. -/
def DerivedBlock (room : Nat) (c : TokenCursor) (statement : Stmt) (errors : List SyntaxError)
    (after : TokenCursor) : Prop :=
  ∃ statements tokens closing nesting, statement = .block statements ∧ nesting + 1 ≤ room ∧
    Program tokens nesting statements ∧ closing.kind = .rightBrace ∧
    (errors = [] → c.ahead = tokens ++ closing :: after.ahead)

theorem sound_statementWith {block : Parse Stmt}
    (hb : ∀ c, block.Ensures c (DerivedBlock room c)) :
    (Parse.statementWith (Parse.expression room) block).Ensures c (DerivedStatement room c) := by
  refine .takeIf (fun print hc hk => sound_printStatement (by simpa using hk) hc) fun _ => ?_
  refine .takeIf (fun opening hc hk => ?_) fun _ => sound_expressionStatement
  intro statement hr
  obtain ⟨statements, tokens, closing, n, rfl, fits, h, hk', read⟩ := hb _ statement hr
  refine ⟨opening :: tokens ++ [closing], n + 1, fits, .block (by simpa using hk) h hk', ?_⟩
  intro silent
  rw [hc, read silent]
  simp

theorem sound_declarationWith {block : Parse Stmt}
    (hb : ∀ c, block.Ensures c (DerivedBlock room c)) :
    (Parse.declarationWith (Parse.expression room) block).Ensures c (DerivedStatement room c) :=
  .recovering (.takeIf (fun _ hc hk => sound_varDeclaration (by simpa using hk) hc)
    fun _ => sound_statementWith hb)

end

/-- Declarations in sequence: those with a result are derived, and one without is an error. -/
theorem sound_declarations {room : Nat} {declaration : Parse Stmt}
    (hd : ∀ c, declaration.Ensures c (DerivedStatement room c)) (he : Parse.Explains declaration)
    (stops : List TokenKind) (fuel : List Token) (c : TokenCursor) :
    DerivedProgram room c (Parse.declarations stops declaration fuel c) := by
  induction fuel generalizing c with
  | nil => exact ⟨[], 0, Nat.zero_le _, .nil, fun _ => rfl⟩
  | cons token fuel ih =>
    unfold Parse.declarations
    split
    · exact ⟨[], 0, Nat.zero_le _, .nil, fun _ => rfl⟩
    · obtain ⟨more, n, fits, others, read⟩ := ih (declaration c).cursor
      cases hr : (declaration c).result with
      | none =>
        -- the statement is left out, and so are its tokens
        refine ⟨more, n, fits, by simpa [hr] using others, fun silent => ?_⟩
        exact absurd (List.append_eq_nil_iff.1 silent).1 (he c hr)
      | some statement =>
        obtain ⟨tokens, m, fits', first, read'⟩ := hd c statement hr
        refine ⟨tokens ++ more, max m n, Nat.max_le.2 ⟨fits', fits⟩, ?_, fun silent => ?_⟩
        · simpa [hr] using Program.cons first others
        · obtain ⟨silent, silent'⟩ := List.append_eq_nil_iff.1 silent
          exact read_trans (read' silent) (read silent')

theorem sound_block (room : Nat) (c : TokenCursor) :
    Parse.Ensures (Parse.block room) c (DerivedBlock room c) := by
  induction room generalizing c with
  | zero => exact fun _ hr => absurd hr (by simp [Parse.block, Parse.overdeepBlock, Parse.fail])
  | succ room ih =>
    obtain ⟨tokens, n, fits, h, read⟩ : DerivedProgram room c
        (Parse.allDeclarations [.rightBrace] (Parse.declaration room) c) :=
      sound_declarations (fun _ => sound_declarationWith ih) (Parse.declaration_explains room) _ _ c
    intro statement hr
    unfold Parse.block at hr ⊢
    rcases Parse.blockWith_cases (Parse.declaration room) c with
      ⟨closing, rest, hc, hk, eq⟩ | ⟨-, eq⟩
    · replace eq : Parse.blockWith (Parse.declarationWith _ _) c = _ := eq
      rw [eq] at hr ⊢
      refine ⟨_, tokens, closing, n, (Option.some.inj hr).symm, Nat.succ_le_succ fits, h, hk, ?_⟩
      intro silent
      rw [read silent, TokenCursor.ahead_eq_cons hc]
    · replace eq : Parse.blockWith (Parse.declarationWith _ _) c = _ := eq
      rw [eq] at hr
      exact absurd hr (by simp)

/-- Every declaration that is read is derived. -/
theorem sound_declaration (room : Nat) (c : TokenCursor) :
    (Parse.declaration room).Ensures c (DerivedStatement room c) :=
  sound_declarationWith (sound_block room)

/-- The statements of a program are derived, and if there are no errors they are derived from all
the tokens. -/
theorem sound_program (room : Nat) (c : TokenCursor) :
    DerivedProgram room c (Parse.program room c) :=
  sound_declarations (sound_declaration room) (Parse.declaration_explains room) [] c.ahead c

end Grammar

end LoxCheck
