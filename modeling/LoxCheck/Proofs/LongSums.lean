import LoxCheck.Command.FileTree
import LoxCheck.Proofs.Acceptance
import LoxCheck.Proofs.ScanTheorems
import LoxCheck.Proofs.Verdict

/-!
# Long sums

The grammar bounds how deep a source is nested, and a sum without parentheses is not nested at all.
But its tree leans to the left, and is as deep as the sum is long. So for every room there is a
source that is read without an error and comes to no report when its tree is asked for.
-/

namespace LoxCheck

/-! ## Sums -/

/-- A number of additions of one, and a semicolon. -/
def additionChars : Nat → List Char
  | 0 => [';']
  | n + 1 => '+' :: '1' :: additionChars n

/-- A first operand, to which one is added a number of times. -/
def longSum (first : List Char) (additions : Nat) : String :=
  String.ofList (first ++ additionChars additions)

/-- The operator of a sum. -/
def plusToken : Token := ⟨.plus, "+", .nil, 1⟩

/-- The token of an operand. -/
def operandToken (digits : List Char) : Token :=
  ⟨.number, String.ofList digits, .number (Numeral.plain digits []), 1⟩

/-- The tokens of additions of one. -/
def additionTokens : Nat → List Token
  | 0 => []
  | n + 1 => plusToken :: operandToken ['1'] :: additionTokens n

/-- The tree of additions of one to an expression. -/
def additionTree (left : Expr) : Nat → Expr
  | 0 => left
  | n + 1 => additionTree (.binary left plusToken (.literal (operandToken ['1']).literal)) n

/-- The tree of a sum. -/
def sumTree (first : List Char) (additions : Nat) : Expr :=
  additionTree (.literal (operandToken first).literal) additions

/-! ## Scanning -/

/-- No digit and no point follows an operand. -/
theorem head?_additionChars (n : Nat) : ∀ c ∈ (additionChars n).head?, c = ';' ∨ c = '+' := by
  intro c hc
  cases n with
  | zero => exact .inl (Option.some.inj hc).symm
  | succ n => exact .inr (Option.some.inj hc).symm

/-- Digits before additions are a number. -/
theorem next_operand {c : Char} {digits : List Char} (h : ∀ d ∈ c :: digits, d.isDigit = true)
    (n : Nat) :
    Piece.next c (digits ++ additionChars n) = (.number (c :: digits) [], additionChars n) := by
  have stands : (Piece.number (c :: digits) []).Stands (additionChars n) := by
    refine ⟨List.cons_ne_nil _ _, h, by simp, fun d head => ?_, fun _ d tail point => ?_⟩
    · rcases head?_additionChars n d head with rfl | rfl <;> rfl
    · rcases head?_additionChars n '.' (by rw [point]; rfl) with same | same <;>
        exact absurd same (by decide)
  exact Piece.next_of_stands stands rfl

theorem lineFeeds_of_digits {digits : List Char} (h : ∀ d ∈ digits, d.isDigit = true) :
    lineFeeds digits = 0 := by
  apply List.count_eq_zero.2
  intro feed
  exact absurd (h '\n' feed) (by decide)

/-- An operand before additions is scanned as one token, without an error. -/
theorem scan_operand {first : List Char} (nonempty : first ≠ [])
    (h : ∀ d ∈ first, d.isDigit = true) (n : Nat) :
    (scanFrom 1 (first ++ additionChars n)).body =
        operandToken first :: (scanFrom 1 (additionChars n)).body ∧
      (scanFrom 1 (first ++ additionChars n)).errors = (scanFrom 1 (additionChars n)).errors := by
  obtain ⟨c, digits, rfl⟩ := List.exists_cons_of_ne_nil nonempty
  have line : (1 : Int) + lineFeeds (Piece.number (c :: digits) []).text = 1 := by
    have none_inside : lineFeeds (Piece.number (c :: digits) []).text = 0 := lineFeeds_of_digits h
    rw [none_inside]
    rfl
  rw [List.cons_append, body_scanFrom_cons, errors_scanFrom_cons, next_operand h, line]
  exact ⟨rfl, rfl⟩

theorem scan_additionChars (n : Nat) :
    (scanFrom 1 (additionChars n)).body = additionTokens n ++ [⟨.semicolon, ";", .nil, 1⟩] ∧
      (scanFrom 1 (additionChars n)).errors = [] := by
  induction n with
  | zero => exact ⟨by decide +kernel, by decide +kernel⟩
  | succ n ih =>
    have plus : Piece.next '+' ('1' :: additionChars n) = (.symbol .plus, '1' :: additionChars n) :=
      rfl
    obtain ⟨body, errors⟩ := scan_operand (List.cons_ne_nil '1' []) (List.forall_mem_singleton.2 rfl) n
    rw [ih.1] at body
    rw [ih.2] at errors
    rw [additionChars, body_scanFrom_cons, errors_scanFrom_cons, plus]
    exact ⟨congrArg (plusToken :: ·) body, errors⟩

/-! ## Parsing -/

/-- Additions of one to what derives from a term derive from a term, without any nesting. -/
theorem derives_additions {tokens : List Token} {left : Expr}
    (h : Grammar.Derives (.binary .term) tokens 0 left) (n : Nat) :
    Grammar.Derives (.binary .term) (tokens ++ additionTokens n) 0 (additionTree left n) := by
  induction n generalizing tokens left with
  | zero => simpa [additionTokens, additionTree] using h
  | succ n ih =>
    have one : Grammar.Derives (.binary .factor) [operandToken ['1']] 0
        (.literal (operandToken ['1']).literal) :=
      .operand (.primary (.literal (.inl rfl)))
    have added : Grammar.Derives (.binary .term) (tokens ++ plusToken :: [operandToken ['1']]) 0
        (.binary left plusToken (.literal (operandToken ['1']).literal)) :=
      .chain (by decide) h one
    simpa [additionTokens, additionTree] using ih added

/-- A sum is one statement, with no level but that of the expression. -/
theorem program_sum (first : List Char) (n : Nat) :
    Grammar.Program (operandToken first :: (additionTokens n ++ [⟨.semicolon, ";", .nil, 1⟩])) 1
      [.expression (sumTree first n)] := by
  have operand : Grammar.Derives (.binary .factor) [operandToken first] 0
      (.literal (operandToken first).literal) :=
    .operand (.primary (.literal (.inl rfl)))
  have sum : Grammar.Derives (.binary .term) (operandToken first :: additionTokens n) 0
      (sumTree first n) := derives_additions (.operand operand) n
  have whole := Grammar.Derives.expression (.equality (.operand (.operand sum)))
  have statement := @Grammar.Declaration.expression ⟨.semicolon, ";", .nil, 1⟩ _ _ _ whole rfl
  simpa using Grammar.Program.cons statement .nil

/-- A sum of any length is read without an error, as the tree that leans to the left. -/
theorem check_longSum {first : List Char} (nonempty : first ≠ [])
    (digits : ∀ d ∈ first, d.isDigit = true) (n : Nat) :
    (scan (longSum first n)).errors = [] ∧ ∃ after,
      (check (longSum first n)).program = ⟨[.expression (sumTree first n)], [], after⟩ := by
  obtain ⟨body, errors⟩ := scan_operand nonempty digits n
  obtain ⟨additions, none_wrong⟩ := scan_additionChars n
  have scanned : scan (longSum first n) = scanFrom 1 (first ++ additionChars n) := by
    rw [scan, longSum, String.toList_ofList]
  have derived : Grammar.Program (scan (longSum first n)).body 1
      [.expression (sumTree first n)] := by
    rw [scanned, body, additions]
    exact program_sum first n
  have one_level : 1 ≤ room defaultMaxDepth 0 := by decide
  let c := TokenCursor.start (scan (longSum first n)).body (scan (longSum first n)).stop
    (scan (longSum first n)).stop
  exact ⟨by rw [scanned, errors, none_wrong], _,
    @Grammar.complete_program _ _ c _ derived one_level⟩

/-! ## Dumping -/

theorem calls_additionTree {left : Expr} (h : 2 ≤ left.calls) (n : Nat) :
    (additionTree left n).calls = left.calls + n := by
  induction n generalizing left with
  | zero => rfl
  | succ n ih =>
    have added : (Expr.binary left plusToken (.literal (operandToken ['1']).literal)).calls =
        left.calls + 1 := congrArg (· + 1) (Nat.max_eq_left h)
    rw [additionTree, ih (by omega), added]
    omega

theorem mem_leaves_additionTree {left : Expr} {leaf : Leaf} (h : leaf ∈ left.leaves) (n : Nat) :
    leaf ∈ (additionTree left n).leaves := by
  induction n generalizing left with
  | zero => exact h
  | succ n ih =>
    apply ih
    rw [Expr.leaves]
    exact List.mem_append_left _ h

/-- The tree of a sum needs a call for each addition. -/
theorem allCalls_sum (first : List Char) (n : Nat) :
    Stmt.allCalls [.expression (sumTree first n)] = n + 5 := by
  have calls : (sumTree first n).calls = 2 + n :=
    @calls_additionTree (.literal (operandToken first).literal) (Nat.le_refl 2) n
  simp only [Stmt.allCalls, Stmt.calls, calls]
  omega

/-- A sum is read without an error, and yet there is no report on it when its tree is asked for, if
it is too long for the room. -/
theorem run_longSum {room : DumpRoom} {first : List Char} {n : Nat} (nonempty : first ≠ [])
    (digits : ∀ d ∈ first, d.isDigit = true) (long : room.conversion < n + 5) (files : FileSystem)
    (tokens : Bool) :
    ∃ d, parse (scan (longSum first n)).tokens = .ok d ∧
      (scan (longSum first n)).errors = [] ∧ d.errors = [] ∧
      Leaf.literal (.number (Numeral.plain first [])) ∈ Stmt.allLeaves d.statements ∧
      Command.run room files { isString := true, tokens, ast := true } (longSum first n) =
        .error .dumpTooDeep := by
  obtain ⟨unscathed, after, read⟩ := check_longSum nonempty digits n
  have deep : Command.dump room (check (longSum first n)).statements = .error .tooDeep := by
    apply Command.dump_of_lt_allCalls
    rw [Checked.statements, read, allCalls_sum]
    exact long
  have kept : Leaf.literal (.number (Numeral.plain first [])) ∈ (sumTree first n).leaves :=
    mem_leaves_additionTree (List.mem_singleton.2 rfl) n
  refine ⟨_, parse_tokens_scan _, unscathed, ?_, ?_, ?_⟩
  · rw [read]
  · rw [read]
    simpa [Stmt.allLeaves, Stmt.leaves] using kept
  · exact @Command.checkText_of_tooDeep room { isString := true, tokens, ast := true } _ rfl deep

/-- No room is enough for every source. -/
theorem exists_text_without_report (room : DumpRoom) (files : FileSystem) :
    ∃ source, Command.run room files { isString := true, ast := true } source =
      .error .dumpTooDeep := by
  obtain ⟨_, -, -, -, -, failed⟩ := @run_longSum room ['1'] room.conversion
    (List.cons_ne_nil _ _) (List.forall_mem_singleton.2 rfl) (by omega) files false
  exact ⟨_, failed⟩

/-- A number beyond the greatest one there is, and twelve thousand operands in all. -/
def hugeSum : String := longSum ('1' :: List.replicate 309 '0') 11999

/-- The tree holds an infinite number, which is to be reported, but there is no report. -/
theorem run_hugeSum_without_report :
    (∃ d, parse (scan hugeSum).tokens = .ok d ∧
      (Stmt.allLeaves d.statements).any Leaf.isInfinite = true) ∧
    ¬∃ report, Command.run .standard (FileTree.openFile []) { isString := true, ast := true }
      hugeSum = .ok report := by
  have digits : ∀ d ∈ '1' :: List.replicate 309 '0', d.isDigit = true := by
    refine List.forall_mem_cons.2 ⟨rfl, fun d zero => ?_⟩
    rw [List.eq_of_mem_replicate zero]
    rfl
  have infinite : (Numeral.plain ('1' :: List.replicate 309 '0') []).isInfinite = true := by
    decide +kernel
  obtain ⟨d, parsed, -, -, listed, failed⟩ := @run_longSum .standard _ 11999 (List.cons_ne_nil _ _)
    digits (by decide) (FileTree.openFile []) false
  refine ⟨⟨d, parsed, List.any_eq_true.2 ⟨_, listed, infinite⟩⟩, ?_⟩
  rintro ⟨report, eq⟩
  exact absurd (eq.symm.trans failed) (by simp)

end LoxCheck
