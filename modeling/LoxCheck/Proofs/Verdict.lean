import LoxCheck.Command.Run
import LoxCheck.Proofs.SourceOrder

/-!
# The verdict on a text

What the command says of a text is what scanning and parsing say of it. Dumps are extra: the tokens
never matter to the verdict, and the tree does only if it holds a number too great to be written, or
if it is too deep for the room that there is. In that last case there is no verdict at all.
-/

namespace LoxCheck

/-! ## Numbers too great to be written -/

namespace Document

@[simp]
theorem hasInfinite_null : null.hasInfinite = false := rfl

@[simp]
theorem hasInfinite_text (value : String) : (text value).hasInfinite = false := rfl

@[simp]
theorem hasInfinite_list (items : List Document) :
    (list items).hasInfinite = anyInfinite items := rfl

@[simp]
theorem hasInfinite_record_nil : (record []).hasInfinite = false := rfl

@[simp]
theorem hasInfinite_record_cons (name : String) (value : Document)
    (fields : List (String × Document)) :
    (record ((name, value) :: fields)).hasInfinite =
      (value.hasInfinite || (record fields).hasInfinite) := rfl

end Document

/-- Whether a leaf is the literal of an infinite number. -/
def Leaf.isInfinite : Leaf → Bool
  | .literal (.number value) => value.isInfinite
  | _ => false

@[simp]
theorem Leaf.isInfinite_name (token : Token) : (name token).isInfinite = false := rfl

@[simp]
theorem Leaf.isInfinite_operator (token : Token) : (operator token).isInfinite = false := rfl

@[simp]
theorem Token.hasInfinite_toDocument (token : Token) : token.toDocument.hasInfinite = false := rfl

@[simp]
theorem Value.hasInfinite_toDocument (value : Value) :
    value.toDocument.hasInfinite = (Leaf.literal value).isInfinite := by
  cases value <;> rfl

/-- The document of an expression holds an infinite number exactly if one of its literals is one. -/
theorem Expr.hasInfinite_toDocument (expr : Expr) :
    expr.toDocument.hasInfinite = expr.leaves.any Leaf.isInfinite := by
  induction expr with
  | literal value => simp [toDocument, leaves]
  | grouping inner ih => simp [toDocument, leaves, ih]
  | unary operator operand ih => simp [toDocument, leaves, ih]
  | binary left operator right ihl ihr => simp [toDocument, leaves, ihl, ihr]
  | reference name => simp [toDocument, leaves]
  | assign name value ih => simp [toDocument, leaves, ih]

namespace Stmt

mutual

theorem hasInfinite_toDocument (stmt : Stmt) :
    stmt.toDocument.hasInfinite = stmt.leaves.any Leaf.isInfinite := by
  cases stmt with
  | expression expr => simp [toDocument, leaves, Expr.hasInfinite_toDocument]
  | print expr => simp [toDocument, leaves, Expr.hasInfinite_toDocument]
  | declaration name initializer =>
    cases initializer with
    | none => simp [toDocument, leaves]
    | some value => simp [toDocument, leaves, Expr.hasInfinite_toDocument]
  | block statements => simp [toDocument, leaves, anyInfinite_allToDocuments statements]

theorem anyInfinite_allToDocuments (statements : List Stmt) :
    Document.anyInfinite (allToDocuments statements) =
      (allLeaves statements).any Leaf.isInfinite := by
  cases statements with
  | nil => rfl
  | cons stmt rest =>
    simp [allToDocuments, allLeaves, Document.anyInfinite, hasInfinite_toDocument stmt,
      anyInfinite_allToDocuments rest]

end

end Stmt

/-! ## Dumps -/

namespace Document

/-- A fault, or none, is right about a document of which it is known whether an infinite number is
in it, how many levels there are for it, and how deep it is. -/
def Explains (infinite : Bool) (levels depth : Nat) : Option DumpFault → Prop
  | none => infinite = false ∧ depth ≤ levels
  | some .infiniteNumber => infinite = true
  | some .tooDeep => levels < depth

variable {infinite infinite' : Bool} {levels depth depth' : Nat} {fault fault' : Option DumpFault}

/-- The first fault of two documents is right about both. -/
theorem Explains.orElse (first : Explains infinite levels depth fault)
    (second : Explains infinite' levels depth' fault') :
    Explains (infinite || infinite') levels (max depth depth') (fault <|> fault') := by
  match fault with
  | none =>
    obtain ⟨finite, fits⟩ := first
    show Explains _ _ _ fault'
    match fault' with
    | none => exact ⟨by rw [finite, second.1, Bool.or_self], Nat.max_le.2 ⟨fits, second.2⟩⟩
    | some .infiniteNumber => exact Bool.or_eq_true_iff.2 (.inr second)
    | some .tooDeep => exact Nat.lt_of_lt_of_le second (Nat.le_max_right _ _)
  | some .infiniteNumber => exact Bool.or_eq_true_iff.2 (.inl first)
  | some .tooDeep => exact Nat.lt_of_lt_of_le first (Nat.le_max_left _ _)

/-- A list or a record takes one level. -/
theorem Explains.enclose (h : Explains infinite levels depth fault) :
    Explains infinite (levels + 1) (depth + 1) fault := by
  match fault with
  | none => exact ⟨h.1, Nat.succ_le_succ h.2⟩
  | some .infiniteNumber => exact h
  | some .tooDeep => exact Nat.succ_lt_succ h

mutual

/-- The fault of a document is right about it. -/
theorem explains_fault? (levels : Nat) (document : Document) :
    Explains document.hasInfinite levels document.depth (document.fault? levels) := by
  match document with
  | .null | .boolean _ | .integer _ | .text _ => exact ⟨rfl, Nat.zero_le _⟩
  | .number value =>
    unfold fault?
    split
    · next infinite => exact infinite
    · next finite => exact ⟨Bool.eq_false_iff.2 finite, Nat.zero_le _⟩
  | .list items =>
    match levels with
    | 0 => exact Nat.succ_pos _
    | inner + 1 => exact (explains_itemsFault? inner items).enclose
  | .record fields =>
    match levels with
    | 0 => exact Nat.succ_pos _
    | inner + 1 => exact (explains_fieldsFault? inner fields).enclose

theorem explains_itemsFault? (levels : Nat) (items : List Document) :
    Explains (anyInfinite items) levels (itemsDepth items) (itemsFault? levels items) := by
  match items with
  | [] => exact ⟨rfl, Nat.zero_le _⟩
  | item :: rest =>
    exact (explains_fault? levels item).orElse (explains_itemsFault? levels rest)

theorem explains_fieldsFault? (levels : Nat) (fields : List (String × Document)) :
    Explains (anyFieldInfinite fields) levels (fieldsDepth fields)
      (fieldsFault? levels fields) := by
  match fields with
  | [] => exact ⟨rfl, Nat.zero_le _⟩
  | field :: rest =>
    exact (explains_fieldFault? levels field).orElse (explains_fieldsFault? levels rest)

theorem explains_fieldFault? (levels : Nat) (field : String × Document) :
    Explains (fieldInfinite field) levels (fieldDepth field) (fieldFault? levels field) := by
  match field with
  | (_, value) => exact explains_fault? levels value

end

end Document

namespace Command

variable {room : DumpRoom} {statements : List Stmt}

theorem dump_of_lt_allCalls (h : room.conversion < Stmt.allCalls statements) :
    dump room statements = .error .tooDeep := if_pos h

theorem dump_of_allCalls_le (h : Stmt.allCalls statements ≤ room.conversion) :
    dump room statements = (programDocument statements).write room.writing :=
  if_neg (Nat.not_lt.2 h)

/-- A tree is dumped, or it holds an infinite number, or it does not fit. -/
theorem dump_cases (room : DumpRoom) (statements : List Stmt) :
    (dump room statements = .ok ((programDocument statements).written 0) ∧
      (Stmt.allLeaves statements).any Leaf.isInfinite = false ∧ room.Fits statements) ∨
    (dump room statements = .error .infiniteNumber ∧
      (Stmt.allLeaves statements).any Leaf.isInfinite = true) ∨
    (dump room statements = .error .tooDeep ∧ ¬room.Fits statements) := by
  rcases Nat.lt_or_ge room.conversion (Stmt.allCalls statements) with deep | converted
  · exact .inr (.inr ⟨dump_of_lt_allCalls deep, fun fits => absurd fits.1 (Nat.not_le.2 deep)⟩)
  rw [dump_of_allCalls_le converted, ← Stmt.anyInfinite_allToDocuments]
  have right := (programDocument statements).explains_fault? room.writing
  unfold Document.write
  cases fault : (programDocument statements).fault? room.writing with
  | none =>
    rw [fault] at right
    exact .inl ⟨rfl, right.1, converted, right.2⟩
  | some reason =>
    rw [fault] at right
    cases reason with
    | infiniteNumber => exact .inr (.inl ⟨rfl, right⟩)
    | tooDeep => exact .inr (.inr ⟨rfl, fun fits => absurd fits.2 (Nat.not_le.2 right)⟩)

theorem not_fits_of_tooDeep (h : dump room statements = .error .tooDeep) :
    ¬room.Fits statements := by
  rcases dump_cases room statements with ⟨dumped, -⟩ | ⟨failed, -⟩ | ⟨-, unfit⟩
  · exact absurd (dumped.symm.trans h) (by simp)
  · exact absurd (failed.symm.trans h) (by simp)
  · exact unfit

end Command

/-! ## The command on a text -/

theorem Report.written_append (texts texts' : List String) :
    written (texts ++ texts') = written texts ++ written texts' := by
  simp [written]

namespace Command

variable {room : DumpRoom} {options : Options} {source : String}

theorem checkText_of_tooDeep (asked : options.ast = true)
    (deep : dump room (check source).statements = .error .tooDeep) :
    checkText room options source = .error .dumpTooDeep := by
  rw [checkText, if_pos asked, deep]

/-- Checking a text whose tree is not asked for or not too deep, part by part: what is dumped, what
is reported, and the verdict. -/
theorem checkText_eq
    (h : options.ast = true → dump room (check source).statements ≠ .error .tooDeep) :
    let unwritable := options.ast &&
      (Stmt.allLeaves (check source).statements).any Leaf.isInfinite
    checkText room options source = .ok
      { status := if (check source).diagnostics = [] ∧ unwritable = false then .ok else .badSource
        out := (if options.tokens then (check source).tokens.map Token.dump else []) ++
          if options.ast && !unwritable then [(programDocument (check source).statements).written 0]
          else []
        err := (if options.verbose then log (check source) else []) ++
          (if unwritable then [dumpFailure] else []) ++
          (check source).diagnostics.map Diagnostic.text } := by
  cases asked : options.ast with
  | false => simp [checkText, report, asked]
  | true =>
    rcases dump_cases room (check source).statements with
      ⟨dumped, finite, -⟩ | ⟨failed, infinite⟩ | ⟨deep, -⟩
    · simp [checkText, report, asked, dumped, finite]
    · simp [checkText, report, asked, failed, infinite]
    · exact absurd deep (h asked)

/-- A text gets a verdict, unless its tree is asked for and does not fit the room. -/
theorem checkText_cases (room : DumpRoom) (options : Options) (source : String) :
    (options.ast = true ∧ ¬room.Fits (check source).statements ∧
      checkText room options source = .error .dumpTooDeep) ∨
    ∃ report, checkText room options source = .ok report ∧
      (report.status = .ok ∨ report.status = .badSource) := by
  by_cases deep : options.ast = true ∧ dump room (check source).statements = .error .tooDeep
  · obtain ⟨asked, deep⟩ := deep
    exact .inl ⟨asked, not_fits_of_tooDeep deep, checkText_of_tooDeep asked deep⟩
  · exact .inr ⟨_, checkText_eq fun asked tooDeep => deep ⟨asked, tooDeep⟩, ite_eq_or_eq _ _ _⟩

end Command

/-- The command comes to a report on every text, except that a tree that is asked for may be too
deep for the room; it is if it needs too many calls. The report ends with 0 if scanning and parsing
find no error and the tree, if it is asked for, holds no infinite number, and with 65 otherwise. It
writes the tokens and the tree as they are asked for and nothing else, and reports a tree that
cannot be written and then every error, lexical errors first. Whether the tokens are asked for
matters neither to the verdict nor to what is reported, and whether the tree is asked for does not
matter to the errors. -/
theorem run_text (room : DumpRoom) (files : FileSystem) (source : String) (tokens ast : Bool) :
    ∃ d, parse (scan source).tokens = .ok d ∧
      (ast = true → room.conversion < Stmt.allCalls d.statements →
        Command.run room files { isString := true, tokens, ast } source = .error .dumpTooDeep) ∧
      ((ast = true ∧ ¬room.Fits d.statements ∧ ∀ tokens',
        Command.run room files { isString := true, tokens := tokens', ast } source =
          .error .dumpTooDeep) ∨
      ∃ report, Command.run room files { isString := true, tokens, ast } source = .ok report ∧
        let unwritable := ast && (Stmt.allLeaves d.statements).any Leaf.isInfinite
        let failure := if unwritable then [Command.dumpFailure] else []
        report.status.code =
          (if (scan source).errors = [] ∧ d.errors = [] ∧ unwritable = false then 0 else 65) ∧
        report.stdout = Report.written
          ((if tokens then (scan source).tokens.map Token.dump else []) ++
            if ast && !unwritable then [(programDocument d.statements).written 0] else []) ∧
        report.stderr = Report.written (failure ++
          (scan source).errors.map (fun e => (Diagnostic.lexical e).text) ++
          d.errors.map fun e => (Diagnostic.grammatical e).text) ∧
        (∀ tokens', ∃ other,
          Command.run room files { isString := true, tokens := tokens', ast } source = .ok other ∧
            other.status = report.status ∧ other.stderr = report.stderr) ∧
        ∃ plain,
          Command.run room files { isString := true, tokens, ast := false } source = .ok plain ∧
            report.stderr = Report.written failure ++ plain.stderr) := by
  have diagnostics : (check source).diagnostics = [] ↔
      (scan source).errors = [] ∧ (check source).program.errors = [] := by
    rw [Checked.diagnostics, List.append_eq_nil_iff, List.map_eq_nil_iff, List.map_eq_nil_iff]
    rfl
  have texts : (check source).diagnostics.map Diagnostic.text =
      (scan source).errors.map (fun e => (Diagnostic.lexical e).text) ++
        (check source).program.errors.map fun e => (Diagnostic.grammatical e).text := by
    rw [Checked.diagnostics, List.map_append, List.map_map, List.map_map]
    rfl
  refine ⟨(check source).program, parse_tokens_scan source, fun asked deep => ?_, ?_⟩
  · exact Command.checkText_of_tooDeep asked (Command.dump_of_lt_allCalls deep)
  by_cases deep : ast = true ∧ Command.dump room (check source).statements = .error .tooDeep
  · obtain ⟨asked, deep⟩ := deep
    exact .inl ⟨asked, Command.not_fits_of_tooDeep deep, fun _ =>
      Command.checkText_of_tooDeep asked deep⟩
  · have dumped : ast = true → Command.dump room (check source).statements ≠ .error .tooDeep :=
      fun asked tooDeep => deep ⟨asked, tooDeep⟩
    have plain := @Command.checkText_eq room { isString := true, tokens } source (by simp)
    refine .inr ⟨_, Command.checkText_eq dumped, ?_, rfl, ?_, fun tokens' =>
      ⟨_, Command.checkText_eq dumped, rfl, ?_⟩, _, plain, ?_⟩
    · simp only [diagnostics, and_assoc, Checked.statements]
      split <;> rfl
    · simp [Report.stderr, texts]
      rfl
    · simp [Report.stderr]
    · simp [Report.stderr, Report.written_append]
      rfl

end LoxCheck
