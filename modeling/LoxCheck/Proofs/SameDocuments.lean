import LoxCheck.Check
import LoxCheck.Proofs.PlacedTokens
import LoxCheck.Proofs.SourceOrder
import LoxCheck.Tree.Serialise

/-!
# The same trees, the same documents

A document leaves nothing out of a tree but what the tokens of its names and operators carry, and
these carry nothing if they were scanned. So two trees are the same exactly if their documents are,
whether fields are compared in order or by their names.
-/

namespace LoxCheck

namespace Document

/-! ## Comparing documents -/

mutual

/-- Equality of documents, scalars by type and value, fields by their names in any order. -/
def agrees : Document → Document → Bool
  | .null, .null => true
  | .boolean a, .boolean b => a == b
  | .integer a, .integer b => a == b
  | .number a, .number b => a.same b
  | .text a, .text b => a == b
  | .list a, .list b => allAgree a b
  | .record a, .record b => a.length == b.length && fieldsAgree a b
  | _, _ => false

/-- Equality of lists of documents. -/
def allAgree : List Document → List Document → Bool
  | [], [] => true
  | a :: as, b :: bs => agrees a b && allAgree as bs
  | _, _ => false

/-- Whether each of some fields has its value among other fields, too. -/
def fieldsAgree : List (String × Document) → List (String × Document) → Bool
  | [], _ => true
  | field :: rest, others => fieldAgrees field others && fieldsAgree rest others

/-- Whether a field has its value among other fields, too. -/
def fieldAgrees : String × Document → List (String × Document) → Bool
  | (name, a), others =>
    match others.lookup name with
    | some b => agrees a b
    | none => false

end

/-- A comparison of documents by their types and values. Where two records begin with fields of one
name and have no other of that name, these two are compared, and then the other fields. -/
structure Comparison (eq : Document → Document → Bool) : Prop where
  null : eq null null = true
  boolean (a b : Bool) : eq (boolean a) (boolean b) = (a == b)
  integer (a b : Int) : eq (integer a) (integer b) = (a == b)
  number (a b : Binary64) : eq (number a) (number b) = a.same b
  text (a b : String) : eq (text a) (text b) = (a == b)
  list_nil : eq (list []) (list []) = true
  list_nil_cons (b : Document) (bs : List Document) : eq (list []) (list (b :: bs)) = false
  list_cons_nil (a : Document) (as : List Document) : eq (list (a :: as)) (list []) = false
  list_cons (a b : Document) (as bs : List Document) :
    eq (list (a :: as)) (list (b :: bs)) = (eq a b && eq (list as) (list bs))
  record_nil : eq (record []) (record []) = true
  record_cons {name : String} (a b : Document) {as bs : List (String × Document)} :
    name ∉ as.map Prod.fst → name ∉ bs.map Prod.fst →
    eq (record ((name, a) :: as)) (record ((name, b) :: bs)) =
      (eq a b && eq (record as) (record bs))
  /-- Documents of different types are different. -/
  apart {a b : Document} : a.ctorIdx ≠ b.ctorIdx → eq a b = false

theorem comparison_same : Comparison same where
  null := by rw [same]
  boolean _ _ := by rw [same]
  integer _ _ := by rw [same]
  number _ _ := by rw [same]
  text _ _ := by rw [same]
  list_nil := by rw [same, allSame]
  list_nil_cons _ _ := by simp [same, allSame]
  list_cons_nil _ _ := by simp [same, allSame]
  list_cons _ _ _ _ := by rw [same, allSame, same]
  record_nil := by rw [same, fieldsSame]
  record_cons a b {as bs} _ _ := by simp [same, fieldsSame, fieldSame]
  apart {a b} types := by
    cases a <;> cases b <;> first | exact absurd rfl types | simp [same]

/-- A field of another name is never looked up. -/
theorem fieldsAgree_cons {name : String} (b : Document) {as : List (String × Document)}
    (fresh : name ∉ as.map Prod.fst) (bs : List (String × Document)) :
    fieldsAgree as ((name, b) :: bs) = fieldsAgree as bs := by
  induction as with
  | nil => rw [fieldsAgree, fieldsAgree]
  | cons field as ih =>
    rw [List.map_cons, List.mem_cons, not_or] at fresh
    have other : (field.1 == name) = false := by simpa using Ne.symm fresh.1
    rw [fieldsAgree, fieldsAgree, ih fresh.2, fieldAgrees, fieldAgrees, List.lookup_cons, other]

theorem comparison_agrees : Comparison agrees where
  null := by rw [agrees]
  boolean _ _ := by rw [agrees]
  integer _ _ := by rw [agrees]
  number _ _ := by rw [agrees]
  text _ _ := by rw [agrees]
  list_nil := by rw [agrees, allAgree]
  list_nil_cons _ _ := by simp [agrees, allAgree]
  list_cons_nil _ _ := by simp [agrees, allAgree]
  list_cons _ _ _ _ := by rw [agrees, allAgree, agrees]
  record_nil := by simp [agrees, fieldsAgree]
  record_cons {name} a b {as bs} fresh _ := by
    have first : fieldAgrees (name, a) ((name, b) :: bs) = agrees a b := by
      rw [fieldAgrees, List.lookup_cons_self]
    have lengths : (as.length + 1 == bs.length + 1) = (as.length == bs.length) := by
      rw [Bool.eq_iff_iff, beq_iff_eq, beq_iff_eq, Nat.add_right_cancel_iff]
    rw [agrees, agrees, fieldsAgree, first, fieldsAgree_cons b fresh, List.length_cons,
      List.length_cons, lengths, Bool.and_left_comm]
  apart {a b} types := by
    cases a <;> cases b <;> first | exact absurd rfl types | simp [agrees]

/-- A record that begins with a tag, which it has nowhere else. -/
def Tagged (d : Document) (tag : String) : Prop :=
  ∃ fields, d = record (("kind", text tag) :: fields) ∧ "kind" ∉ fields.map Prod.fst

namespace Comparison

variable {eq : Document → Document → Bool} (h : Comparison eq)
include h

/-- Behind a common tag the fields are compared. -/
theorem behind_tag (tag : String) {as bs : List (String × Document)}
    (fresh : "kind" ∉ as.map Prod.fst) (fresh' : "kind" ∉ bs.map Prod.fst) :
    eq (record (("kind", .text tag) :: as)) (record (("kind", .text tag) :: bs)) =
      eq (record as) (record bs) := by
  rw [h.record_cons _ _ fresh fresh', h.text, beq_self_eq_true, Bool.true_and]

/-- Records with different tags are different. -/
theorem of_tags {a b : Document} {s t : String} (ha : a.Tagged s) (hb : b.Tagged t)
    (different : s ≠ t) : eq a b = false := by
  obtain ⟨as, rfl, fresh⟩ := ha
  obtain ⟨bs, rfl, fresh'⟩ := hb
  rw [h.record_cons _ _ fresh fresh', h.text, beq_eq_false_iff_ne.2 different, Bool.false_and]

/-- A record is not null. -/
theorem null_of_tag {a : Document} {s : String} (ha : a.Tagged s) : eq .null a = false := by
  obtain ⟨as, rfl, -⟩ := ha
  exact h.apart (by simp [Document.ctorIdx])

theorem of_tag_null {a : Document} {s : String} (ha : a.Tagged s) : eq a .null = false := by
  obtain ⟨as, rfl, -⟩ := ha
  exact h.apart (by simp [Document.ctorIdx])

/-- Records of one field. -/
theorem one (name : String) (a b : Document) :
    eq (record [(name, a)]) (record [(name, b)]) = eq a b := by
  rw [h.record_cons a b List.not_mem_nil List.not_mem_nil, h.record_nil, Bool.and_true]

/-- Records of two fields. -/
theorem two {name name' : String} (different : name ≠ name') (a b a' b' : Document) :
    eq (record [(name, a), (name', a')]) (record [(name, b), (name', b')]) =
      (eq a b && eq a' b') := by
  have fresh (d : Document) : name ∉ [(name', d)].map Prod.fst := List.mem_singleton.not.2 different
  rw [h.record_cons a b (fresh a') (fresh b'), h.one]

/-- Records of three fields. -/
theorem three {name name' name'' : String} (different : name ∉ [name', name''])
    (different' : name' ≠ name'') (a b a' b' a'' b'' : Document) :
    eq (record [(name, a), (name', a'), (name'', a'')])
        (record [(name, b), (name', b'), (name'', b'')]) =
      (eq a b && (eq a' b' && eq a'' b'')) := by
  rw [h.record_cons a b different different, h.two different']

end Comparison

end Document

open Document

/-! ## Nodes whose tokens carry nothing -/

/-- A name or an operator without a value. Literals are what they are. -/
def Leaf.Bare : Leaf → Prop
  | .name token => token.literal = .nil
  | .operator token => token.literal = .nil
  | .literal _ => True

/-- Every name and operator of an expression is without a value. -/
def Expr.Bare (expr : Expr) : Prop := ∀ leaf ∈ expr.leaves, leaf.Bare

/-- Every name and operator of some statements is without a value. -/
def Stmt.AllBare (statements : List Stmt) : Prop := ∀ leaf ∈ Stmt.allLeaves statements, leaf.Bare

/-- Every name and operator of a statement is without a value. -/
def Stmt.Bare (stmt : Stmt) : Prop := ∀ leaf ∈ stmt.leaves, leaf.Bare

/-- Every name and operator of a node is without a value. -/
def Node.Bare : Node → Prop
  | .expression expr => expr.Bare
  | .statement stmt => stmt.Bare

namespace Expr

variable {operand left right value : Expr} {operator name : Token}

theorem bare_unary : (unary operator operand).Bare ↔ operator.literal = .nil ∧ operand.Bare := by
  simp [Bare, leaves, Leaf.Bare]

theorem bare_binary : (binary left operator right).Bare ↔
    left.Bare ∧ operator.literal = .nil ∧ right.Bare := by
  simp [Bare, leaves, Leaf.Bare, or_imp, forall_and]

theorem bare_reference : (reference name).Bare ↔ name.literal = .nil := by
  simp [Bare, leaves, Leaf.Bare]

theorem bare_assign : (assign name value).Bare ↔ name.literal = .nil ∧ value.Bare := by
  simp [Bare, leaves, Leaf.Bare]

theorem tagged (expr : Expr) : expr.toDocument.Tagged expr.tag := by
  cases expr <;> exact ⟨_, rfl, by simp⟩

theorem same_of_tags {a b : Expr} (different : a.tag ≠ b.tag) : a.same b = false := by
  cases a <;> cases b <;> first | exact absurd rfl different | rfl

end Expr

namespace Stmt

variable {name : Token} {value : Expr} {stmt : Stmt} {statements : List Stmt}

theorem bare_declaration : (declaration name none).Bare ↔ name.literal = .nil := by
  simp [Bare, leaves, Leaf.Bare]

theorem bare_declaration_some :
    (declaration name (some value)).Bare ↔ name.literal = .nil ∧ value.Bare := by
  simp [Bare, leaves, Leaf.Bare, Expr.Bare]

theorem bare_block : (block statements).Bare ↔ AllBare statements := by
  rw [Bare, leaves, AllBare]

theorem allBare_cons : AllBare (stmt :: statements) ↔ stmt.Bare ∧ AllBare statements := by
  simp [AllBare, Bare, allLeaves, or_imp, forall_and]

theorem tagged (stmt : Stmt) : stmt.toDocument.Tagged stmt.tag := by
  cases stmt with
  | expression | print | block => rw [toDocument]; exact ⟨_, rfl, by simp⟩
  | declaration _ initializer => cases initializer <;> rw [toDocument] <;> exact ⟨_, rfl, by simp⟩

theorem same_of_tags {a b : Stmt} (different : a.tag ≠ b.tag) : a.same b = false := by
  rcases a with _ | _ | ⟨_, _ | _⟩ | _ <;> rcases b with _ | _ | ⟨_, _ | _⟩ | _ <;>
    first | exact absurd rfl different | simp [same]

end Stmt

/-! ## The same documents -/

namespace Document.Comparison

variable {eq : Document → Document → Bool} (h : Comparison eq)
include h

/-- Tokens without a value are compared in all their other parts. -/
theorem token {a b : Token} (ha : a.literal = .nil) (hb : b.literal = .nil) :
    eq a.toDocument b.toDocument = a.same b := by
  have kinds : (a.kind.name == b.kind.name) = (a.kind == b.kind) := by
    rw [Bool.eq_iff_iff, beq_iff_eq, beq_iff_eq, TokenKind.name_inj]
  have carried : a.literal.alike b.literal = true := by rw [ha, hb]; rfl
  rw [Token.toDocument, Token.toDocument, h.three (by decide) (by decide), h.text, h.text,
    h.integer, kinds, Token.same, carried, Bool.and_true, Bool.and_assoc]

/-- Literals are compared by type and value. -/
theorem value (a b : Value) : eq a.toDocument b.toDocument = a.same b := by
  cases a <;> cases b
  case nil.nil => exact h.null
  case boolean.boolean => exact h.boolean _ _
  case number.number => exact h.number _ _
  case text.text => exact h.text _ _
  all_goals exact h.apart (by simp [Value.toDocument, Document.ctorIdx])

theorem expr_of_tags {a b : Expr} (different : a.tag ≠ b.tag) :
    eq a.toDocument b.toDocument = a.same b := by
  rw [h.of_tags a.tagged b.tagged different, Expr.same_of_tags different]

theorem stmt_of_tags {a b : Stmt} (different : a.tag ≠ b.tag) :
    eq a.toDocument b.toDocument = a.same b := by
  rw [h.of_tags a.tagged b.tagged different, Stmt.same_of_tags different]

/-- Expressions are compared variant by variant, and in a variant field by field. -/
theorem expr {a b : Expr} (ha : a.Bare) (hb : b.Bare) :
    eq a.toDocument b.toDocument = a.same b := by
  induction a generalizing b with
  | literal v =>
    cases b with
    | literal v' =>
      rw [Expr.toDocument, Expr.toDocument, Expr.same, ← h.value]
      exact (h.behind_tag _ (by simp) (by simp)).trans (h.one ..)
    | _ => exact h.expr_of_tags (by simp [Expr.tag])
  | grouping inner ih =>
    cases b with
    | grouping inner' =>
      rw [Expr.toDocument, Expr.toDocument, Expr.same, ← ih (b := inner') ha hb]
      exact (h.behind_tag _ (by simp) (by simp)).trans (h.one ..)
    | _ => exact h.expr_of_tags (by simp [Expr.tag])
  | unary operator operand ih =>
    cases b with
    | unary operator' operand' =>
      rw [Expr.bare_unary] at ha hb
      rw [Expr.toDocument, Expr.toDocument, Expr.same, ← h.token ha.1 hb.1, ← ih ha.2 hb.2]
      exact (h.behind_tag _ (by simp) (by simp)).trans (h.two (by decide) ..)
    | _ => exact h.expr_of_tags (by simp [Expr.tag])
  | binary left operator right ih ih' =>
    cases b with
    | binary left' operator' right' =>
      rw [Expr.bare_binary] at ha hb
      obtain ⟨ha_left, ha_operator, ha_right⟩ := ha
      obtain ⟨hb_left, hb_operator, hb_right⟩ := hb
      rw [Expr.toDocument, Expr.toDocument, Expr.same, ← ih ha_left hb_left,
        ← h.token ha_operator hb_operator, ← ih' ha_right hb_right, Bool.and_assoc]
      exact (h.behind_tag _ (by simp) (by simp)).trans (h.three (by decide) (by decide) ..)
    | _ => exact h.expr_of_tags (by simp [Expr.tag])
  | reference name =>
    cases b with
    | reference name' =>
      rw [Expr.bare_reference] at ha hb
      rw [Expr.toDocument, Expr.toDocument, Expr.same, ← h.token ha hb]
      exact (h.behind_tag _ (by simp) (by simp)).trans (h.one ..)
    | _ => exact h.expr_of_tags (by simp [Expr.tag])
  | assign name value ih =>
    cases b with
    | assign name' value' =>
      rw [Expr.bare_assign] at ha hb
      rw [Expr.toDocument, Expr.toDocument, Expr.same, ← h.token ha.1 hb.1, ← ih ha.2 hb.2]
      exact (h.behind_tag _ (by simp) (by simp)).trans (h.two (by decide) ..)
    | _ => exact h.expr_of_tags (by simp [Expr.tag])

mutual

/-- Statements are compared variant by variant, and in a variant field by field. -/
theorem stmt : ∀ (a : Stmt) {b : Stmt}, a.Bare → b.Bare → eq a.toDocument b.toDocument = a.same b
  | .expression e, b, ha, hb => by
    cases b with
    | expression e' =>
      rw [Stmt.toDocument, Stmt.toDocument, Stmt.same, ← h.expr (a := e) (b := e') ha hb]
      exact (h.behind_tag _ (by simp) (by simp)).trans (h.one ..)
    | _ => exact h.stmt_of_tags (by simp [Stmt.tag])
  | .print e, b, ha, hb => by
    cases b with
    | print e' =>
      rw [Stmt.toDocument, Stmt.toDocument, Stmt.same, ← h.expr (a := e) (b := e') ha hb]
      exact (h.behind_tag _ (by simp) (by simp)).trans (h.one ..)
    | _ => exact h.stmt_of_tags (by simp [Stmt.tag])
  | .declaration name none, b, ha, hb => by
    cases b with
    | declaration name' initializer =>
      cases initializer with
      | none =>
        rw [Stmt.bare_declaration] at ha hb
        rw [Stmt.toDocument, Stmt.toDocument, Stmt.same, ← h.token ha hb]
        refine (h.behind_tag _ (by simp) (by simp)).trans ((h.two (by decide) ..).trans ?_)
        rw [h.null, Bool.and_true]
      | some e' =>
        have different : (Stmt.declaration name none).same (.declaration name' (some e')) = false :=
          by simp [Stmt.same]
        rw [Stmt.toDocument, Stmt.toDocument, different]
        refine (h.behind_tag _ (by simp) (by simp)).trans ((h.two (by decide) ..).trans ?_)
        rw [h.null_of_tag e'.tagged, Bool.and_false]
    | _ => exact h.stmt_of_tags (by simp [Stmt.tag])
  | .declaration name (some e), b, ha, hb => by
    cases b with
    | declaration name' initializer =>
      cases initializer with
      | none =>
        have different : (Stmt.declaration name (some e)).same (.declaration name' none) = false :=
          by simp [Stmt.same]
        rw [Stmt.toDocument, Stmt.toDocument, different]
        refine (h.behind_tag _ (by simp) (by simp)).trans ((h.two (by decide) ..).trans ?_)
        rw [h.of_tag_null e.tagged, Bool.and_false]
      | some e' =>
        rw [Stmt.bare_declaration_some] at ha hb
        rw [Stmt.toDocument, Stmt.toDocument, Stmt.same, ← h.token ha.1 hb.1, ← h.expr ha.2 hb.2]
        exact (h.behind_tag _ (by simp) (by simp)).trans (h.two (by decide) ..)
    | _ => exact h.stmt_of_tags (by simp [Stmt.tag])
  | .block as, b, ha, hb => by
    cases b with
    | block bs =>
      rw [Stmt.bare_block] at ha hb
      rw [Stmt.toDocument, Stmt.toDocument, Stmt.same, ← stmts as ha hb]
      exact (h.behind_tag _ (by simp) (by simp)).trans (h.one ..)
    | _ => exact h.stmt_of_tags (by simp [Stmt.tag])

/-- Programs are compared statement by statement. -/
theorem stmts : ∀ (as : List Stmt) {bs : List Stmt}, Stmt.AllBare as → Stmt.AllBare bs →
    eq (programDocument as) (programDocument bs) = Stmt.allSame as bs
  | [], [], _, _ => by
    rw [Stmt.allSame]
    exact h.list_nil
  | [], b :: bs, _, _ => by
    rw [Stmt.allSame]
    · exact h.list_nil_cons b.toDocument (Stmt.allToDocuments bs)
    all_goals simp
  | a :: as, [], _, _ => by
    rw [Stmt.allSame]
    · exact h.list_cons_nil a.toDocument (Stmt.allToDocuments as)
    all_goals simp
  | a :: as, b :: bs, ha, hb => by
    rw [Stmt.allBare_cons] at ha hb
    rw [Stmt.allSame, ← stmt a ha.1 hb.1, ← stmts as ha.2 hb.2]
    exact h.list_cons ..

end

theorem node {a b : Node} (ha : a.Bare) (hb : b.Bare) :
    eq a.toDocument b.toDocument = a.same b := by
  have apart (e : Expr) (s : Stmt) : e.tag ≠ s.tag := by
    cases e <;> cases s <;> simp [Expr.tag, Stmt.tag]
  cases a <;> cases b
  case expression.expression => exact h.expr ha hb
  case statement.statement => exact h.stmt _ ha hb
  case expression.statement e s => exact h.of_tags e.tagged s.tagged (apart e s)
  case statement.expression s e => exact h.of_tags s.tagged e.tagged (apart e s).symm

end Document.Comparison

/-! ## Parsed sources -/

/-- The scanner gives values to numbers and strings only, and names and operators are neither. -/
theorem Leaf.ReadFrom.bare {leaf : Leaf} {token : Token} {cs : List Char}
    (read : leaf.ReadFrom token) (scanned : token ∈ (scanFrom 1 cs).body) : leaf.Bare := by
  obtain ⟨after, maximal⟩ := exists_maximal scanned
  have apart : ∀ kind ∈ operatorKinds, kind ≠ .number ∧ kind ≠ .string := by decide
  cases read with
  | name kind => exact maximal.plain (by rw [kind]; decide) (by rw [kind]; decide)
  | operator listed => exact maximal.plain (apart _ listed).1 (apart _ listed).2
  | literal | kwTrue | kwFalse | kwNil => trivial

theorem bare_of_scanned {leaves : List Leaf} {part : List Token} {cs : List Char}
    (gathered : List.SublistForall₂ Leaf.ReadFrom leaves part)
    (scanned : part ⊆ (scanFrom 1 cs).body) : ∀ leaf ∈ leaves, leaf.Bare := by
  induction gathered with
  | nil => exact fun _ listed => absurd listed List.not_mem_nil
  | cons read _ ih =>
    rw [List.cons_subset] at scanned
    exact List.forall_mem_cons.2 ⟨read.bare scanned.1, ih scanned.2⟩
  | cons_right _ ih => exact ih (List.cons_subset.1 scanned).2

theorem allBare_of_parse {source : String} {maxDepth : Int} {d : Declarations}
    (parsed : parse (scan source).tokens maxDepth = .ok d) : Stmt.AllBare d.statements := by
  have readable : ∀ token ∈ (scan source).body, token.kind ≠ .eof :=
    fun _ => kind_ne_eof_of_mem_scanFrom
  unfold parse Scan.tokens at parsed
  rw [TokenCursor.ofTokens?_append_singleton readable rfl] at parsed
  obtain rfl := Except.ok.inj parsed
  obtain ⟨n, -, gathered⟩ := Parse.gathered_program (room maxDepth 0)
    (.start (scan source).body (scan source).stop (scan source).stop)
  exact bare_of_scanned gathered (List.take_subset n _)

/-- Two nodes whose names and operators carry no values are the same exactly if their documents
are. All names and operators of parsed sources carry none, so the statements of two sources are
the same exactly if their documents are. Documents are compared with the types of their scalars,
and the fields of their records in order or by their names. -/
theorem same_iff_same_documents :
    (∀ a b : Node, a.Bare → b.Bare →
      (a.same b ↔ a.toDocument.same b.toDocument) ∧
      (a.same b ↔ a.toDocument.agrees b.toDocument)) ∧
    (∀ (source : String) (maxDepth : Int) (d : Declarations),
      parse (scan source).tokens maxDepth = .ok d →
        ∀ leaf ∈ Stmt.allLeaves d.statements, leaf.Bare) ∧
    (∀ (source source' : String) (maxDepth maxDepth' : Int) (d d' : Declarations),
      parse (scan source).tokens maxDepth = .ok d →
      parse (scan source').tokens maxDepth' = .ok d' →
        (Stmt.allSame d.statements d'.statements ↔
          (programDocument d.statements).same (programDocument d'.statements)) ∧
        (Stmt.allSame d.statements d'.statements ↔
          (programDocument d.statements).agrees (programDocument d'.statements))) := by
  refine ⟨fun a b ha hb => ?_, fun source maxDepth d => allBare_of_parse, ?_⟩
  · rw [comparison_same.node ha hb, comparison_agrees.node ha hb]
    exact ⟨Iff.rfl, Iff.rfl⟩
  · intro source source' maxDepth maxDepth' d d' parsed parsed'
    have bare := allBare_of_parse parsed
    have bare' := allBare_of_parse parsed'
    rw [comparison_same.stmts _ bare bare', comparison_agrees.stmts _ bare bare']
    exact ⟨Iff.rfl, Iff.rfl⟩

/-- The two zeros are one number, but a truth value is none, and a missing initializer is not the
literal nil. -/
theorem same_iff_same_documents_zeros :
    (Node.expression (.literal (.number (.zero true)))).toDocument.agrees
        (Node.expression (.literal (.number (.zero false)))).toDocument ∧
      ¬ (Node.expression (.literal (.boolean true))).toDocument.agrees
        (Node.expression (.literal (.number .one))).toDocument ∧
      ∃ d d', parse (scan "var a;").tokens = .ok d ∧ parse (scan "var a = nil;").tokens = .ok d' ∧
        Stmt.AllBare d.statements ∧
        ¬ (programDocument d.statements).agrees (programDocument d'.statements) := by
  obtain ⟨nodes, bare, sources⟩ := same_iff_same_documents
  have literal (value : Value) : (Node.expression (.literal value)).Bare := by
    simp [Node.Bare, Expr.Bare, Expr.leaves, Leaf.Bare]
  refine ⟨(nodes _ _ (literal _) (literal _)).2.1 (by decide),
    fun agree => absurd ((nodes _ _ (literal _) (literal _)).2.2 agree) (by decide),
    _, _, parse_tokens_scan _, parse_tokens_scan _, bare _ _ _ (parse_tokens_scan _), ?_⟩
  rw [← (sources _ _ _ _ _ _ (parse_tokens_scan _) (parse_tokens_scan _)).2]
  decide +kernel

-- A value that a name carries is compared with the trees, but documents do not show it.
example : (Expr.reference ⟨.identifier, "x", .number .one, 1⟩).toDocument.same
      (Expr.reference ⟨.identifier, "x", .nil, 1⟩).toDocument ∧
    ¬ (Expr.reference ⟨.identifier, "x", .number .one, 1⟩).same
      (.reference ⟨.identifier, "x", .nil, 1⟩) := by
  decide +kernel

end LoxCheck
