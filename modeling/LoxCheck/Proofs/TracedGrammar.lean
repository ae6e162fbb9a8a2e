import LoxCheck.Proofs.StepTheorems

/-!
# The grammar with a trace of its declarations

The grammar told together with the calls that it makes for declarations, at top level and in blocks.
A call is told by where it begins and by the levels of nesting left there; what it comes to is what
the step for declarations comes to. Without the trace the grammar is the one that parses.
-/

namespace LoxCheck

/-- A call of the step for declarations: the levels of nesting that are left, and the cursor that it
begins at. -/
structure DeclarationCall where
  room : Nat
  start : TokenCursor
  deriving DecidableEq, Repr

namespace DeclarationCall

/-- What a call comes to before any recovery. -/
def attempt (call : DeclarationCall) : Outcome Stmt := Parse.attempt call.room call.start

/-- What a call comes to. -/
def outcome (call : DeclarationCall) : Outcome Stmt := Parse.declaration call.room call.start

end DeclarationCall

/-- A parsing step that also tells the calls it makes for declarations, in the order in which they
end. -/
def Traced (α : Type) : Type := TokenCursor → Outcome α × List DeclarationCall

namespace Traced

variable {α β : Type}

/-! ## Traced steps -/

/-- A step that makes no calls for declarations. -/
def silent (p : Parse α) : Traced α := fun c => (p c, [])

/-- A step and then another that goes on from its result. -/
def andThen (p : Traced α) (f : α → Traced β) : Traced β := fun c =>
  match p c with
  | (⟨none, errors, after⟩, calls) => (⟨none, errors, after⟩, calls)
  | (⟨some a, errors, after⟩, calls) =>
    let (o, others) := f a after
    ({ o with errors := errors ++ o.errors }, calls ++ others)

instance : Monad Traced where
  pure a := silent (Parse.done a)
  bind := andThen

instance : MonadLift Parse Traced := ⟨silent⟩

/-! ## Declarations and blocks -/

/-- A statement that is no variable declaration. -/
def statementWith (expression : Parse Expr) (block : Traced Stmt) : Traced Stmt := do
  match ← Parse.takeIf [.kwPrint] with
  | some _ => Parse.printStatement expression
  | none =>
    match ← Parse.takeIf [.leftBrace] with
    | some _ => block
    | none => Parse.expressionStatement expression

/-- A declaration without recovery. -/
def attemptWith (expression : Parse Expr) (block : Traced Stmt) : Traced Stmt := do
  match ← Parse.takeIf [.kwVar] with
  | some _ => Parse.varDeclaration expression
  | none => statementWith expression block

/-- A call for a declaration, when `room` levels of nesting are left. It ends after the calls made
in it. -/
def declarationWith (room : Nat) (block : Traced Stmt) : Traced Stmt := fun c =>
  let (o, calls) := attemptWith (Parse.expression room) block c
  (Parse.recovering (fun _ => o) c, calls ++ [⟨room, c⟩])

/-- Declarations up to a token of one of some kinds or the end. -/
def declarations (stops : List TokenKind) (declaration : Traced Stmt) :
    List Token → TokenCursor → Declarations × List DeclarationCall
  | [], c => (⟨[], [], c⟩, [])
  | _ :: fuel, c =>
    if c.atEnd || stops.contains c.current.kind then (⟨[], [], c⟩, [])
    else
      let (first, calls) := declaration c
      let (others, calls') := declarations stops declaration fuel first.cursor
      (⟨first.result.toList ++ others.statements, first.errors ++ others.errors, others.cursor⟩,
        calls ++ calls')

/-- The rest of a block, over the step for its declarations. -/
def blockWith (declaration : Traced Stmt) : Traced Stmt := fun c =>
  let (body, calls) := declarations [.rightBrace] declaration c.ahead c
  let closing := Parse.expect .rightBrace .expectBraceAfterBlock body.cursor
  (⟨closing.result.map fun _ => .block body.statements, body.errors ++ closing.errors,
    closing.cursor⟩, calls)

/-- The rest of a block, when `room` levels of nesting are left. -/
def block : Nat → Traced Stmt
  | 0 => silent Parse.overdeepBlock
  | room + 1 => blockWith (declarationWith room (block room))

/-- A variable declaration or a statement, when `room` levels of nesting are left. -/
def declaration (room : Nat) : Traced Stmt := declarationWith room (block room)

/-- All declarations up to the end, when `room` levels of nesting are left. -/
def program (room : Nat) (c : TokenCursor) : Declarations × List DeclarationCall :=
  declarations [] (declaration room) c.ahead c

/-- The statements of a token sequence and its syntax errors, and all calls for declarations. -/
def parse (tokens : List Token) (maxDepth : Int := defaultMaxDepth) :
    Except SequenceFault (Declarations × List DeclarationCall) :=
  match TokenCursor.ofTokens? tokens with
  | some start => .ok (program (room maxDepth 0) start)
  | none => .error .missingEnd

/-! ## Without the trace -/

/-- Without its trace the one step is the other. -/
def Erases (t : Traced α) (p : Parse α) : Prop := ∀ c, (t c).1 = p c

theorem andThen_of_none {p : Traced α} {f : α → Traced β} {c : TokenCursor}
    (h : (p c).1.result = none) :
    p.andThen f c = (⟨none, (p c).1.errors, (p c).1.cursor⟩, (p c).2) := by
  unfold andThen
  split
  · next heq => rw [heq]
  · next heq =>
    rw [heq] at h
    exact absurd h (by simp)

theorem andThen_of_some {p : Traced α} {f : α → Traced β} {c : TokenCursor} {a : α}
    (h : (p c).1.result = some a) :
    p.andThen f c =
      (⟨(f a (p c).1.cursor).1.result, (p c).1.errors ++ (f a (p c).1.cursor).1.errors,
        (f a (p c).1.cursor).1.cursor⟩, (p c).2 ++ (f a (p c).1.cursor).2) := by
  unfold andThen
  split
  · next heq =>
    rw [heq] at h
    exact absurd h (by simp)
  · next b errors after calls heq =>
    rw [heq] at h
    obtain rfl : b = a := by simpa using h
    rw [heq]

theorem erases_silent (p : Parse α) : Erases (silent p) p := fun _ => rfl

theorem Erases.andThen {t : Traced α} {p : Parse α} {f : α → Traced β} {g : α → Parse β}
    (h : Erases t p) (hf : ∀ a, Erases (f a) (g a)) : Erases (t.andThen f) (p.andThen g) := by
  intro c
  cases hr : (p c).result with
  | none =>
    rw [andThen_of_none (by rw [h c, hr]), Parse.andThen_of_none hr, h c]
  | some a =>
    rw [andThen_of_some (by rw [h c, hr]), Parse.andThen_of_some hr, h c, hf a]

/-- The two ways to go on after looking for a token. -/
theorem Erases.choice {kinds : List TokenKind} {f : Option Token → Traced β}
    {g : Option Token → Parse β} (taken : ∀ token, Erases (f (some token)) (g (some token)))
    (left : Erases (f none) (g none)) :
    Erases ((silent (Parse.takeIf kinds)).andThen f) ((Parse.takeIf kinds).andThen g) := by
  refine (erases_silent _).andThen fun found => ?_
  cases found with
  | none => exact left
  | some token => exact taken token

section

variable {room : Nat} {expression : Parse Expr} {t : Traced Stmt} {p : Parse Stmt}

theorem Erases.statementWith (h : Erases t p) :
    Erases (statementWith expression t) (Parse.statementWith expression p) :=
  .choice (fun _ => erases_silent _) (.choice (fun _ => h) (erases_silent _))

theorem Erases.attemptWith (h : Erases t (Parse.block room)) :
    Erases (attemptWith (Parse.expression room) t) (Parse.attempt room) :=
  .choice (fun _ => erases_silent _) h.statementWith

theorem Erases.declarationWith (h : Erases t (Parse.block room)) :
    Erases (declarationWith room t) (Parse.declaration room) := by
  intro c
  show Parse.recovering (fun _ => (Traced.attemptWith (Parse.expression room) t c).1) c = _
  rw [h.attemptWith c]
  rfl

theorem Erases.declarations (h : Erases t p) (stops : List TokenKind) (fuel : List Token)
    (c : TokenCursor) :
    (declarations stops t fuel c).1 = Parse.declarations stops p fuel c := by
  induction fuel generalizing c with
  | nil => rfl
  | cons token fuel ih =>
    unfold Traced.declarations Parse.declarations
    split
    · rfl
    · simp only [h c, ih]

theorem Erases.blockWith (h : Erases t p) : Erases (blockWith t) (Parse.blockWith p) := by
  intro c
  simp only [Traced.blockWith, Parse.blockWith, h.declarations]

end

theorem erases_block (room : Nat) : Erases (block room) (Parse.block room) := by
  induction room with
  | zero => exact erases_silent _
  | succ room ih => exact ih.declarationWith.blockWith

theorem erases_declaration (room : Nat) : Erases (declaration room) (Parse.declaration room) :=
  (erases_block room).declarationWith

theorem erases_program (room : Nat) (c : TokenCursor) :
    (program room c).1 = Parse.program room c :=
  (erases_declaration room).declarations [] c.ahead c

end Traced

end LoxCheck
