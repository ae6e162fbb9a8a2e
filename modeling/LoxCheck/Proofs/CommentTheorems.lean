import LoxCheck.Lexical.Piece

/-!
# Nested block comments

A comment is `/*`, then items, then `*/`, where an item is a comment or a character at which neither
`/*` nor `*/` begins. `Piece.closeComment`, which counts the open comments, finds just the texts that
close a comment in this sense.
-/

namespace LoxCheck

/-- What stands in a block comment after its opening, the closing included. -/
inductive CommentBody : List Char → Prop where
  | close : CommentBody ['*', '/']
  | nested {inner rest : List Char} :
    CommentBody inner → CommentBody rest → CommentBody ('/' :: '*' :: (inner ++ rest))
  | char {c : Char} {rest : List Char} :
    ¬(c = '/' ∧ rest.head? = some '*') → ¬(c = '*' ∧ rest.head? = some '/') →
    CommentBody rest → CommentBody (c :: rest)

/-- What stands after an opening when `depth` comments around it have to be closed too. -/
inductive CommentBodies : Nat → List Char → Prop where
  | one {body : List Char} : CommentBody body → CommentBodies 0 body
  | more {depth : Nat} {body rest : List Char} :
    CommentBody body → CommentBodies depth rest → CommentBodies (depth + 1) (body ++ rest)

theorem CommentBody.ne_nil {body : List Char} (h : CommentBody body) : body ≠ [] := by
  cases h <;> exact List.cons_ne_nil _ _

/-- The character that follows is the same whatever comes after the comment. -/
theorem CommentBody.head?_append {body : List Char} (h : CommentBody body) (after : List Char) :
    (body ++ after).head? = body.head? := by
  obtain ⟨c, rest, rfl⟩ := List.exists_cons_of_ne_nil h.ne_nil
  rfl

namespace CommentBodies

theorem ne_nil {depth : Nat} {body : List Char} (h : CommentBodies depth body) : body ≠ [] := by
  cases h with
  | one h => exact h.ne_nil
  | more h => exact List.append_ne_nil_of_left_ne_nil h.ne_nil _

theorem head?_append {depth : Nat} {body : List Char} (h : CommentBodies depth body)
    (after : List Char) : (body ++ after).head? = body.head? := by
  obtain ⟨c, rest, rfl⟩ := List.exists_cons_of_ne_nil h.ne_nil
  rfl

/-- One comment inside the innermost one. -/
theorem nested {depth : Nat} {body : List Char} (h : CommentBodies (depth + 1) body) :
    CommentBodies depth ('/' :: '*' :: body) := by
  cases h with
  | more inner rest =>
    cases rest with
    | one rest => exact .one (.nested inner rest)
    | @more _ body rest outer others =>
      have joined := CommentBodies.more (.nested inner outer) others
      rwa [List.cons_append, List.cons_append, List.append_assoc] at joined

theorem close {depth : Nat} {body : List Char} (h : CommentBodies depth body) :
    CommentBodies (depth + 1) ('*' :: '/' :: body) :=
  .more .close h

theorem char {depth : Nat} {c : Char} {body : List Char} (h : CommentBodies depth body)
    (opens : ¬(c = '/' ∧ body.head? = some '*')) (closes : ¬(c = '*' ∧ body.head? = some '/')) :
    CommentBodies depth (c :: body) := by
  cases h with
  | one h => exact .one (.char opens closes h)
  | more first rest =>
    rw [first.head?_append] at opens closes
    exact .more (.char opens closes first) rest

end CommentBodies

namespace Piece

/-! ## The search for the closing -/

theorem closeComment_open (depth : Nat) (read rest : List Char) :
    closeComment depth read ('/' :: '*' :: rest) =
      closeComment (depth + 1) ('*' :: '/' :: read) rest := by
  rw [closeComment]

theorem closeComment_close (read rest : List Char) :
    closeComment 0 read ('*' :: '/' :: rest) = some (('/' :: '*' :: read).reverse, rest) := by
  rw [closeComment]

theorem closeComment_close_inner (depth : Nat) (read rest : List Char) :
    closeComment (depth + 1) read ('*' :: '/' :: rest) =
      closeComment depth ('/' :: '*' :: read) rest := by
  rw [closeComment]

theorem closeComment_char {c : Char} (depth : Nat) (read : List Char) {rest : List Char}
    (opens : ¬(c = '/' ∧ rest.head? = some '*')) (closes : ¬(c = '*' ∧ rest.head? = some '/')) :
    closeComment depth read (c :: rest) = closeComment depth (c :: read) rest := by
  rw [closeComment]
  · intro tail hc hrest
    exact opens ⟨hc, by rw [hrest, List.head?_cons]⟩
  · intro tail hc hrest
    exact closes ⟨hc, by rw [hrest, List.head?_cons]⟩

/-- What the search returns closes the comments that are open. -/
theorem bodies_of_closeComment {depth : Nat} {read cs body after : List Char}
    (h : closeComment depth read cs = some (body, after)) :
    ∃ inside, body = read.reverse ++ inside ∧ cs = inside ++ after ∧
      CommentBodies depth inside := by
  fun_induction closeComment depth read cs with
  | case1 => exact absurd h (by simp)
  | case2 depth read rest ih =>
    obtain ⟨inside, hbody, rfl, closes⟩ := ih h
    exact ⟨'/' :: '*' :: inside, by simp [hbody], rfl, closes.nested⟩
  | case3 read rest =>
    obtain ⟨hbody, rfl⟩ := Prod.mk.inj (Option.some.inj h)
    exact ⟨['*', '/'], by simp [← hbody], rfl, .one .close⟩
  | case4 read rest outer ih =>
    obtain ⟨inside, hbody, rfl, closes⟩ := ih h
    exact ⟨'*' :: '/' :: inside, by simp [hbody], rfl, closes.close⟩
  | case5 depth read c rest opens closes ih =>
    obtain ⟨inside, hbody, rfl, bodies⟩ := ih h
    have same := bodies.head?_append after
    -- the character behind is in the body, so that the body alone decides on the pair
    have not_open : ¬(c = '/' ∧ inside.head? = some '*') := by
      rintro ⟨hc, star⟩
      obtain ⟨tail, ht⟩ := List.head?_eq_some_iff.1 (same.trans star)
      exact opens tail hc ht
    have not_close : ¬(c = '*' ∧ inside.head? = some '/') := by
      rintro ⟨hc, slash⟩
      obtain ⟨tail, ht⟩ := List.head?_eq_some_iff.1 (same.trans slash)
      exact closes tail hc ht
    exact ⟨c :: inside, by simp [hbody], rfl, bodies.char not_open not_close⟩

/-- The search passes over a comment body: it ends there, or it goes on one level further out. -/
theorem closeComment_body {body : List Char} (h : CommentBody body) (read after : List Char) :
    closeComment 0 read (body ++ after) = some (read.reverse ++ body, after) ∧
      ∀ depth, closeComment (depth + 1) read (body ++ after) =
        closeComment depth (body.reverse ++ read) after := by
  induction h generalizing read after with
  | close =>
    refine ⟨?_, fun depth => closeComment_close_inner depth read after⟩
    rw [List.cons_append, List.singleton_append, closeComment_close]
    simp
  | @nested inner rest _ _ ih ih' =>
    -- the inner comment brings the search back to the depth that it opened at
    have inside : ∀ depth, closeComment depth read ('/' :: '*' :: (inner ++ rest) ++ after) =
        closeComment depth (inner.reverse ++ '*' :: '/' :: read) (rest ++ after) := by
      intro depth
      rw [List.cons_append, List.cons_append, List.append_assoc, closeComment_open]
      exact (ih _ _).2 depth
    refine ⟨?_, fun depth => ?_⟩
    · rw [inside, (ih' _ _).1]
      simp
    · rw [inside, (ih' _ _).2]
      simp
  | @char c rest opens closes body ih =>
    have same := body.head?_append after
    have passed : ∀ depth, closeComment depth read (c :: rest ++ after) =
        closeComment depth (c :: read) (rest ++ after) := by
      intro depth
      exact closeComment_char depth read (same ▸ opens) (same ▸ closes)
    refine ⟨?_, fun depth => ?_⟩
    · rw [passed, (ih _ _).1]
      simp
    · rw [passed, (ih _ _).2]
      simp

/-- The search from an opening finds the body of the comment, if there is one. -/
theorem closeComment_eq_some_iff {cs body after : List Char} :
    closeComment 0 [] cs = some (body, after) ↔ cs = body ++ after ∧ CommentBody body := by
  constructor
  · intro h
    obtain ⟨inside, hbody, rfl, closes⟩ := bodies_of_closeComment h
    obtain rfl : body = inside := hbody
    cases closes with
    | one closes => exact ⟨rfl, closes⟩
  · rintro ⟨rfl, h⟩
    exact (closeComment_body h [] after).1

theorem closeComment_eq_none_iff {cs : List Char} :
    closeComment 0 [] cs = none ↔ ∀ body after, cs = body ++ after → ¬CommentBody body := by
  constructor
  · intro h body after cut closes
    rw [closeComment_eq_some_iff.2 ⟨cut, closes⟩] at h
    exact absurd h (by simp)
  · intro h
    cases found : closeComment 0 [] cs with
    | none => rfl
    | some split =>
      obtain ⟨cut, closes⟩ := closeComment_eq_some_iff.1 found
      exact absurd closes (h _ _ cut)

end Piece

end LoxCheck
