import LoxCheck.Proofs.ReachableStates
import Mathlib.Data.List.Chain

/-!
# Procedures

A parse told one change at a time. A procedure looks at the state and makes single changes to it,
so every state that it passes through can be spoken of, also those in the middle of a step. Each of
them can be reached from those before it, whatever the procedure does, and so what each change keeps
is kept by every procedure. That a level is closed only where one is open is up to the procedure.
-/

namespace LoxCheck

/-- A single change of a parse in progress. -/
inductive Move where
  | advance
  | addError (token : Token) (problem : SyntaxProblem)
  | enter
  | leave
  | note
  deriving DecidableEq, Repr

namespace Move

/-- The state after a change. -/
def apply : Move → ParseState → ParseState
  | advance, p => p.advance.2
  | addError token problem, p => p.addError token problem
  | enter, p => p.enter.2
  | leave, p => p.leave
  | note, p => p.note

/-- Anything can be done in any state, except that a level can be closed only if one is open. -/
theorem changes {m : Move} (other : m ≠ leave) (p : ParseState) : p.Changes (m.apply p) := by
  cases m with
  | advance => exact .advance
  | addError token problem => exact .addError token problem
  | enter => exact .enter
  | leave => exact absurd rfl other
  | note => exact .note

/-- Closing a level where none is open does nothing, so every change leads to a state that can be
reached. -/
theorem reaches (m : Move) (p : ParseState) : p.Reaches (m.apply p) := by
  by_cases closes : m = leave
  · subst closes
    rcases Nat.eq_zero_or_pos p.depth with closed | opened
    · have same : p.leave = p := by rw [ParseState.leave, closed, Nat.zero_sub, ← closed]
      rw [apply, same]
      exact .refl
    · exact .single (.leave opened)
  · exact .single (changes closes p)

end Move

/-- What is done to a state and what comes of it: a result, or a look at the state on which the
rest depends, or a change and the rest. -/
inductive Procedure (α : Type) where
  | finish (result : α)
  | look (next : ParseState → Procedure α)
  | move (m : Move) (next : Procedure α)

namespace Procedure

variable {α β : Type}

/-- The result of a procedure and the state it ends in. -/
def run : Procedure α → ParseState → α × ParseState
  | finish result, p => (result, p)
  | look next, p => (next p).run p
  | move m next, p => next.run (m.apply p)

/-- The states that a procedure passes through, from the first to the last. -/
def states : Procedure α → ParseState → List ParseState
  | finish _, p => [p]
  | look next, p => (next p).states p
  | move m next, p => p :: next.states (m.apply p)

/-- A procedure and then another that goes on from its result. -/
def andThen : Procedure α → (α → Procedure β) → Procedure β
  | finish result, f => f result
  | look next, f => look fun p => (next p).andThen f
  | move m next, f => move m (next.andThen f)

instance : Monad Procedure where
  pure := finish
  bind := andThen

@[simp]
theorem run_pure (a : α) (p : ParseState) : (pure a : Procedure α).run p = (a, p) := rfl

@[simp]
theorem run_bind (first : Procedure α) (next : α → Procedure β) (p : ParseState) :
    (first >>= next).run p = (next (first.run p).1).run (first.run p).2 := by
  show (first.andThen next).run p = _
  induction first generalizing p with
  | finish result => rfl
  | look following ih => exact ih p p
  | move m following ih => exact ih (m.apply p)

/-! ## What every procedure keeps -/

/-- Every state is reached from those before it. -/
theorem reaches_of_mem_states {proc : Procedure α} {p q : ParseState} (h : q ∈ proc.states p) :
    p.Reaches q := by
  induction proc generalizing p with
  | finish result =>
    obtain rfl := List.mem_singleton.1 h
    exact .refl
  | look next ih => exact ih p h
  | move m next ih =>
    rcases List.mem_cons.1 h with rfl | later
    · exact .refl
    · exact (m.reaches p).trans (ih later)

theorem pairwise_states (proc : Procedure α) (p : ParseState) :
    (proc.states p).Pairwise ParseState.Reaches := by
  induction proc generalizing p with
  | finish result => exact List.pairwise_singleton _ p
  | look next ih => exact ih p p
  | move m next ih =>
    refine List.pairwise_cons.2 ⟨fun q later => ?_, ih (m.apply p)⟩
    exact (m.reaches p).trans (reaches_of_mem_states later)

theorem run_mem_states (proc : Procedure α) (p : ParseState) :
    (proc.run p).2 ∈ proc.states p := by
  induction proc generalizing p with
  | finish result => exact List.mem_singleton_self p
  | look next ih => exact ih p p
  | move m next ih => exact List.mem_cons_of_mem p (ih (m.apply p))

theorem reaches_run (proc : Procedure α) (p : ParseState) : p.Reaches (proc.run p).2 :=
  reaches_of_mem_states (proc.run_mem_states p)

/-! ## Closing what is open -/

/-- From a state on, a procedure closes a level only where one is open. -/
def Lawful : Procedure α → ParseState → Prop
  | finish _, _ => True
  | look next, p => (next p).Lawful p
  | move m next, p => p.Changes (m.apply p) ∧ next.Lawful (m.apply p)

@[simp]
theorem lawful_pure (a : α) (p : ParseState) : (pure a : Procedure α).Lawful p := trivial

@[simp]
theorem lawful_bind (first : Procedure α) (next : α → Procedure β) (p : ParseState) :
    (first >>= next).Lawful p ↔
      first.Lawful p ∧ (next (first.run p).1).Lawful (first.run p).2 := by
  show (first.andThen next).Lawful p ↔ _
  induction first generalizing p with
  | finish result => exact ⟨fun rest => ⟨trivial, rest⟩, And.right⟩
  | look following ih => exact ih p p
  | move m following ih =>
    show _ ∧ _ ↔ (_ ∧ _) ∧ _
    rw [ih (m.apply p), and_assoc]
    rfl

theorem exists_states_eq_cons (proc : Procedure α) (p : ParseState) :
    ∃ rest, proc.states p = p :: rest := by
  induction proc with
  | finish result => exact ⟨[], rfl⟩
  | look next ih => exact ih p
  | move m next => exact ⟨_, rfl⟩

/-- Then each state comes from the one before it by a single change. -/
theorem isChain_states {proc : Procedure α} {p : ParseState} (h : proc.Lawful p) :
    (proc.states p).IsChain ParseState.Changes := by
  induction proc generalizing p with
  | finish result => exact List.isChain_singleton p
  | look next ih => exact ih p h
  | move m next ih =>
    obtain ⟨rest, eq⟩ := next.exists_states_eq_cons (m.apply p)
    have later := ih h.2
    rw [states, eq]
    rw [eq] at later
    exact List.isChain_cons_cons.2 ⟨h.1, later⟩

end Procedure

end LoxCheck
