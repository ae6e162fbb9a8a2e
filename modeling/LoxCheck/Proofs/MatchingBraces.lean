import LoxCheck.Proofs.ProgressTheorems

/-!
# Matching braces

The closing brace that matches an opening one is the first that has only balanced braces before it.
`TokenCursor.blockLength`, which counts the open blocks, finds just that brace, and the end of the
tokens if there is none. So a block that is too deep is skipped through its own closing brace.
-/

namespace LoxCheck

/-- Token lists in which every brace has its partner. -/
inductive Balanced : List Token → Prop where
  | nil : Balanced []
  | other {token : Token} {rest : List Token} :
    token.kind ≠ .leftBrace → token.kind ≠ .rightBrace → Balanced rest → Balanced (token :: rest)
  | block {opening closing : Token} {inside rest : List Token} :
    opening.kind = .leftBrace → Balanced inside → closing.kind = .rightBrace → Balanced rest →
    Balanced (opening :: inside ++ closing :: rest)

namespace Balanced

variable {first second tokens : List Token}

theorem append (h : Balanced first) (h' : Balanced second) : Balanced (first ++ second) := by
  induction h with
  | nil => exact h'
  | other open_brace close_brace _ ih => exact .other open_brace close_brace ih
  | @block opening closing inside rest ho inner hc _ _ ih =>
    rw [List.append_assoc, List.cons_append]
    exact .block ho inner hc ih

/-- Without braces there is nothing to match. -/
theorem of_unbraced (h : ∀ token ∈ tokens, token.kind ≠ .leftBrace ∧ token.kind ≠ .rightBrace) :
    Balanced tokens := by
  induction tokens with
  | nil => exact .nil
  | cons token tokens ih =>
    obtain ⟨⟨open_brace, close_brace⟩, others⟩ := List.forall_mem_cons.1 h
    exact .other open_brace close_brace (ih others)

end Balanced

/-- Behind an opening brace, the tokens are those inside the block, the closing brace that matches
it, and those behind it. -/
structure Matched (tokens inside : List Token) (closing : Token) (behind : List Token) : Prop where
  split : tokens = inside ++ closing :: behind
  balanced : Balanced inside
  closes : closing.kind = .rightBrace

/-- Token lists that close a block, and as many blocks around it as the number says. -/
inductive ClosesBlocks : Nat → List Token → Prop where
  | one {inside : List Token} {closing : Token} :
    Balanced inside → closing.kind = .rightBrace → ClosesBlocks 0 (inside ++ [closing])
  | more {depth : Nat} {inside rest : List Token} {closing : Token} :
    Balanced inside → closing.kind = .rightBrace → ClosesBlocks depth rest →
    ClosesBlocks (depth + 1) (inside ++ closing :: rest)

namespace ClosesBlocks

variable {depth : Nat} {token : Token} {tokens : List Token}

/-- A block inside the innermost one. -/
theorem opened (h : ClosesBlocks (depth + 1) tokens) (ho : token.kind = .leftBrace) :
    ClosesBlocks depth (token :: tokens) := by
  cases h with
  | @more _ inside _ closing first hc rest =>
    -- what closes the inner block belongs to the inside of the one around it
    cases rest with
    | @one inside' closing' second hc' =>
      have whole := ClosesBlocks.one (.block ho first hc second) hc'
      rwa [List.append_assoc] at whole
    | @more _ inside' rest' closing' second hc' others =>
      have whole := ClosesBlocks.more (.block ho first hc second) hc' others
      rwa [List.append_assoc] at whole

theorem closed (h : ClosesBlocks depth tokens) (hc : token.kind = .rightBrace) :
    ClosesBlocks (depth + 1) (token :: tokens) :=
  .more .nil hc h

theorem other (h : ClosesBlocks depth tokens) (open_brace : token.kind ≠ .leftBrace)
    (close_brace : token.kind ≠ .rightBrace) : ClosesBlocks depth (token :: tokens) := by
  cases h with
  | one first hc => exact .one (.other open_brace close_brace first) hc
  | more first hc rest => exact .more (.other open_brace close_brace first) hc rest

end ClosesBlocks

namespace TokenCursor

/-! ## The length of a block -/

section

variable {token : Token} (depth : Nat) (rest : List Token)

theorem blockLength_open (h : token.kind = .leftBrace) :
    blockLength depth (token :: rest) = blockLength (depth + 1) rest + 1 := by
  simp [blockLength, h]

theorem blockLength_close_inner (h : token.kind = .rightBrace) :
    blockLength (depth + 1) (token :: rest) = blockLength depth rest + 1 := by
  simp [blockLength, h]

theorem blockLength_close (h : token.kind = .rightBrace) :
    blockLength 0 (token :: rest) = 1 := by
  simp [blockLength, h]

theorem blockLength_other (open_brace : token.kind ≠ .leftBrace)
    (close_brace : token.kind ≠ .rightBrace) :
    blockLength depth (token :: rest) = blockLength depth rest + 1 := by
  cases hk : token.kind with
  | leftBrace => exact absurd hk open_brace
  | rightBrace => exact absurd hk close_brace
  | _ => simp [blockLength, hk]

end

/-- Balanced tokens are passed over as a whole. -/
theorem blockLength_of_balanced {tokens : List Token} (h : Balanced tokens) (depth : Nat)
    (rest : List Token) :
    blockLength depth (tokens ++ rest) = tokens.length + blockLength depth rest := by
  induction h generalizing depth rest with
  | nil => rw [List.nil_append, List.length_nil, Nat.zero_add]
  | other open_brace close_brace _ ih =>
    rw [List.cons_append, blockLength_other _ _ open_brace close_brace, ih, List.length_cons]
    omega
  | @block opening closing inside others ho _ hc _ ih ih' =>
    rw [List.append_assoc, List.cons_append, List.cons_append, blockLength_open _ _ ho, ih,
      blockLength_close_inner _ _ hc, ih', List.length_append, List.length_cons, List.length_cons]
    omega

/-- The count comes down at the matching brace. -/
theorem blockLength_of_matched {tokens inside behind : List Token} {closing : Token}
    (h : Matched tokens inside closing behind) : blockLength 0 tokens = inside.length + 1 := by
  rw [h.split, blockLength_of_balanced h.balanced, blockLength_close _ h.closes]

/-- Where the count comes down the open blocks are closed; otherwise it goes on to the end. -/
theorem closesBlocks_or_all (depth : Nat) (tokens : List Token) :
    (∃ body behind, tokens = body ++ behind ∧ ClosesBlocks depth body) ∨
      blockLength depth tokens = tokens.length := by
  induction tokens generalizing depth with
  | nil => exact .inr rfl
  | cons token rest ih =>
    by_cases ho : token.kind = .leftBrace
    · rw [blockLength_open _ _ ho]
      refine (ih (depth + 1)).imp ?_ (congrArg (· + 1))
      rintro ⟨body, behind, rfl, closes⟩
      exact ⟨token :: body, behind, rfl, closes.opened ho⟩
    by_cases hc : token.kind = .rightBrace
    · cases depth with
      | zero => exact .inl ⟨[token], rest, rfl, .one .nil hc⟩
      | succ depth =>
        rw [blockLength_close_inner _ _ hc]
        refine (ih depth).imp ?_ (congrArg (· + 1))
        rintro ⟨body, behind, rfl, closes⟩
        exact ⟨token :: body, behind, rfl, closes.closed hc⟩
    · rw [blockLength_other _ _ ho hc]
      refine (ih depth).imp ?_ (congrArg (· + 1))
      rintro ⟨body, behind, rfl, closes⟩
      exact ⟨token :: body, behind, rfl, closes.other ho hc⟩

/-- Without a matching brace the block goes on to the end. -/
theorem blockLength_of_unmatched {tokens : List Token}
    (h : ∀ inside closing behind, ¬Matched tokens inside closing behind) :
    blockLength 0 tokens = tokens.length := by
  rcases closesBlocks_or_all 0 tokens with ⟨body, behind, rfl, closes⟩ | all
  · cases closes with
    | @one inside closing balanced hc =>
      have split : inside ++ [closing] ++ behind = inside ++ closing :: behind := by simp
      exact absurd ⟨split, balanced, hc⟩ (h inside closing behind)
  · exact all

end TokenCursor

/-! ## Blocks that are too deep -/

namespace Parse

/-- A block for which no level is left is one error, and is skipped. The skip ends where a statement
may begin, so nothing more is discarded. -/
theorem declaration_of_overdeep {c : TokenCursor} {opening : Token} {rest : List Token}
    (h : c.ahead = opening :: rest) (ho : opening.kind = .leftBrace) :
    declaration 0 c =
      ⟨none, [SyntaxError.at .tooMuchNesting c.advance.current], c.advance.skipBlock⟩ := by
  have attempted : attempt 0 c =
      ⟨none, [SyntaxError.at .tooMuchNesting c.advance.current], c.advance.skipBlock⟩ :=
    attempt_of_brace 0 h ho
  have first := (onward_advance h).position
  have skip := c.advance.skipBlock_onward.position
  have skipped : (attempt 0 c).cursor.endsSkipped c.position = true := by
    rw [attempted]
    exact TokenCursor.endsSkipped_skipBlock (by omega)
  rw [declaration_eq, recovering_of_skipped (by rw [attempted]) skipped, attempted]

end Parse

end LoxCheck
