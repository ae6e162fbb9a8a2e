import LoxCheck.Proofs.ReachableStates

/-!
# Places of a cursor

A cursor shows a token sequence from one of its places on. What it can read, where it stops and
what it has read last are all found in the sequence, by the position alone.
-/

namespace LoxCheck

namespace TokenCursor

/-- The cursor stands in a sequence: it can read the tokens from its position up to the first one
for the end of the source, it stops at that one, and the token read last is the one before its
position. Before the first token that is the last one of all. -/
structure InSequence (tokens : List Token) (c : TokenCursor) : Prop where
  ahead : c.ahead = (tokens.drop c.position).takeWhile (·.kind ≠ .eof)
  stop : tokens[c.position + c.ahead.length]? = some c.stop
  previous : (if c.position = 0 then tokens.getLast? else tokens[c.position - 1]?) = some c.previous

namespace InSequence

variable {tokens : List Token} {c c' : TokenCursor}

theorem readable (h : c.InSequence tokens) : ∀ token ∈ c.ahead, token.kind ≠ .eof := by
  intro token mem
  rw [h.ahead] at mem
  simpa using List.all_eq_true.1 List.all_takeWhile token mem

/-- From its position on, the sequence holds what the cursor can read, its stop, and more. -/
theorem split (h : c.InSequence tokens) :
    ∃ more, tokens.drop c.position = c.ahead ++ c.stop :: more := by
  obtain ⟨more, cut⟩ : c.ahead <+: tokens.drop c.position := by
    rw [h.ahead]
    exact List.takeWhile_prefix _
  have stop := h.stop
  rw [← List.getElem?_drop, ← cut, List.getElem?_append_right (Nat.le_refl _),
    Nat.sub_self] at stop
  obtain ⟨first, rest, rfl⟩ := List.exists_cons_of_ne_nil (l := more) (by rintro rfl; simp at stop)
  obtain rfl : first = c.stop := by simpa using stop
  exact ⟨rest, cut.symm⟩

/-- Where a cursor stops the source ends. -/
theorem ends (h : c.InSequence tokens) : c.stop.kind = .eof := by
  obtain ⟨more, cut⟩ := h.split
  have ahead := h.ahead
  rw [cut, List.takeWhile_append_of_pos (by simpa using h.readable)] at ahead
  refine Decidable.byContradiction fun other => ?_
  -- otherwise the stop could be read as well
  rw [List.takeWhile_cons_of_pos (by simpa using other)] at ahead
  simp at ahead

theorem of_split {more : List Token} (readable : ∀ token ∈ c.ahead, token.kind ≠ .eof)
    (ends : c.stop.kind = .eof) (cut : tokens.drop c.position = c.ahead ++ c.stop :: more)
    (previous : (if c.position = 0 then tokens.getLast? else tokens[c.position - 1]?) =
      some c.previous) : c.InSequence tokens where
  ahead := by
    rw [cut, List.takeWhile_append_of_pos (by simpa using readable)]
    simp [ends]
  stop := by
    rw [← List.getElem?_drop, cut, List.getElem?_append_right (Nat.le_refl _), Nat.sub_self]
    rfl
  previous := previous

/-- Places counted from the cursor are those of the sequence behind its position. -/
theorem getElem?_tokenAt (h : c.InSequence tokens) {place : Nat} (within : place ≤ c.ahead.length) :
    tokens[c.position + place]? = some (c.tokenAt place) := by
  obtain ⟨more, cut⟩ := h.split
  rw [← List.getElem?_drop, cut]
  exact @TokenCursor.getElem?_tokenAt c.ahead more c.stop c.stop place within

/-- The current token is the one at the position of the cursor. -/
theorem getElem?_current (h : c.InSequence tokens) : tokens[c.position]? = some c.current :=
  h.getElem?_tokenAt (Nat.zero_le _)

/-- A cursor stays in its sequence as it moves on. -/
theorem onward (h : c.InSequence tokens) {n : Nat} (moved : c.Onward c' n) :
    c'.InSequence tokens := by
  obtain ⟨more, cut⟩ := h.split
  refine @of_split _ _ more ?_ ?_ ?_ ?_
  · rw [moved.ahead]
    exact fun token mem => h.readable token (List.mem_of_mem_drop mem)
  · rw [moved.stop]
    exact h.ends
  · rw [moved.position, moved.ahead, moved.stop, ← List.drop_drop, cut,
      List.drop_append_of_le_length moved.bound]
  · have previous : c'.previous = (c.skip n).previous := by rw [moved.moved]
    rw [moved.position, previous]
    cases n with
    | zero => exact h.previous
    | succ n =>
      -- what was read last is the token just behind the new place
      have inside : n < c.ahead.length := moved.bound
      rw [if_neg (by omega), previous_skip inside, ← Nat.add_assoc, Nat.add_sub_cancel,
        ← List.getElem?_drop, cut, List.getElem?_append_left inside,
        List.getElem?_eq_getElem inside]

end InSequence

/-- A cursor at the start stands in its sequence. -/
theorem inSequence_start {ahead more : List Token} {stop last : Token}
    (readable : ∀ token ∈ ahead, token.kind ≠ .eof) (ends : stop.kind = .eof)
    (present : (ahead ++ stop :: more).getLast? = some last) :
    (start ahead stop last).InSequence (ahead ++ stop :: more) :=
  @InSequence.of_split _ _ more readable ends rfl present

/-- In a sequence that ends with the end of the source, a cursor can stand at every place, whatever
block was skipped last. -/
theorem exists_inSequence {tokens : List Token} {last : Token}
    (present : tokens.getLast? = some last) (ends : last.kind = .eof) {position : Nat}
    (inside : position < tokens.length) (skippedTo : Option Nat) :
    ∃ c, InSequence tokens c ∧ c.position = position ∧ c.skippedTo = skippedTo := by
  have rest : (tokens.drop position).getLast? = some last := by
    rw [List.getLast?_drop, if_neg (by omega), present]
  obtain ⟨ahead, stop, more, cut, readable, hstop⟩ := exists_readable rest ends
  obtain ⟨previous, read⟩ : ∃ previous, (if position = 0 then tokens.getLast?
      else tokens[position - 1]?) = some previous := by
    split
    · exact ⟨last, present⟩
    · exact ⟨_, List.getElem?_eq_getElem (by omega)⟩
  exact ⟨{ position, previous, ahead, stop, skippedTo }, .of_split readable hstop cut read, rfl, rfl⟩

end TokenCursor

/-- A sequence that a parse begins with ends with the end of the source, and the parse begins at
its start. -/
theorem TokenCursor.inSequence_of_ofTokens? {tokens : List Token} {c : TokenCursor}
    (h : ofTokens? tokens = some c) : c.InSequence tokens ∧ c.position = 0 ∧ c.skippedTo = none := by
  cases present : tokens.getLast? with
  | none => simp [ofTokens?, present] at h
  | some last =>
    by_cases ends : last.kind = .eof
    · obtain ⟨ahead, stop, more, rfl, readable, hstop⟩ := exists_readable present ends
      rw [ofTokens?_append_cons readable hstop present ends] at h
      obtain rfl := Option.some.inj h
      exact ⟨inSequence_start readable hstop present, rfl, rfl⟩
    · simp [ofTokens?, present, ends] at h

/-- Every state that a parse comes to stands in its sequence. -/
theorem ParseState.Reaches.inSequence {tokens : List Token} {maxDepth : Int} {start p : ParseState}
    (started : ParseState.ofTokens tokens maxDepth = .ok start) (h : start.Reaches p) :
    p.cursor.InSequence tokens := by
  obtain ⟨n, moved⟩ := h.extends.moved
  refine TokenCursor.InSequence.onward ?_ moved
  unfold ParseState.ofTokens at started
  split at started
  · next cursor found =>
    obtain rfl := Except.ok.inj started
    exact (TokenCursor.inSequence_of_ofTokens? found).1
  · exact absurd started (by simp)

end LoxCheck
