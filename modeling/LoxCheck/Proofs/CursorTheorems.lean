import LoxCheck.Grammar.TokenCursor

/-!
# Moving a token cursor

How far a cursor has moved and what is left ahead of it. Every move of a parse is a number of
tokens read, except that skipping a block also notes where the block ended.
-/

namespace LoxCheck

namespace TokenCursor

/-! ## The start of a sequence -/

/-- The first end-of-source token bounds what can be read. -/
theorem ofTokens?_append_cons {ahead more : List Token} {stop last : Token}
    (readable : ∀ token ∈ ahead, token.kind ≠ .eof) (hstop : stop.kind = .eof)
    (present : (ahead ++ stop :: more).getLast? = some last) (ends : last.kind = .eof) :
    ofTokens? (ahead ++ stop :: more) = some (start ahead stop last) := by
  -- only the first end-of-source token counts, so `more` may hold others
  have taken : (ahead ++ stop :: more).takeWhile (·.kind ≠ .eof) = ahead := by
    rw [List.takeWhile_append_of_pos (by simpa using readable)]
    simp [hstop]
  simp only [ofTokens?, present, ends, ↓reduceIte, taken, List.drop_left, List.headD_cons]

/-- A sequence that ends with an end-of-source token can be cut in front of the first one. -/
theorem exists_readable {tokens : List Token} {last : Token} (present : tokens.getLast? = some last)
    (ends : last.kind = .eof) :
    ∃ ahead stop more, tokens = ahead ++ stop :: more ∧ (∀ token ∈ ahead, token.kind ≠ .eof) ∧
      stop.kind = .eof := by
  have found : (tokens.find? (·.kind = .eof)).isSome := by
    rw [List.find?_isSome]
    exact ⟨last, List.mem_of_getLast? present, by simpa using ends⟩
  obtain ⟨stop, first⟩ := Option.isSome_iff_exists.1 found
  obtain ⟨hstop, ahead, more, cut, readable⟩ := List.find?_eq_some_iff_append.1 first
  exact ⟨ahead, stop, more, cut, by simpa using readable, by simpa using hstop⟩

theorem ofTokens?_of_getLast? {tokens : List Token} {last : Token}
    (present : tokens.getLast? = some last) (ends : last.kind = .eof) :
    ∃ start, ofTokens? tokens = some start := by
  obtain ⟨ahead, stop, more, rfl, readable, hstop⟩ := exists_readable present ends
  exact ⟨_, ofTokens?_append_cons readable hstop present ends⟩

/-! ## Reading tokens -/

theorem advance_of_ahead {c : TokenCursor} {token : Token} {rest : List Token}
    (h : c.ahead = token :: rest) :
    c.advance = { c with position := c.position + 1, previous := token, ahead := rest } := by
  unfold advance
  rw [h]

theorem advance_of_end {c : TokenCursor} (h : c.ahead = []) : c.advance = c := by
  unfold advance
  rw [h]

theorem current_of_ahead {c : TokenCursor} {token : Token} {rest : List Token}
    (h : c.ahead = token :: rest) : c.current = token := by
  unfold current
  rw [h, List.headD_cons]

@[simp] theorem skip_zero (c : TokenCursor) : c.skip 0 = c := rfl

theorem skip_succ (n : Nat) (c : TokenCursor) : c.skip (n + 1) = c.advance.skip n := rfl

theorem skip_one (c : TokenCursor) : c.skip 1 = c.advance := rfl

/-- Reading `m` tokens and then `n` more is reading `m + n`. -/
theorem skip_skip (m n : Nat) (c : TokenCursor) : (c.skip m).skip n = c.skip (m + n) := by
  induction m generalizing c with
  | zero => rw [Nat.zero_add, skip_zero]
  | succ m ih => rw [skip_succ, ih, Nat.succ_add, skip_succ]

theorem advance_skip (n : Nat) (c : TokenCursor) : (c.skip n).advance = c.skip (n + 1) := by
  rw [← skip_one, skip_skip]

theorem ahead_advance (c : TokenCursor) : c.advance.ahead = c.ahead.tail := by
  cases h : c.ahead with
  | nil => rw [advance_of_end h, h, List.tail_nil]
  | cons token rest => rw [advance_of_ahead h, List.tail_cons]

@[simp] theorem ahead_skip (n : Nat) (c : TokenCursor) : (c.skip n).ahead = c.ahead.drop n := by
  induction n generalizing c with
  | zero => rw [skip_zero, List.drop_zero]
  | succ n ih => rw [skip_succ, ih, ahead_advance, List.drop_tail]

theorem ahead_advance_of_ahead {c : TokenCursor} {token : Token} {rest : List Token}
    (h : c.ahead = token :: rest) : c.advance.ahead = rest := by
  rw [ahead_advance, h, List.tail_cons]

theorem ahead_skip_of_append {c : TokenCursor} {tokens rest : List Token}
    (h : c.ahead = tokens ++ rest) : (c.skip tokens.length).ahead = rest := by
  rw [ahead_skip, h, List.drop_left]

/-- Behind the first of some tokens, up to the last of them. -/
theorem ahead_advance_of_enclosed {c : TokenCursor} {opening closing : Token}
    {inside rest : List Token} (h : c.ahead = opening :: inside ++ [closing] ++ rest) :
    c.advance.ahead = inside ++ closing :: rest := by
  rw [ahead_advance_of_ahead h]
  exact List.append_assoc inside [closing] rest

/-- Reading some tokens with one before and one behind them. -/
theorem skip_enclosed (opening closing : Token) (inside : List Token) (c : TokenCursor) :
    c.skip (opening :: inside ++ [closing]).length = (c.advance.skip inside.length).advance := by
  rw [advance_skip, ← skip_succ, List.length_append, List.length_cons, List.length_singleton]

theorem ahead_eq_cons {c : TokenCursor} {token : Token} {rest : List Token}
    (h : c.ahead = token :: rest) : c.ahead = token :: c.advance.ahead := by
  rw [ahead_advance_of_ahead h, h]

theorem stop_advance (c : TokenCursor) : c.advance.stop = c.stop := by
  cases h : c.ahead with
  | nil => rw [advance_of_end h]
  | cons token rest => rw [advance_of_ahead h]

@[simp] theorem stop_skip (n : Nat) (c : TokenCursor) : (c.skip n).stop = c.stop := by
  induction n generalizing c with
  | zero => rw [skip_zero]
  | succ n ih => rw [skip_succ, ih, stop_advance]

theorem skippedTo_advance (c : TokenCursor) : c.advance.skippedTo = c.skippedTo := by
  cases h : c.ahead with
  | nil => rw [advance_of_end h]
  | cons token rest => rw [advance_of_ahead h]

/-- Reading tokens leaves the note of the block skipped last alone. -/
@[simp] theorem skippedTo_skip (n : Nat) (c : TokenCursor) :
    (c.skip n).skippedTo = c.skippedTo := by
  induction n generalizing c with
  | zero => rw [skip_zero]
  | succ n ih => rw [skip_succ, ih, skippedTo_advance]

/-- Reading tokens does not depend on the note of the block skipped last. -/
theorem skip_note (n : Nat) (c : TokenCursor) (note : Option Nat) :
    { c with skippedTo := note }.skip n = { c.skip n with skippedTo := note } := by
  induction n generalizing c with
  | zero => rfl
  | succ n ih =>
    -- neither branch of `advance` reads the note
    have step : { c with skippedTo := note }.advance = { c.advance with skippedTo := note } := by
      obtain ⟨_, _, ahead, _, _⟩ := c
      cases ahead <;> rfl
    rw [skip_succ, step, ih, skip_succ]

/-- As long as there are tokens to read, the position counts them. -/
theorem position_skip {n : Nat} {c : TokenCursor} (h : n ≤ c.ahead.length) :
    (c.skip n).position = c.position + n := by
  induction n generalizing c with
  | zero => rw [skip_zero, Nat.add_zero]
  | succ n ih =>
    cases hc : c.ahead with
    | nil =>
      rw [hc, List.length_nil] at h
      omega
    | cons token rest =>
      have left : n ≤ c.advance.ahead.length := by
        rw [hc, List.length_cons] at h
        rw [ahead_advance, hc, List.tail_cons]
        omega
      rw [skip_succ, ih left, advance_of_ahead hc]
      show c.position + 1 + n = c.position + (n + 1)
      omega

/-- The token read last is the one just behind the cursor. -/
theorem previous_skip {n : Nat} {c : TokenCursor} (h : n < c.ahead.length) :
    (c.skip (n + 1)).previous = c.ahead[n] := by
  induction n generalizing c with
  | zero =>
    obtain ⟨token, rest, hc⟩ := List.exists_cons_of_length_pos h
    simp [skip_one, advance_of_ahead hc, hc]
  | succ n ih =>
    have left : n < c.advance.ahead.length := by
      rw [ahead_advance, List.length_tail]
      omega
    rw [skip_succ, ih left]
    simp only [ahead_advance, List.getElem_tail]

/-! ## Cursors further on -/

/-- `c'` stands `n` tokens after `c`. On the way a block may have been skipped, in which case the
note of where it ended lies between the two. -/
structure Onward (c c' : TokenCursor) (n : Nat) : Prop where
  bound : n ≤ c.ahead.length
  moved : c' = { c.skip n with skippedTo := c'.skippedTo }
  skipped : c'.skippedTo = c.skippedTo ∨
    ∃ p, c'.skippedTo = some p ∧ c.position ≤ p ∧ p ≤ c'.position

namespace Onward

variable {c c' c'' : TokenCursor} {m n : Nat}

theorem ahead (h : Onward c c' n) : c'.ahead = c.ahead.drop n := by
  rw [h.moved]
  exact ahead_skip n c

theorem stop (h : Onward c c' n) : c'.stop = c.stop := by
  rw [h.moved]
  exact stop_skip n c

theorem position (h : Onward c c' n) : c'.position = c.position + n := by
  rw [h.moved]
  exact position_skip h.bound

theorem length_ahead (h : Onward c c' n) : c'.ahead.length + n = c.ahead.length := by
  have := h.bound
  rw [h.ahead, List.length_drop]
  omega

/-- Plain reading leads onward. -/
theorem skip (h : n ≤ c.ahead.length) : Onward c (c.skip n) n :=
  ⟨h, by rw [skippedTo_skip, ← skippedTo_skip n c], .inl (skippedTo_skip n c)⟩

theorem refl (c : TokenCursor) : Onward c c 0 := skip (Nat.zero_le _)

theorem trans (h : Onward c c' m) (h' : Onward c' c'' n) : Onward c c'' (m + n) := by
  have hm := h.length_ahead
  have hn := h'.bound
  refine ⟨by omega, ?_, ?_⟩
  · calc c'' = { c'.skip n with skippedTo := c''.skippedTo } := h'.moved
      _ = { (c.skip m).skip n with skippedTo := c''.skippedTo } := by rw [h.moved, skip_note]
      _ = { c.skip (m + n) with skippedTo := c''.skippedTo } := by rw [skip_skip]
  · have first := h.position
    have second := h'.position
    -- the later of the two notes is the one that is kept
    rcases h'.skipped with same | ⟨p, noted, after, before⟩
    · rcases h.skipped with same' | ⟨p, noted, after, before⟩
      · exact .inl (same.trans same')
      · exact .inr ⟨p, same.trans noted, after, by omega⟩
    · exact .inr ⟨p, noted, by omega, before⟩

end Onward

/-- The token at a place counted from the cursor. -/
def tokenAt (c : TokenCursor) (place : Nat) : Token := (c.ahead.drop place).headD c.stop

theorem Onward.tokenAt {c c' : TokenCursor} {n : Nat} (h : c.Onward c' n) (place : Nat) :
    c'.tokenAt place = c.tokenAt (n + place) := by
  rw [TokenCursor.tokenAt, h.ahead, h.stop, List.drop_drop]
  rfl

theorem Onward.current {c c' : TokenCursor} {n : Nat} (h : c.Onward c' n) :
    c'.current = c.tokenAt n :=
  h.tokenAt 0

/-- Places counted from the start are those in the whole sequence. -/
theorem getElem?_tokenAt {ahead more : List Token} {stop last : Token} {place : Nat}
    (h : place ≤ ahead.length) :
    (ahead ++ stop :: more)[place]? = some ((start ahead stop last).tokenAt place) := by
  show _ = some ((ahead.drop place).headD stop)
  by_cases inside : place < ahead.length
  · rw [List.getElem?_append_left inside, List.headD_eq_head?_getD, List.head?_drop,
      List.getElem?_eq_getElem inside]
    rfl
  · obtain rfl : place = ahead.length := by omega
    rw [List.getElem?_append_right (Nat.le_refl _), Nat.sub_self, List.drop_length]
    rfl

/-- The block skipped last, if any, is behind the cursor. -/
def Fresh (c : TokenCursor) : Prop := ∀ place ∈ c.skippedTo, place ≤ c.position

theorem fresh_start (ahead : List Token) (stop last : Token) : (start ahead stop last).Fresh := by
  intro place noted
  exact absurd noted (by simp [start])

theorem Fresh.skip {c : TokenCursor} (h : c.Fresh) {n : Nat} (bound : n ≤ c.ahead.length) :
    (c.skip n).Fresh := by
  intro place noted
  rw [skippedTo_skip] at noted
  have behind := h place noted
  have moved := position_skip bound
  omega

/-- Plain reading never ends with a skipped block. -/
theorem Fresh.endsSkipped_skip {c : TokenCursor} (h : c.Fresh) (n : Nat) :
    (c.skip n).endsSkipped c.position = false := by
  unfold endsSkipped
  rw [skippedTo_skip]
  cases noted : c.skippedTo with
  | none => rfl
  | some place =>
    -- a note from before the start does not lie beyond it
    have behind := h place noted
    have before : ¬c.position < place := by omega
    simp [before]

/-! ## Recovery -/

theorem boundary_le (previous : Token) (tokens : List Token) :
    boundary previous tokens ≤ tokens.length := by
  induction tokens generalizing previous with
  | nil => exact Nat.le_refl _
  | cons token rest ih =>
    rw [boundary, List.length_cons]
    split
    · omega
    · have := ih token
      omega

theorem blockLength_le (depth : Nat) (tokens : List Token) :
    blockLength depth tokens ≤ tokens.length := by
  fun_induction blockLength depth tokens with
  | case1 => exact Nat.le_refl _
  | case2 depth token rest opens ih =>
    rw [List.length_cons]
    omega
  | case3 token rest closes =>
    rw [List.length_cons]
    omega
  | case4 token rest inner closes ih =>
    rw [List.length_cons]
    omega
  | case5 depth token rest _ _ _ ih =>
    rw [List.length_cons]
    omega

/-- How many tokens `toBoundary` discards: those before the boundary, after the current token if
nothing was read since `start`. -/
theorem toBoundary_onward (start : Int) (c : TokenCursor) :
    ∃ n, n ≤ c.ahead.length ∧ c.toBoundary start = c.skip n ∧
      (c.position = start → c.ahead ≠ [] → 0 < n) := by
  by_cases fresh : (c.position : Int) = start
  · -- nothing was read since, so that the current token goes first
    cases hc : c.ahead with
    | nil =>
      refine ⟨0, Nat.zero_le _, ?_, fun _ nonempty => absurd rfl nonempty⟩
      rw [toBoundary, if_pos fresh, advance_of_end hc, hc, boundary]
    | cons token rest =>
      have within := boundary_le token rest
      refine ⟨1 + boundary token rest, ?_, ?_, fun _ _ => by omega⟩
      · rw [List.length_cons]
        omega
      · rw [toBoundary, if_pos fresh, ← skip_skip, skip_one, advance_of_ahead hc]
  · refine ⟨boundary c.previous c.ahead, boundary_le _ _, ?_, fun h => absurd h fresh⟩
    rw [toBoundary, if_neg fresh]

/-- At the end there is nothing to discard. -/
theorem toBoundary_of_end {c : TokenCursor} (h : c.ahead = []) (start : Int) :
    c.toBoundary start = c := by
  rw [toBoundary, advance_of_end h, ite_self, h, boundary, skip_zero]

/-- If nothing was read since the start, the current token is discarded first. -/
theorem toBoundary_of_still {start : Int} {c : TokenCursor} (still : c.position = start) :
    c.toBoundary start = c.advance.skip (boundary c.advance.previous c.advance.ahead) := by
  rw [toBoundary, if_pos still]

theorem toBoundary_of_moved {start : Int} {c : TokenCursor} (moved : c.position ≠ start) :
    c.toBoundary start = c.skip (boundary c.previous c.ahead) := by
  rw [toBoundary, if_neg moved]

/-- Recovery after some tokens were read, at least one of which it discards if there were none. -/
theorem toBoundary_skip {n : Nat} {c : TokenCursor} (bound : n ≤ c.ahead.length) :
    (c.skip n).toBoundary c.position =
      (c.skip (max n 1)).skip
        (boundary (c.skip (max n 1)).previous (c.skip (max n 1)).ahead) := by
  have place := position_skip bound
  by_cases still : n = 0
  · subst still
    rw [toBoundary, skip_zero, if_pos rfl]
    rfl
  · have first : max n 1 = n := by omega
    rw [toBoundary, if_neg (by omega), first]

/-- Skipping a block reads on and notes the place. -/
theorem skipBlock_onward (c : TokenCursor) :
    Onward c c.skipBlock (blockLength 0 c.ahead) := by
  have within := blockLength_le 0 c.ahead
  have place := position_skip within
  refine ⟨within, rfl, .inr ⟨(c.skip (blockLength 0 c.ahead)).position, rfl, ?_, Nat.le_refl _⟩⟩
  omega

/-- The block that was skipped ends where the cursor stands. -/
theorem fresh_skipBlock (c : TokenCursor) : c.skipBlock.Fresh := by
  intro place noted
  exact Nat.le_of_eq (Option.some.inj noted).symm

theorem endsSkipped_skipBlock {start : Nat} {c : TokenCursor} (h : start < c.skipBlock.position) :
    c.skipBlock.endsSkipped start = true := by
  have noted : c.skipBlock.skippedTo = some c.skipBlock.position := rfl
  rw [endsSkipped, noted]
  simpa using h

end TokenCursor

end LoxCheck
