import LoxCheck.Proofs.ProgressTheorems

/-!
# Parsing the same tokens in another place

What a step makes of the tokens ahead does not depend on where they stand: the position, the token
read last and the block skipped last only matter for what is found by recovery, which never looks
back beyond the start of the declaration. So two cursors before the same tokens lead to the same
results and errors, and move on in the same way.
-/

namespace LoxCheck

/-! ## Moves that do not depend on the place -/

/-- A move over some tokens: how many of them are read and, if a block was skipped on the way,
after how many of them the last one ended. -/
structure Reach (ahead : List Token) where
  count : Nat
  note : Option Nat
  bound : count ≤ ahead.length
  noted : ∀ k ∈ note, k ≤ count

namespace Reach

variable {ahead : List Token}

/-- Plain reading. -/
def read (n : Nat) (bound : n ≤ ahead.length) : Reach ahead := ⟨n, none, bound, by simp⟩

/-- One move and then another over what is left. -/
def trans (r : Reach ahead) (r' : Reach (ahead.drop r.count)) : Reach ahead where
  count := r.count + r'.count
  note := (r'.note.map (r.count + ·)).or r.note
  bound := by
    have first := r.bound
    have second := r'.bound
    rw [List.length_drop] at second
    omega
  noted := by
    intro k hk
    rcases Option.or_eq_some_iff.1 hk with hk | ⟨-, hk⟩
    · obtain ⟨j, hj, rfl⟩ := Option.map_eq_some_iff.1 hk
      exact Nat.add_le_add_left (r'.noted j hj) r.count
    · exact Nat.le_add_right_of_le (r.noted k hk)

/-- Whether the move ends with a block that was skipped. -/
def endsSkipped (r : Reach ahead) : Bool :=
  match r.note with
  | none => false
  | some k => 0 < k && k == r.count

end Reach

namespace TokenCursor

/-- The cursor stands before these tokens, and the block skipped last, if any, is behind it. -/
structure StandsBefore (ahead : List Token) (stop : Token) (c : TokenCursor) : Prop where
  ahead_eq : c.ahead = ahead
  stop_eq : c.stop = stop
  fresh : c.Fresh

/-- The cursor after a move. -/
def along {ahead : List Token} (r : Reach ahead) (c : TokenCursor) : TokenCursor :=
  { c.skip r.count with skippedTo := (r.note.map (c.position + ·)).or c.skippedTo }

theorem along_read {ahead : List Token} {n : Nat} (bound : n ≤ ahead.length) (c : TokenCursor) :
    c.along (Reach.read n bound) = c.skip n := by
  show { c.skip n with skippedTo := c.skippedTo } = c.skip n
  rw [← skippedTo_skip n c]

variable {ahead : List Token} {stop : Token} {c : TokenCursor}

theorem StandsBefore.position_along (h : c.StandsBefore ahead stop) (r : Reach ahead) :
    (c.along r).position = c.position + r.count := by
  have bound : r.count ≤ c.ahead.length := by
    rw [h.ahead_eq]
    exact r.bound
  exact position_skip bound

theorem StandsBefore.along (h : c.StandsBefore ahead stop) (r : Reach ahead) :
    (c.along r).StandsBefore (ahead.drop r.count) stop := by
  have place := h.position_along r
  have left : (c.skip r.count).ahead = ahead.drop r.count := by rw [ahead_skip, h.ahead_eq]
  refine ⟨left, (stop_skip r.count c).trans h.stop_eq, fun p hp => ?_⟩
  -- the note is of a block skipped on the way, or else the one from before
  rcases Option.or_eq_some_iff.1 hp with hp | ⟨-, hp⟩
  · obtain ⟨k, hk, rfl⟩ := Option.map_eq_some_iff.1 hp
    have := r.noted k hk
    omega
  · have := h.fresh p hp
    omega

theorem StandsBefore.along_along (h : c.StandsBefore ahead stop) (r : Reach ahead)
    (r' : Reach (ahead.drop r.count)) : (c.along r).along r' = c.along (r.trans r') := by
  have place := h.position_along r
  have notes : (r'.note.map ((c.along r).position + ·)).or (c.along r).skippedTo =
      (((r'.note.map (r.count + ·)).or r.note).map (c.position + ·)).or c.skippedTo := by
    rw [place]
    show (r'.note.map _).or ((r.note.map (c.position + ·)).or c.skippedTo) = _
    cases r'.note <;> cases r.note <;> simp [Nat.add_assoc]
  calc (c.along r).along r'
      = { (c.along r).skip r'.count with
          skippedTo := (r'.note.map ((c.along r).position + ·)).or (c.along r).skippedTo } := rfl
    _ = { (c.skip r.count).skip r'.count with
          skippedTo := (((r'.note.map (r.count + ·)).or r.note).map (c.position + ·)).or
            c.skippedTo } := by
        rw [notes, TokenCursor.along, skip_note]
    _ = c.along (r.trans r') := by
        rw [skip_skip]
        rfl

theorem StandsBefore.current (h : c.StandsBefore ahead stop) : c.current = ahead.headD stop := by
  rw [TokenCursor.current, h.ahead_eq, h.stop_eq]

theorem StandsBefore.atEnd (h : c.StandsBefore ahead stop) : c.atEnd = ahead.isEmpty := by
  rw [TokenCursor.atEnd, h.ahead_eq]

/-- The block skipped before the start of a move does not count as its end. -/
theorem StandsBefore.endsSkipped_along (h : c.StandsBefore ahead stop) (r : Reach ahead) :
    (c.along r).endsSkipped c.position = r.endsSkipped := by
  cases hn : r.note with
  | none =>
    have plain : c.along r = c.skip r.count := by
      rw [TokenCursor.along, hn, ← skippedTo_skip r.count c]
      rfl
    rw [plain, h.fresh.endsSkipped_skip, Reach.endsSkipped, hn]
  | some k =>
    have place := h.position_along r
    have noted : (c.along r).skippedTo = some (c.position + k) := by
      rw [TokenCursor.along, hn]
      rfl
    -- both ends are counted from the same start
    have shifted : (c.position + k == c.position + r.count) = (k == r.count) := by
      rw [Bool.eq_iff_iff]
      simp
    rw [TokenCursor.endsSkipped, noted, place, Reach.endsSkipped, hn]
    simp [shifted]

/-- Recovery after a move finds the boundary without looking at what was read before it. -/
theorem exists_toBoundary_along (ahead : List Token) (stop : Token) (r : Reach ahead) :
    ∃ r' : Reach (ahead.drop r.count), ∀ c, StandsBefore ahead stop c →
      (c.along r).toBoundary c.position = (c.along r).along r' := by
  by_cases still : r.count = 0
  · -- nothing was read, so that the first token is discarded
    cases hd : ahead.drop r.count with
    | nil =>
      refine ⟨.read 0 (Nat.zero_le _), fun c h => ?_⟩
      have place := h.position_along r
      have none_left : (c.along r).ahead = [] := (h.along r).ahead_eq.trans hd
      rw [along_read, toBoundary, if_pos (by omega), advance_of_end none_left, none_left, boundary]
    | cons token rest =>
      have bound : 1 + boundary token rest ≤ (token :: rest).length := by
        have := boundary_le token rest
        rw [List.length_cons]
        omega
      refine ⟨.read _ bound, fun c h => ?_⟩
      have place := h.position_along r
      have next : (c.along r).ahead = token :: rest := (h.along r).ahead_eq.trans hd
      rw [along_read, toBoundary, if_pos (by omega), ← skip_skip, skip_one, advance_of_ahead next]
  · -- the token read last is one of those ahead of the start
    have within : r.count - 1 < ahead.length := by
      have := r.bound
      omega
    refine ⟨.read (boundary ahead[r.count - 1] (ahead.drop r.count)) (boundary_le _ _),
      fun c h => ?_⟩
    have place := h.position_along r
    have behind : (c.along r).previous = ahead[r.count - 1] := by
      have within' : r.count - 1 < c.ahead.length := by
        rw [h.ahead_eq]
        exact within
      have last := previous_skip within'
      rw [show r.count - 1 + 1 = r.count by omega] at last
      show (c.skip r.count).previous = _
      simp only [last, h.ahead_eq]
    rw [along_read, toBoundary, if_neg (by omega), behind, (h.along r).ahead_eq]

end TokenCursor

namespace Parse

variable {α β : Type}

/-! ## Uniform steps -/

/-- The step has one outcome for all cursors that stand before the same tokens. -/
def Uniform (p : Parse α) : Prop :=
  ∀ (ahead : List Token) (stop : Token), ∃ result errors, ∃ r : Reach ahead,
    ∀ c, TokenCursor.StandsBefore ahead stop c → p c = ⟨result, errors, c.along r⟩

/-- Nothing is read. -/
theorem Uniform.stay {p : Parse α} {f : Token → Option α × List SyntaxError}
    (h : ∀ c, p c = ⟨(f c.current).1, (f c.current).2, c⟩) : Uniform p := by
  intro ahead stop
  refine ⟨(f (ahead.headD stop)).1, (f (ahead.headD stop)).2, .read 0 (Nat.zero_le _),
    fun c hc => ?_⟩
  rw [h, hc.current, TokenCursor.along_read, TokenCursor.skip_zero]

theorem Uniform.andThen {p : Parse α} {f : α → Parse β} (hp : Uniform p)
    (hf : ∀ a, Uniform (f a)) : Uniform (p.andThen f) := by
  intro ahead stop
  obtain ⟨result, errors, r, first⟩ := hp ahead stop
  cases result with
  | none =>
    refine ⟨none, errors, r, fun c hc => ?_⟩
    rw [andThen_of_none (by rw [first c hc]), first c hc]
  | some a =>
    obtain ⟨result', errors', r', second⟩ := hf a (ahead.drop r.count) stop
    refine ⟨result', errors ++ errors', r.trans r', fun c hc => ?_⟩
    have found : (p c).result = some a := by rw [first c hc]
    rw [andThen_of_some found, first c hc, second _ (hc.along r), hc.along_along]

theorem uniform_takeIf (kinds : List TokenKind) : Uniform (takeIf kinds) := by
  intro ahead stop
  by_cases listed : ∃ token rest, ahead = token :: rest ∧ token.kind ∈ kinds
  · obtain ⟨token, rest, rfl, listed⟩ := listed
    have bound : 1 ≤ (token :: rest).length := by
      rw [List.length_cons]
      omega
    refine ⟨some (some token), [], .read 1 bound, fun c hc => ?_⟩
    rw [takeIf_of_mem hc.ahead_eq listed, TokenCursor.along_read, TokenCursor.skip_one]
  · refine ⟨some none, [], .read 0 (Nat.zero_le _), fun c hc => ?_⟩
    have unlisted : ∀ token ∈ c.ahead.head?, token.kind ∉ kinds := by
      intro token ht hk
      obtain ⟨rest, split⟩ := List.head?_eq_some_iff.1 ht
      exact listed ⟨token, rest, hc.ahead_eq.symm.trans split, hk⟩
    rw [takeIf_of_not_mem unlisted, TokenCursor.along_read, TokenCursor.skip_zero]

theorem uniform_sequential : Sequential fun _ p _ => Uniform p where
  done a := .stay (f := fun _ => (some a, [])) fun _ => rfl
  andThen := Uniform.andThen
  takeIf _ := uniform_takeIf _

theorem Uniform.recovering {step : Parse Stmt} (h : Uniform step) : Uniform (recovering step) := by
  intro ahead stop
  obtain ⟨result, errors, r, outcome⟩ := h ahead stop
  cases result with
  | some statement =>
    refine ⟨some statement, errors, r, fun c hc => ?_⟩
    exact recovering_of_eq (outcome c hc)
  | none =>
    have failed : ∀ c, TokenCursor.StandsBefore ahead stop c → (step c).result = none := by
      intro c hc
      rw [outcome c hc]
    cases skips : r.endsSkipped with
    | true =>
      refine ⟨none, errors, r, fun c hc => ?_⟩
      have skipped : (step c).cursor.endsSkipped c.position = true := by
        rw [outcome c hc, hc.endsSkipped_along, skips]
      rw [recovering_of_skipped (failed c hc) skipped, outcome c hc]
    | false =>
      obtain ⟨r', moved⟩ := TokenCursor.exists_toBoundary_along ahead stop r
      refine ⟨none, errors, r.trans r', fun c hc => ?_⟩
      have astray : (step c).cursor.endsSkipped c.position = false := by
        rw [outcome c hc, hc.endsSkipped_along, skips]
      rw [recovering_of_none (failed c hc) astray, outcome c hc, moved c hc, hc.along_along]

/-- A sequence of uniform declarations is uniform. -/
theorem Uniform.declarations {declaration : Parse Stmt} (h : Uniform declaration)
    (stops : List TokenKind) (fuel : List Token) (ahead : List Token) (stop : Token) :
    ∃ statements errors, ∃ r : Reach ahead, ∀ c, TokenCursor.StandsBefore ahead stop c →
      declarations stops declaration fuel c = ⟨statements, errors, c.along r⟩ := by
  induction fuel generalizing ahead with
  | nil =>
    refine ⟨[], [], .read 0 (Nat.zero_le _), fun c _ => ?_⟩
    rw [TokenCursor.along_read]
    rfl
  | cons token fuel ih =>
    by_cases ended : (ahead.isEmpty || stops.contains (ahead.headD stop).kind) = true
    · refine ⟨[], [], .read 0 (Nat.zero_le _), fun c hc => ?_⟩
      rw [Parse.declarations, hc.atEnd, hc.current, if_pos ended, TokenCursor.along_read]
      rfl
    · obtain ⟨result, errors, r, first⟩ := h ahead stop
      obtain ⟨statements, errors', r', others⟩ := ih (ahead.drop r.count)
      refine ⟨result.toList ++ statements, errors ++ errors', r.trans r', fun c hc => ?_⟩
      rw [Parse.declarations, hc.atEnd, hc.current, if_neg ended]
      simp only [first c hc, others _ (hc.along r), hc.along_along]

theorem uniform_expect (kind : TokenKind) (problem : SyntaxProblem) :
    Uniform (expect kind problem) := by
  refine (uniform_takeIf [kind]).andThen fun found => ?_
  cases found with
  | some token => exact uniform_sequential.done token
  | none => exact .stay (f := fun token => (none, [SyntaxError.at problem token])) fun _ => rfl

theorem Uniform.blockWith {declaration : Parse Stmt} (h : Uniform declaration) :
    Uniform (blockWith declaration) := by
  intro ahead stop
  obtain ⟨statements, errors, r, body⟩ := h.declarations [.rightBrace] ahead ahead stop
  obtain ⟨result, errors', r', closing⟩ :=
    uniform_expect .rightBrace .expectBraceAfterBlock (ahead.drop r.count) stop
  refine ⟨result.map fun _ => .block statements, errors ++ errors', r.trans r', fun c hc => ?_⟩
  simp only [Parse.blockWith, hc.ahead_eq, body c hc, closing _ (hc.along r), hc.along_along]

theorem uniform_overdeepBlock : Uniform overdeepBlock := by
  intro ahead stop
  have bound := TokenCursor.blockLength_le 0 ahead
  -- the move ends with the block it skipped
  refine ⟨none, [SyntaxError.at .tooMuchNesting (ahead.headD stop)],
    ⟨_, some (TokenCursor.blockLength 0 ahead), bound, by simp⟩, fun c hc => ?_⟩
  have place : (c.skip (TokenCursor.blockLength 0 ahead)).position =
      c.position + TokenCursor.blockLength 0 ahead := by
    rw [← hc.ahead_eq] at bound ⊢
    exact TokenCursor.position_skip bound
  have skipped : c.skipBlock =
      { c.skip (TokenCursor.blockLength 0 ahead) with
        skippedTo := some (c.position + TokenCursor.blockLength 0 ahead) } := by
    rw [← place, TokenCursor.skipBlock, hc.ahead_eq]
  show Outcome.mk none [SyntaxError.at .tooMuchNesting c.current] c.skipBlock = _
  rw [hc.current, skipped]
  rfl

theorem uniform_level : LevelClosed fun _ p _ => Uniform p where
  toSequential := uniform_sequential
  binaryLevel {_ operand _} listed h := by
    refine h.andThen fun left ahead stop => ?_
    -- the fuel of a chain is what is ahead of it, the same for all of the cursors
    obtain ⟨result, errors, r, chain⟩ :=
      @Sequential.binaryTail _ uniform_sequential _ operand operand listed h ahead left ahead stop
    refine ⟨result, errors, r, fun c hc => ?_⟩
    rw [hc.ahead_eq]
    exact chain c hc

theorem uniform_fail {problem : SyntaxProblem} : Uniform (fail problem : Parse α) :=
  .stay (f := fun token => (none, [SyntaxError.at problem token])) fun _ => rfl

theorem uniform_closed : StatementClosed fun _ p _ => Uniform p where
  toLevelClosed := uniform_level
  fail _ := uniform_fail
  overflow _ := uniform_fail
  assignment := @LevelClosed.assignment _ uniform_level fun token =>
    .stay (f := fun _ => (some (), [SyntaxError.at .invalidTarget token])) fun _ => rfl
  takeAny _ := uniform_takeIf _
  recovering := Uniform.recovering
  blockWith := Uniform.blockWith
  overdeepBlock _ := uniform_overdeepBlock

/-- A declaration does not depend on what stands before it. -/
theorem uniform_declaration (room : Nat) : Uniform (declaration room) :=
  uniform_closed.declaration (Nat.le_refl room)

/-- Declarations yield the same wherever the tokens stand. -/
theorem allDeclarations_eq_of_standsBefore (room : Nat) (stops : List TokenKind)
    {ahead : List Token} {stop : Token} {c c' : TokenCursor} (h : c.StandsBefore ahead stop)
    (h' : c'.StandsBefore ahead stop) :
    (allDeclarations stops (declaration room) c).statements =
        (allDeclarations stops (declaration room) c').statements ∧
      (allDeclarations stops (declaration room) c).errors =
        (allDeclarations stops (declaration room) c').errors := by
  obtain ⟨statements, errors, r, outcome⟩ :=
    (uniform_declaration room).declarations stops ahead ahead stop
  rw [allDeclarations, allDeclarations, h.ahead_eq, h'.ahead_eq, outcome c h, outcome c' h']
  exact ⟨rfl, rfl⟩

end Parse

end LoxCheck
