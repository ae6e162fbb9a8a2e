import LoxCheck.Proofs.Acceptance
import LoxCheck.Proofs.Confinement
import LoxCheck.Proofs.MatchingBraces
import LoxCheck.Proofs.UniformTheorems

/-!
# Errors are local

A closed token list is cut into segments that end with a semicolon, and into blocks of such
segments. Whatever such a list holds, the declarations in it are read to its end and no further, and
what follows is parsed as if nothing had come before. In a block the list is read as it is read
alone, with one level less to go.
-/

namespace LoxCheck

/-- Token lists in which every declaration is brought to an end: segments without braces that end
with a semicolon, whatever else they hold, and blocks of closed lists. -/
inductive Closed : List Token → Prop where
  | nil : Closed []
  | segment {inside : List Token} {semicolon : Token} :
    (∀ token ∈ inside, token.kind ≠ .leftBrace ∧ token.kind ≠ .rightBrace ∧ token.kind ≠ .eof) →
    semicolon.kind = .semicolon → Closed (inside ++ [semicolon])
  | append {first second : List Token} : Closed first → Closed second → Closed (first ++ second)
  | block {opening closing : Token} {inside : List Token} :
    opening.kind = .leftBrace → Closed inside → closing.kind = .rightBrace →
    Closed (opening :: inside ++ [closing])

theorem Closed.readable {tokens : List Token} (h : Closed tokens) :
    ∀ token ∈ tokens, token.kind ≠ .eof := by
  induction h with
  | nil => exact fun _ ht => absurd ht List.not_mem_nil
  | segment hi hs =>
    exact List.forall_mem_append.2 ⟨fun token ht => (hi token ht).2.2, by simp [hs]⟩
  | append _ _ ih ih' => exact List.forall_mem_append.2 ⟨ih, ih'⟩
  | block ho _ hc ih => exact Grammar.readable_enclosed (by simp [ho]) ih (by simp [hc])

/-- Every brace in a closed list has its partner there. -/
theorem Closed.balanced {tokens : List Token} (h : Closed tokens) : Balanced tokens := by
  induction h with
  | nil => exact .nil
  | segment hi hs =>
    exact (Balanced.of_unbraced fun token ht => ⟨(hi token ht).1, (hi token ht).2.1⟩).append
      (.other (by simp [hs]) (by simp [hs]) .nil)
  | append _ _ ih ih' => exact ih.append ih'
  | block ho _ hc ih => exact .block ho ih hc .nil

/-! ## Reading closed lists -/

/-- What was read before some declarations put in front of them. -/
def Declarations.prepend (statements : List Stmt) (errors : List SyntaxError) (d : Declarations) :
    Declarations :=
  ⟨statements ++ d.statements, errors ++ d.errors, d.cursor⟩

theorem Declarations.prepend_prepend (first second : List Stmt) (errors errors' : List SyntaxError)
    (d : Declarations) :
    (d.prepend second errors').prepend first errors =
      d.prepend (first ++ second) (errors ++ errors') := by
  simp only [prepend, List.append_assoc]

namespace Parse

/-- Wherever the tokens stand, they are read as these statements with these errors, and then the
declarations after them are read by a cursor that has left them behind. -/
def Apart (room : Nat) (tokens : List Token) (statements : List Stmt)
    (errors : List SyntaxError) : Prop :=
  ∀ (stops : List TokenKind) (c : TokenCursor) (rest : List Token),
    (∀ kind ∈ stops, kind = .rightBrace) → c.Fresh → c.ahead = tokens ++ rest →
    ∃ after, TokenCursor.StandsBefore rest c.stop after ∧
      allDeclarations stops (declaration room) c =
        (allDeclarations stops (declaration room) after).prepend statements errors

section

variable {room : Nat} {tokens : List Token}

theorem Apart.nil : Apart room [] [] [] :=
  fun _ c _ _ fresh hc => ⟨c, ⟨hc, rfl, fresh⟩, rfl⟩

theorem Apart.append {first second : List Token} {statements statements' : List Stmt}
    {errors errors' : List SyntaxError} (h : Apart room first statements errors)
    (h' : Apart room second statements' errors') :
    Apart room (first ++ second) (statements ++ statements') (errors ++ errors') := by
  intro stops c rest braces fresh hc
  rw [List.append_assoc] at hc
  obtain ⟨between, hb, eq⟩ := h stops c _ braces fresh hc
  obtain ⟨after, ha, eq'⟩ := h' stops between rest braces hb.fresh hb.ahead_eq
  refine ⟨after, ⟨ha.ahead_eq, ha.stop_eq.trans hb.stop_eq, ha.fresh⟩, ?_⟩
  rw [eq, eq', Declarations.prepend_prepend]

/-- A declaration that begins with no closing brace is read before the others. -/
theorem allDeclarations_eq_prepend {stops : List TokenKind} {c : TokenCursor} {token : Token}
    {rest : List Token} (braces : ∀ kind ∈ stops, kind = .rightBrace) (hc : c.ahead = token :: rest)
    (head : token.kind ≠ .rightBrace) :
    allDeclarations stops (declaration room) c =
      (allDeclarations stops (declaration room) (declaration room c).cursor).prepend
        (declaration room c).result.toList (declaration room c).errors := by
  have nonempty : c.ahead ≠ [] := by
    rw [hc]
    exact List.cons_ne_nil _ _
  have going : c.current.kind ∉ stops := by
    rw [TokenCursor.current_of_ahead hc]
    exact fun listed => head (braces _ listed)
  exact allDeclarations_of_go (fun _ => declaration_progress room) nonempty going

/-- A single declaration with one outcome wherever its tokens stand. -/
theorem Apart.of_declaration {token : Token} {others : List Token} {result : Option Stmt}
    {errors : List SyntaxError} (head : token.kind ≠ .rightBrace)
    (h : ∀ (c : TokenCursor) (rest : List Token), c.Fresh → c.ahead = token :: others ++ rest →
      ∃ after, TokenCursor.StandsBefore rest c.stop after ∧
        declaration room c = ⟨result, errors, after⟩) :
    Apart room (token :: others) result.toList errors := by
  intro stops c rest braces fresh hc
  obtain ⟨after, ha, eq⟩ := h c rest fresh hc
  refine ⟨after, ha, ?_⟩
  rw [allDeclarations_eq_prepend braces hc head, eq]

/-! ### Segments -/

/-- A segment is read declaration by declaration, each of which leaves a shorter segment. -/
theorem exists_apart_segment (room : Nat) {semicolon : Token} (hs : semicolon.kind = .semicolon)
    (inside : List Token)
    (unbraced : ∀ token ∈ inside, token.kind ≠ .leftBrace ∧ token.kind ≠ .rightBrace) :
    ∃ statements errors, Apart room (inside ++ [semicolon]) statements errors := by
  generalize length : inside.length = m
  induction m using Nat.strongRecOn generalizing inside with
  | ind m ih =>
    -- the first declaration takes `n` tokens, whatever follows the semicolon
    obtain ⟨result, errors, n, positive, bound, outcome⟩ :=
      exists_declaration_of_segment room hs fun token ht => (unbraced token ht).1
    have first : ∀ (stops : List TokenKind) (c : TokenCursor) (rest : List Token),
        (∀ kind ∈ stops, kind = .rightBrace) → c.Fresh →
        c.ahead = inside ++ semicolon :: rest →
        allDeclarations stops (declaration room) c =
          (allDeclarations stops (declaration room) (c.skip n)).prepend result.toList errors := by
      intro stops c rest braces fresh hc
      have read := outcome c rest fresh hc
      cases inside with
      | nil =>
        rw [allDeclarations_eq_prepend braces hc (by simp [hs]), read]
      | cons token inside =>
        rw [allDeclarations_eq_prepend braces hc (unbraced token List.mem_cons_self).2, read]
    by_cases whole : n = inside.length + 1
    · refine ⟨result.toList, errors, fun stops c rest braces fresh hc => ?_⟩
      replace hc : c.ahead = inside ++ semicolon :: rest := by rw [hc, List.append_assoc]; rfl
      have left : (c.skip n).ahead = rest := by
        rw [TokenCursor.ahead_skip, hc, whole]
        simp
      have within : n ≤ c.ahead.length := by
        rw [hc, List.length_append, List.length_cons]
        omega
      exact ⟨c.skip n, ⟨left, TokenCursor.stop_skip n c, fresh.skip within⟩,
        first stops c rest braces fresh hc⟩
    · -- what is left is a shorter segment
      have bound : n ≤ inside.length := by omega
      obtain ⟨statements, errors', h⟩ := ih (inside.drop n).length
        (by rw [List.length_drop]; omega) (inside.drop n)
        (fun token ht => unbraced token (List.mem_of_mem_drop ht)) rfl
      refine ⟨result.toList ++ statements, errors ++ errors', ?_⟩
      intro stops c rest braces fresh hc
      replace hc : c.ahead = inside ++ semicolon :: rest := by rw [hc, List.append_assoc]; rfl
      have within : n ≤ c.ahead.length := by
        rw [hc, List.length_append]
        omega
      have left : (c.skip n).ahead = inside.drop n ++ [semicolon] ++ rest := by
        rw [ahead_skip_of_le hc bound, List.append_assoc]
        rfl
      obtain ⟨after, ha, eq⟩ := h stops (c.skip n) rest braces (fresh.skip within) left
      refine ⟨after, ⟨ha.ahead_eq, ha.stop_eq.trans (TokenCursor.stop_skip n c), ha.fresh⟩, ?_⟩
      rw [first stops c rest braces fresh hc, eq, Declarations.prepend_prepend]

/-! ### Blocks -/

section

variable {opening closing : Token} {inside : List Token}

/-- A block that is too deep is skipped as a whole, with one error. -/
theorem Apart.overdeep (ho : opening.kind = .leftBrace) (hk : closing.kind = .rightBrace)
    (h : Closed inside) :
    Apart 0 (opening :: inside ++ [closing]) []
      [SyntaxError.at .tooMuchNesting (inside.headD closing)] := by
  show Apart 0 _ (none : Option Stmt).toList _
  apply Apart.of_declaration (by simp [ho])
  intro c rest fresh hc
  have second := TokenCursor.ahead_advance_of_enclosed hc
  -- the skip ends behind the closing brace, since the braces inside are balanced
  have within : TokenCursor.blockLength 0 c.advance.ahead = inside.length + 1 :=
    TokenCursor.blockLength_of_matched ⟨second, h.balanced, hk⟩
  have onward := c.advance.skipBlock_onward
  rw [within] at onward
  refine ⟨c.advance.skipBlock, ⟨?_, ?_, TokenCursor.fresh_skipBlock _⟩, ?_⟩
  · rw [onward.ahead, second]
    simp
  · exact onward.stop.trans (TokenCursor.stop_advance c)
  · have first : c.ahead = opening :: (inside ++ [closing] ++ rest) := hc
    rw [declaration_of_overdeep first ho, current_of_append second]

/-- A block of declarations is read with them. -/
theorem Apart.block (ho : opening.kind = .leftBrace) (hk : closing.kind = .rightBrace)
    {statements : List Stmt} {errors : List SyntaxError}
    (h : Apart room inside statements errors) :
    Apart (room + 1) (opening :: inside ++ [closing]) [.block statements] errors := by
  show Apart (room + 1) _ (some (Stmt.block statements)).toList _
  apply Apart.of_declaration (by simp [ho])
  intro c rest fresh hc
  have second := TokenCursor.ahead_advance_of_enclosed hc
  have fresh' : c.advance.Fresh := fresh.skip (onward_advance hc).bound
  obtain ⟨after, ha, eq⟩ :=
    h [.rightBrace] c.advance _ (fun kind => List.mem_singleton.1) fresh' second
  -- behind the declarations inside, the closing brace ends the body
  have stopped : allDeclarations [.rightBrace] (declaration room) after = ⟨[], [], after⟩ := by
    apply allDeclarations_of_stop
    right
    rw [TokenCursor.current_of_ahead ha.ahead_eq, hk]
    exact List.mem_singleton.2 rfl
  rw [stopped] at eq
  have body : allDeclarations [.rightBrace] (declaration room) c.advance =
      ⟨statements, errors, after⟩ := by
    rw [eq, Declarations.prepend, List.append_nil, List.append_nil]
  have block := block_of_closing body ha.ahead_eq hk
  have fresh'' : after.advance.Fresh := ha.fresh.skip (onward_advance ha.ahead_eq).bound
  refine ⟨after.advance, ⟨TokenCursor.ahead_advance_of_ahead ha.ahead_eq, ?_, fresh''⟩, ?_⟩
  · rw [TokenCursor.stop_advance, ha.stop_eq, TokenCursor.stop_advance]
  · exact recovering_of_eq ((attempt_of_brace (room + 1) hc ho).trans block)

end

/-- Every closed list is read apart from what follows, at every depth. -/
theorem exists_apart (h : Closed tokens) (room : Nat) :
    ∃ statements errors, Apart room tokens statements errors := by
  induction h generalizing room with
  | nil => exact ⟨[], [], .nil⟩
  | segment hi hs =>
    exact exists_apart_segment room hs _ fun token ht => ⟨(hi token ht).1, (hi token ht).2.1⟩
  | append _ _ ih ih' =>
    obtain ⟨statements, errors, h⟩ := ih room
    obtain ⟨statements', errors', h'⟩ := ih' room
    exact ⟨_, _, h.append h'⟩
  | block ho h hc ih =>
    cases room with
    | zero => exact ⟨_, _, .overdeep ho hc h⟩
    | succ room =>
      obtain ⟨statements, errors, h'⟩ := ih room
      exact ⟨_, _, .block ho hc h'⟩

end

end Parse

/-! ## Parsing a closed list and more -/

/-- A program of nothing but what is read apart from what follows. -/
theorem Parse.Apart.program {room : Nat} {tokens : List Token} {statements : List Stmt}
    {errors : List SyntaxError} (h : Apart room tokens statements errors) (stop last : Token) :
    ∃ finished,
      Parse.program room (TokenCursor.start tokens stop last) = ⟨statements, errors, finished⟩ := by
  obtain ⟨finished, hf, alone⟩ :=
    h [] (TokenCursor.start tokens stop last) [] (by simp) (TokenCursor.fresh_start _ _ _)
      (List.append_nil tokens).symm
  refine ⟨finished, alone.trans ?_⟩
  rw [allDeclarations_of_stop (.inl hf.ahead_eq), Declarations.prepend, List.append_nil,
    List.append_nil]

/-- A program that begins with a closed list is that list and then the program that follows. -/
theorem program_append_closed {room : Nat} {tokens ahead : List Token} {stop stop' last : Token}
    (closed : Closed tokens) :
    (Parse.program room (TokenCursor.start (tokens ++ ahead) stop' last)).statements =
        (Parse.program room (TokenCursor.start tokens stop stop)).statements ++
          (Parse.program room (TokenCursor.start ahead stop' last)).statements ∧
      (Parse.program room (TokenCursor.start (tokens ++ ahead) stop' last)).errors =
        (Parse.program room (TokenCursor.start tokens stop stop)).errors ++
          (Parse.program room (TokenCursor.start ahead stop' last)).errors := by
  obtain ⟨statements, errors, apart⟩ := Parse.exists_apart closed room
  obtain ⟨finished, alone⟩ := apart.program stop stop
  obtain ⟨between, hb, both⟩ :=
    apart [] (TokenCursor.start (tokens ++ ahead) stop' last) ahead (by simp)
      (TokenCursor.fresh_start _ _ _) rfl
  have there : (TokenCursor.start ahead stop' last).StandsBefore ahead stop' :=
    ⟨rfl, rfl, TokenCursor.fresh_start _ _ _⟩
  -- after the closed list and alone, the rest stands before the same tokens
  have same := Parse.allDeclarations_eq_of_standsBefore room [] hb there
  have both : Parse.program room (TokenCursor.start (tokens ++ ahead) stop' last) = _ := both
  rw [alone, both]
  exact ⟨congrArg (statements ++ ·) same.1, congrArg (errors ++ ·) same.2⟩

/-- No error in a closed list changes, hides or adds anything in what follows, and what follows
never changes what the list yields: the statements and errors of the two together are those of each
for itself. -/
theorem parse_append_closed {tokens others : List Token} {stop last : Token}
    (closed : Closed tokens) (hstop : stop.kind = .eof) (present : others.getLast? = some last)
    (ends : last.kind = .eof) (maxDepth : Int) :
    ∃ alone after both, parse (tokens ++ [stop]) maxDepth = .ok alone ∧
      parse others maxDepth = .ok after ∧ parse (tokens ++ others) maxDepth = .ok both ∧
      both.statements = alone.statements ++ after.statements ∧
      both.errors = alone.errors ++ after.errors := by
  obtain ⟨ahead, stop', more, rfl, readable, hstop'⟩ := TokenCursor.exists_readable present ends
  have parsed : parse (ahead ++ stop' :: more) maxDepth =
      .ok (Parse.program (room maxDepth 0) (TokenCursor.start ahead stop' last)) := by
    rw [parse, TokenCursor.ofTokens?_append_cons readable hstop' present ends]
  have present' : (tokens ++ ahead ++ stop' :: more).getLast? = some last := by
    rw [List.append_assoc, List.getLast?_append, present]
    rfl
  have readable' : ∀ token ∈ tokens ++ ahead, token.kind ≠ .eof :=
    List.forall_mem_append.2 ⟨closed.readable, readable⟩
  have parsed' : parse (tokens ++ (ahead ++ stop' :: more)) maxDepth =
      .ok (Parse.program (room maxDepth 0) (TokenCursor.start (tokens ++ ahead) stop' last)) := by
    rw [← List.append_assoc, parse,
      TokenCursor.ofTokens?_append_cons readable' hstop' present' ends]
  exact ⟨_, _, _, parse_append_singleton closed.readable hstop maxDepth, parsed, parsed',
    program_append_closed closed⟩

/-- After the segment `1 2;`, which yields an error, `nil;` yields what it yields alone. -/
theorem parse_append_broken_segment :
    ∃ alone after both,
      parse [⟨.number, "1", .nil, 1⟩, ⟨.number, "2", .nil, 1⟩, ⟨.semicolon, ";", .nil, 1⟩,
        ⟨.eof, "", .nil, 1⟩] = .ok alone ∧
      parse [⟨.kwNil, "nil", .nil, 1⟩, ⟨.semicolon, ";", .nil, 1⟩, ⟨.eof, "", .nil, 1⟩] =
        .ok after ∧
      parse [⟨.number, "1", .nil, 1⟩, ⟨.number, "2", .nil, 1⟩, ⟨.semicolon, ";", .nil, 1⟩,
        ⟨.kwNil, "nil", .nil, 1⟩, ⟨.semicolon, ";", .nil, 1⟩, ⟨.eof, "", .nil, 1⟩] = .ok both ∧
      both.statements = alone.statements ++ after.statements ∧
      both.errors = alone.errors ++ after.errors := by
  have closed : Closed ([⟨.number, "1", .nil, 1⟩, ⟨.number, "2", .nil, 1⟩] ++
      [⟨.semicolon, ";", .nil, 1⟩]) := .segment (by decide) rfl
  exact @parse_append_closed _ [⟨.kwNil, "nil", .nil, 1⟩, ⟨.semicolon, ";", .nil, 1⟩,
    ⟨.eof, "", .nil, 1⟩] ⟨.eof, "", .nil, 1⟩ ⟨.eof, "", .nil, 1⟩ closed rfl rfl rfl defaultMaxDepth

/-! ## Parsing a closed list in a block -/

/-- Within a limit of one level more, the program of a block of a closed list is that block, with
the statements and the errors of the program of the list. -/
theorem program_block_closed {room : Nat} {tokens : List Token} {opening closing : Token}
    (closed : Closed tokens) (ho : opening.kind = .leftBrace) (hk : closing.kind = .rightBrace)
    (stop stop' : Token) :
    (Parse.program (room + 1)
          (TokenCursor.start (opening :: tokens ++ [closing]) stop' stop')).statements =
        [.block (Parse.program room (TokenCursor.start tokens stop stop)).statements] ∧
      (Parse.program (room + 1)
          (TokenCursor.start (opening :: tokens ++ [closing]) stop' stop')).errors =
        (Parse.program room (TokenCursor.start tokens stop stop)).errors := by
  obtain ⟨statements, errors, apart⟩ := Parse.exists_apart closed room
  obtain ⟨finished, alone⟩ := apart.program stop stop
  obtain ⟨finished', whole⟩ := (apart.block ho hk).program stop' stop'
  rw [alone, whole]
  exact ⟨rfl, rfl⟩

/-- Errors in a block are recovered from as at top level: a closed list in braces is read as one
block, of the statements that the list yields alone within one level less, and with its errors. -/
theorem parse_block_closed {tokens : List Token} {opening closing stop stop' : Token}
    (closed : Closed tokens) (ho : opening.kind = .leftBrace) (hk : closing.kind = .rightBrace)
    (hstop : stop.kind = .eof) (hstop' : stop'.kind = .eof) {maxDepth : Int}
    (level : 0 ≤ maxDepth) :
    ∃ inside whole, parse (tokens ++ [stop]) maxDepth = .ok inside ∧
      parse (opening :: tokens ++ [closing] ++ [stop']) (maxDepth + 1) = .ok whole ∧
      whole.statements = [.block inside.statements] ∧ whole.errors = inside.errors := by
  have deeper : room (maxDepth + 1) 0 = room maxDepth 0 + 1 := by
    rw [room, room]
    omega
  have whole := parse_append_singleton (closed.block ho hk).readable hstop' (maxDepth + 1)
  rw [deeper] at whole
  exact ⟨_, _, parse_append_singleton closed.readable hstop maxDepth, whole,
    program_block_closed closed ho hk stop stop'⟩

/-- The tokens of `1 2; { { } nil; }`. -/
def brokenList : List Token :=
  [⟨.number, "1", .nil, 1⟩, ⟨.number, "2", .nil, 1⟩, ⟨.semicolon, ";", .nil, 1⟩,
    ⟨.leftBrace, "\x7b", .nil, 2⟩, ⟨.leftBrace, "\x7b", .nil, 2⟩,
    ⟨.rightBrace, "\x7d", .nil, 2⟩, ⟨.kwNil, "nil", .nil, 3⟩, ⟨.semicolon, ";", .nil, 3⟩,
    ⟨.rightBrace, "\x7d", .nil, 4⟩]

/-- Alone within one level and in a block within two, the list has an error in a segment, a block
that is too deep, and another error behind that. -/
theorem parse_block_brokenList :
    ∃ inside whole, parse (brokenList ++ [⟨.eof, "", .nil, 4⟩]) 1 = .ok inside ∧
      parse (⟨.leftBrace, "\x7b", .nil, 1⟩ :: brokenList ++ [⟨.rightBrace, "\x7d", .nil, 5⟩] ++
        [⟨.eof, "", .nil, 5⟩]) (1 + 1) = .ok whole ∧
      whole.statements = [.block inside.statements] ∧ whole.errors = inside.errors ∧
      inside.errors.map (·.problem) =
        [.expectSemicolonAfterExpression, .tooMuchNesting, .tooMuchNesting] := by
  have broken : Closed ([⟨.number, "1", .nil, 1⟩, ⟨.number, "2", .nil, 1⟩] ++
      [⟨.semicolon, ";", .nil, 1⟩]) := .segment (by decide) rfl
  have overdeep : Closed (⟨.leftBrace, "\x7b", .nil, 2⟩ :: [] ++
      [⟨.rightBrace, "\x7d", .nil, 2⟩]) := .block rfl .nil rfl
  have segment : Closed ([⟨.kwNil, "nil", .nil, 3⟩] ++ [⟨.semicolon, ";", .nil, 3⟩]) :=
    .segment (by decide) rfl
  have block : Closed (⟨.leftBrace, "\x7b", .nil, 2⟩ :: _ ++ [⟨.rightBrace, "\x7d", .nil, 4⟩]) :=
    .block rfl (overdeep.append segment) rfl
  have closed : Closed brokenList := broken.append block
  obtain ⟨inside, whole, alone, braced, statements, errors⟩ :=
    @parse_block_closed brokenList ⟨.leftBrace, "\x7b", .nil, 1⟩ ⟨.rightBrace, "\x7d", .nil, 5⟩
      ⟨.eof, "", .nil, 4⟩ ⟨.eof, "", .nil, 5⟩ closed rfl rfl rfl rfl 1 (by decide)
  have found : (parse (brokenList ++ [⟨.eof, "", .nil, 4⟩]) 1).toOption.map
      (fun d => d.errors.map (·.problem)) =
      some [.expectSemicolonAfterExpression, .tooMuchNesting, .tooMuchNesting] := by
    decide +kernel
  rw [alone] at found
  exact ⟨inside, whole, alone, braced, statements, errors, Option.some.inj found⟩

end LoxCheck
