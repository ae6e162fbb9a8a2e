import LoxCheck.Proofs.Completeness
import LoxCheck.Grammar.Program

/-!
# Acceptance

A token sequence is parsed without an error exactly if its kinds derive from the grammar by a
derivation whose nesting is within the limit, and then the statements are the tree of that
derivation.
-/

namespace LoxCheck

/-- The room at the start of a program is the limit of nesting, or none if that is negative. -/
theorem le_room_iff (nesting : Nat) (maxDepth : Int) :
    nesting ≤ room maxDepth 0 ↔ (nesting : Int) ≤ max 0 maxDepth := by
  unfold room
  omega

theorem parse_append_singleton {body : List Token} {stop : Token}
    (readable : ∀ token ∈ body, token.kind ≠ .eof) (ends : stop.kind = .eof) (maxDepth : Int) :
    parse (body ++ [stop]) maxDepth =
      .ok (Parse.program (room maxDepth 0) (TokenCursor.start body stop stop)) := by
  rw [parse, TokenCursor.ofTokens?_append_singleton readable ends]

/-- A program that is read without an error derives within the room. -/
theorem program_derives {room : Nat} {c : TokenCursor}
    (silent : (Parse.program room c).errors = []) :
    ∃ nesting, nesting ≤ room ∧
      Grammar.Program c.ahead nesting (Parse.program room c).statements := by
  obtain ⟨tokens, nesting, fits, h, read⟩ := Grammar.sound_program room c
  have all : c.ahead = tokens := by
    rw [read silent, Parse.ahead_program, List.append_nil]
  exact ⟨nesting, fits, all ▸ h⟩

/-- No error is reported if and only if the kinds of the tokens derive from the grammar within the
limit of nesting. The statements are then the tree of a derivation of the very tokens, and of every
derivation of them. -/
theorem parse_accepts_iff_derives {body : List Token} {stop : Token}
    (readable : ∀ token ∈ body, token.kind ≠ .eof) (ends : stop.kind = .eof) (maxDepth : Int) :
    ∃ d, parse (body ++ [stop]) maxDepth = .ok d ∧
      (d.errors = [] ↔ ∃ nesting : Nat, (nesting : Int) ≤ max 0 maxDepth ∧
        Grammar.ProgramOfKinds (body.map (·.kind)) nesting) ∧
      (d.errors = [] →
        (∃ nesting : Nat, (nesting : Int) ≤ max 0 maxDepth ∧
          Grammar.Program body nesting d.statements) ∧
        ∀ nesting statements, Grammar.Program body nesting statements →
          statements = d.statements) := by
  refine ⟨_, parse_append_singleton readable ends maxDepth, ?_⟩
  -- the derivation that soundness finds, with the limit as it was given
  have derived : (Parse.program (room maxDepth 0) (TokenCursor.start body stop stop)).errors = [] →
      ∃ nesting : Nat, (nesting : Int) ≤ max 0 maxDepth ∧ Grammar.Program body nesting
        (Parse.program (room maxDepth 0) (TokenCursor.start body stop stop)).statements := by
    intro silent
    obtain ⟨nesting, fits, h⟩ := program_derives silent
    exact ⟨nesting, (le_room_iff nesting maxDepth).1 fits, h⟩
  refine ⟨⟨fun silent => ?_, ?_⟩, fun silent => ⟨derived silent, ?_⟩⟩
  · obtain ⟨nesting, fits, h⟩ := derived silent
    exact ⟨nesting, fits, Grammar.programOfKinds_iff.2 ⟨_, h⟩⟩
  · intro derives
    obtain ⟨nesting, fits, kinds⟩ := derives
    obtain ⟨statements, h⟩ := Grammar.programOfKinds_iff.1 kinds
    have read := @Grammar.complete_program _ _ (TokenCursor.start body stop stop) _ h
      ((le_room_iff nesting maxDepth).2 fits)
    rw [read]
  · intro nesting statements h
    obtain ⟨_, -, h'⟩ := derived silent
    exact h.unique h'

/-- The program `print -1;` fits a limit of two levels. -/
theorem parse_accepts_print :
    ∃ d, parse ([⟨.kwPrint, "print", .nil, 1⟩, ⟨.minus, "-", .nil, 1⟩,
        ⟨.number, "1", .number .one, 1⟩, ⟨.semicolon, ";", .nil, 1⟩] ++ [⟨.eof, "", .nil, 1⟩]) 2 =
          .ok d ∧
      d.errors = [] ∧
      d.statements = [.print (.unary ⟨.minus, "-", .nil, 1⟩ (.literal (.number .one)))] := by
  obtain ⟨d, hd, accepts, tree⟩ := @parse_accepts_iff_derives
    [⟨.kwPrint, "print", .nil, 1⟩, ⟨.minus, "-", .nil, 1⟩, ⟨.number, "1", .number .one, 1⟩,
      ⟨.semicolon, ";", .nil, 1⟩] ⟨.eof, "", .nil, 1⟩ (by decide) rfl 2
  have operand : Grammar.Derives .unary [⟨.minus, "-", .nil, 1⟩, ⟨.number, "1", .number .one, 1⟩] 1
      (.unary ⟨.minus, "-", .nil, 1⟩ (.literal (.number .one))) :=
    .unary (.inr rfl) (.primary (.literal (.inl rfl)))
  have factor : Grammar.Derives (.binary .factor) _ _ _ := .operand operand
  have equality : Grammar.Derives (.binary .equality) _ _ _ := .operand (.operand (.operand factor))
  have print := @Grammar.Declaration.print ⟨.kwPrint, "print", .nil, 1⟩ ⟨.semicolon, ";", .nil, 1⟩
    _ _ _ rfl (.expression (.equality equality)) rfl
  have derivation := Grammar.Program.cons print .nil
  -- the operand has one level, and the expression has one more
  have silent : d.errors = [] :=
    accepts.2 ⟨2, by decide, Grammar.programOfKinds_iff.2 ⟨_, derivation⟩⟩
  exact ⟨d, hd, silent, ((tree silent).2 _ _ derivation).symm⟩

end LoxCheck
