import LoxCheck.Proofs.BlockComments

/-!
# A cursor never drifts

A cursor keeps its source in parts, and counts its offsets from them. Whatever it is asked, in any
order, the offsets, the line and the lexeme are those of its place in the source, and what it has
delivered is what stands between the place where it began and the place it has come to. A call that
delivers nothing moves nothing, except that a mark brings the start of the lexeme to the position.
-/

namespace LoxCheck

/-! ## Calls -/

/-- What can be asked of a cursor, by the kind of answer. -/
inductive CursorCall : Type → Type where
  | next : CursorCall (Except ScanFault Char)
  | peek (offset : Int) : CursorCall (Option Char)
  | accept (expected : List Char) : CursorCall Bool
  | mark : CursorCall Unit
  | lexeme : CursorCall (List Char)
  | atEnd : CursorCall Bool

namespace CursorCall

variable {α : Type}

/-- What a call answers, and the cursor after it. -/
def run : CursorCall α → Cursor → α × Cursor
  | next, c =>
    match c.next? with
    | some (x, after) => (.ok x, after)
    | none => (.error c.fault, c)
  | peek offset, c => (c.peek offset, c)
  | accept expected, c =>
    match c.accept? expected with
    | some after => (true, after)
    | none => (false, c)
  | mark, c => ((), c.mark)
  | lexeme, c => (c.lexeme, c)
  | atEnd, c => (c.atEnd, c)

/-- The characters that a call delivers with its answer. -/
def delivered : CursorCall α → α → List Char
  | next, answer => answer.toOption.toList
  | accept expected, answer => if answer then expected else []
  | _, _ => []

/-- Some calls, one after the other: what they deliver together, and the cursor after them. -/
def runAll : List ((α : Type) × CursorCall α) → Cursor → List Char × Cursor
  | [], c => ([], c)
  | call :: rest, c =>
    let (answer, after) := call.2.run c
    let (text, last) := runAll rest after
    (call.2.delivered answer ++ text, last)

end CursorCall

/-! ## Reading a text -/

namespace Cursor

variable {source text text' expected : List Char} {c d e : Cursor} {x : Char}

/-- The second cursor is the first one with a text read, and perhaps a mark set on the way. -/
structure Reads (c : Cursor) (text : List Char) (d : Cursor) : Prop where
  passed : d.passed = c.passed ++ text
  rest : c.rest = text ++ d.rest
  line : d.line = c.line + lineFeeds text
  overrun : d.overrun = c.overrun
  start : c.start ≤ d.start

theorem reads_nil (c : Cursor) : c.Reads [] c :=
  ⟨(List.append_nil _).symm, rfl, by simp [lineFeeds], rfl, Nat.le_refl _⟩

theorem Reads.trans (first : c.Reads text d) (second : d.Reads text' e) :
    c.Reads (text ++ text') e := by
  have line := first.line
  have line' := second.line
  refine ⟨?_, ?_, ?_, second.overrun.trans first.overrun, Nat.le_trans first.start second.start⟩
  · rw [second.passed, first.passed, List.append_assoc]
  · rw [first.rest, second.rest, List.append_assoc]
  · rw [lineFeeds_append]
    omega

/-- A mark brings the start of the lexeme to the position. -/
theorem start_mark (c : Cursor) : c.mark.start = c.position := by
  simp only [start, mark, position, List.length_append]
  omega

theorem reads_mark (c : Cursor) : c.Reads [] c.mark := by
  refine ⟨(List.append_nil _).symm, rfl, by simp [lineFeeds, mark], rfl, ?_⟩
  rw [start_mark]
  exact Nat.le_add_right _ _

theorem reads_next (h : c.next? = some (x, d)) : c.Reads [x] d ∧ d.start = c.start := by
  unfold next? at h
  split at h
  · exact absurd h (by simp)
  · next y rest hrest =>
    obtain ⟨rfl, rfl⟩ := Prod.mk.inj (Option.some.inj h)
    exact ⟨⟨by simp [passed], hrest, rfl, rfl, Nat.le_refl _⟩, rfl⟩

theorem accept?_eq_some_iff :
    c.accept? expected = some d ↔ ∃ x, expected = [x] ∧ c.next? = some (x, d) := by
  unfold accept?
  cases h : c.next? with
  | none => simp
  | some read =>
    obtain ⟨y, after⟩ := read
    by_cases same : expected = [y]
    · simp [same]
    · simp only [same, if_false, reduceCtorEq, false_iff, not_exists, not_and]
      rintro x rfl given
      obtain ⟨rfl, -⟩ := Prod.mk.inj (Option.some.inj given)
      exact same rfl

end Cursor

namespace CursorCall

/-- A call reads what it delivers, and nothing else. -/
theorem reads_run {α : Type} (call : CursorCall α) (c : Cursor) :
    c.Reads (call.delivered (call.run c).1) (call.run c).2 := by
  cases call with
  | next =>
    cases h : c.next? with
    | none => simpa [run, delivered, h, Except.toOption] using c.reads_nil
    | some read =>
      simpa [run, delivered, h, Except.toOption] using (Cursor.reads_next h).1
  | accept expected =>
    cases h : c.accept? expected with
    | none => simpa [run, delivered, h] using c.reads_nil
    | some after =>
      obtain ⟨x, rfl, read⟩ := Cursor.accept?_eq_some_iff.1 h
      simpa [run, delivered, h] using (Cursor.reads_next read).1
  | mark => exact c.reads_mark
  | peek offset => exact c.reads_nil
  | lexeme => exact c.reads_nil
  | atEnd => exact c.reads_nil

/-- Calls one after the other read what they deliver together. -/
theorem reads_runAll (calls : List ((α : Type) × CursorCall α)) (c : Cursor) :
    c.Reads (runAll calls c).1 (runAll calls c).2 := by
  induction calls generalizing c with
  | nil => exact c.reads_nil
  | cons call rest ih => exact (call.2.reads_run c).trans (ih (call.2.run c).2)

end CursorCall

/-! ## Offsets into a source -/

/-- The character at an offset of a text, if the offset lies in it. -/
def characterAt (source : List Char) (offset : Int) : Option Char :=
  if 0 ≤ offset then source[offset.toNat]? else none

namespace Cursor

variable {source text : List Char} {c d : Cursor}

/-- A cursor between the characters of a source, or at its end. -/
structure Splits (source : List Char) (c : Cursor) : Prop where
  split : c.passed ++ c.rest = source
  inside : c.overrun = 0

theorem length_passed (c : Cursor) : c.passed.length = c.before.length + c.held.length := by
  simp [passed]

namespace Splits

theorem position (h : c.Splits source) : c.position = c.passed.length := by
  rw [length_passed, Cursor.position, start, h.inside, Nat.add_zero]

theorem rest (h : c.Splits source) : c.rest = source.drop c.position := by
  rw [h.position, ← h.split, List.drop_left]

theorem position_le (h : c.Splits source) : c.position ≤ source.length := by
  rw [h.position, ← h.split, List.length_append]
  exact Nat.le_add_right _ _

theorem lexeme (h : c.Splits source) : c.lexeme = source.extract c.start c.position := by
  have parts : source = c.before.reverse ++ (c.held.reverse ++ c.rest) := by
    rw [← h.split, passed, List.reverse_append, List.append_assoc]
  have start : c.start = c.before.reverse.length := by
    rw [Cursor.start, h.inside, List.length_reverse, Nat.add_zero]
  have length : c.position - c.start = c.held.reverse.length := by
    rw [Cursor.position, Nat.add_sub_cancel_left, List.length_reverse]
  rw [List.extract_eq_take_drop, length, start, parts, List.drop_left, List.take_left]
  rfl

/-- Looking ahead and looking back are looking into the source. -/
theorem peek (h : c.Splits source) (offset : Int) :
    c.peek offset = characterAt source (c.position + offset) := by
  cases offset with
  | ofNat ahead =>
    have place : ((c.position : Int) + Int.ofNat ahead).toNat = c.position + ahead := by
      simp only [Int.ofNat_eq_natCast]
      omega
    rw [characterAt, place, if_pos (by simp only [Int.ofNat_eq_natCast]; omega)]
    show c.rest[ahead]? = _
    rw [h.rest, List.getElem?_drop]
  | negSucc back =>
    have length : (c.held ++ c.before).length = c.position := by
      rw [h.position, passed, List.length_reverse]
    have read : c.peek (.negSucc back) = (c.held ++ c.before)[back]? := by
      simp [Cursor.peek, h.inside]
    rw [read, characterAt]
    split
    · -- what was read last stands right before the position
      have place : ((c.position : Int) + .negSucc back).toNat = c.position - (back + 1) := by omega
      have before : c.position - (back + 1) < c.passed.length := by
        rw [← h.position]
        omega
      calc (c.held ++ c.before)[back]? = c.passed[c.position - (back + 1)]? :=
            (List.getElem?_reverse' (by omega)).symm
        _ = (c.passed ++ c.rest)[c.position - (back + 1)]? :=
            (List.getElem?_append_left before).symm
        _ = source[((c.position : Int) + .negSucc back).toNat]? := by rw [h.split, place]
    · exact List.getElem?_eq_none (by omega)

/-- The character that comes next is the one at the position. -/
theorem next? (h : c.Splits source) : c.next?.map Prod.fst = source[c.position]? := by
  have first : c.next?.map Prod.fst = c.rest.head? := by
    unfold Cursor.next?
    cases c.rest <;> rfl
  rw [first, h.rest, List.head?_drop]

theorem atEnd (h : c.Splits source) : c.atEnd = decide (c.position = source.length) := by
  have bound := h.position_le
  rw [Cursor.atEnd, h.rest, Bool.eq_iff_iff, List.isEmpty_iff, List.drop_eq_nil_iff,
    decide_eq_true_iff]
  omega

end Splits

theorem splits_ofSource {first : Nat} (within : first ≤ source.length) (line : Int) :
    (ofSource source first line).Splits source := by
  refine ⟨?_, Nat.sub_eq_zero_of_le within⟩
  rw [show (ofSource source first line).passed = source.take first from List.reverse_reverse _]
  exact List.take_append_drop first source

theorem start_ofSource {first : Nat} (within : first ≤ source.length) (line : Int) :
    (ofSource source first line).start = first := by
  simp only [start, ofSource, List.length_reverse, List.length_take]
  omega

theorem Reads.splits (h : c.Reads text d) (stands : c.Splits source) : d.Splits source := by
  refine ⟨?_, h.overrun.trans stands.inside⟩
  rw [h.passed, List.append_assoc, ← h.rest, stands.split]

/-- What was read is what stands in the source from the one position to the other. -/
theorem Reads.text_eq (h : c.Reads text d) (stands : c.Splits source) :
    text = source.extract c.position d.position := by
  have position : d.position = c.position + text.length := by
    rw [(h.splits stands).position, stands.position, h.passed, List.length_append]
  rw [List.extract_eq_take_drop, ← stands.rest, h.rest, position, Nat.add_sub_cancel_left,
    List.take_left]

end Cursor

/-! ## Answers -/

namespace CursorCall

variable {source expected : List Char} {c : Cursor} {x : Char}

theorem next_ok_iff (h : c.Splits source) :
    (next.run c).1 = .ok x ↔ source[c.position]? = some x := by
  rw [← h.next?]
  cases read : c.next? <;> simp [run, read]

/-- Only at the end of the source is there nothing to read. -/
theorem next_error (h : c.Splits source) {fault : ScanFault}
    (raised : (next.run c).1 = .error fault) :
    c.position = source.length ∧ fault = c.fault ∧ (next.run c).2 = c := by
  cases read : c.next? with
  | none =>
    have behind : source[c.position]? = none := by rw [← h.next?, read, Option.map_none]
    have position_ge := List.getElem?_eq_none_iff.1 behind
    simp only [run, read, Except.error.injEq] at raised ⊢
    exact ⟨Nat.le_antisymm h.position_le position_ge, raised.symm, trivial⟩
  | some read' => simp [run, read] at raised

theorem accept_iff (h : c.Splits source) :
    ((accept expected).run c).1 = true ↔ ∃ x, expected = [x] ∧ source[c.position]? = some x := by
  have taken : ((accept expected).run c).1 = true ↔ ∃ d, c.accept? expected = some d := by
    cases read : c.accept? expected <;> simp [run, read]
  rw [taken]
  constructor
  · rintro ⟨d, read⟩
    obtain ⟨x, same, next⟩ := Cursor.accept?_eq_some_iff.1 read
    exact ⟨x, same, by rw [← h.next?, next, Option.map_some]⟩
  · rintro ⟨x, same, there⟩
    obtain ⟨⟨_, d⟩, next, rfl⟩ := Option.map_eq_some_iff.1 (h.next?.trans there)
    exact ⟨d, Cursor.accept?_eq_some_iff.2 ⟨_, same, next⟩⟩

theorem accept_refused (refused : ((accept expected).run c).1 = false) :
    (accept expected).run c = (false, c) := by
  cases read : c.accept? expected with
  | none => simp [run, read]
  | some after => simp [run, read] at refused

/-- Reading leaves the start of the lexeme where it is. -/
theorem start_next (c : Cursor) : (next.run c).2.start = c.start := by
  cases read : c.next? with
  | none => simp [run, read]
  | some read' => simpa [run, read] using (Cursor.reads_next read).2

theorem start_accept (expected : List Char) (c : Cursor) :
    ((accept expected).run c).2.start = c.start := by
  cases read : c.accept? expected with
  | none => simp [run, read]
  | some after =>
    obtain ⟨x, -, next⟩ := Cursor.accept?_eq_some_iff.1 read
    simpa [run, read] using (Cursor.reads_next next).2

end CursorCall

/-- A cursor answers from its source, at the offsets it has come to. What reads nothing leaves it as
it is, but for a mark, and nothing but a mark moves the start of its lexeme. -/
structure Cursor.AnswersFrom (source : List Char) (c : Cursor) : Prop where
  next : ∀ x, (CursorCall.next.run c).1 = .ok x ↔ source[c.position]? = some x
  next_error : ∀ fault, (CursorCall.next.run c).1 = .error fault →
    c.position = source.length ∧ fault = .endOfSource c.position c.line ∧
      (CursorCall.next.run c).2 = c
  next_start : (CursorCall.next.run c).2.start = c.start
  accept : ∀ expected, ((CursorCall.accept expected).run c).1 = true ↔
    ∃ x, expected = [x] ∧ source[c.position]? = some x
  accept_refused : ∀ expected, ((CursorCall.accept expected).run c).1 = false →
    ((CursorCall.accept expected).run c).2 = c
  accept_other : ∀ expected, expected.length ≠ 1 →
    (CursorCall.accept expected).run c = (false, c)
  accept_start : ∀ expected, ((CursorCall.accept expected).run c).2.start = c.start
  peek : ∀ offset,
    (CursorCall.peek offset).run c = (characterAt source (c.position + offset), c)
  lexeme : CursorCall.lexeme.run c = (source.extract c.start c.position, c)
  atEnd : CursorCall.atEnd.run c = (decide (c.position = source.length), c)
  mark : (CursorCall.mark.run c).2.start = c.position ∧
    (CursorCall.mark.run c).2.position = c.position ∧ (CursorCall.mark.run c).2.line = c.line

theorem Cursor.Splits.answersFrom {source : List Char} {c : Cursor} (h : c.Splits source) :
    c.AnswersFrom source where
  next _ := CursorCall.next_ok_iff h
  next_error _ raised := CursorCall.next_error h raised
  next_start := CursorCall.start_next c
  accept _ := CursorCall.accept_iff h
  accept_refused _ refused := by rw [CursorCall.accept_refused refused]
  accept_other expected several := by
    refine CursorCall.accept_refused (Bool.eq_false_iff.2 fun taken => several ?_)
    obtain ⟨x, rfl, -⟩ := (CursorCall.accept_iff h).1 taken
    rfl
  accept_start expected := CursorCall.start_accept expected c
  peek offset := by rw [CursorCall.run, h.peek]
  lexeme := by rw [CursorCall.run, h.lexeme]
  atEnd := by rw [CursorCall.run, h.atEnd]
  mark := ⟨c.start_mark, c.start_mark, rfl⟩

/-- A cursor never drifts. It is placed in a source, on a line, and called any number of times, with
any arguments and in any order. After every call its lexeme lies between the place where it began
and the end of the source; its line has grown by the line feeds that it has passed; and what the
calls have delivered is just what stands in the source from the place where it began to its
position. Its answers are those of the source at its offsets: it has something to read unless it is
at the end, where asking for the next character is an error and moves nothing; it accepts the text
of the one character that comes next, and no other text moves it, be it empty or of several
characters; looking ahead or back, however far, moves nothing; and its lexeme is what stands between
its start, which only a mark moves, and its position. -/
theorem cursor_never_drifts {source : List Char} {first : Nat} (within : first ≤ source.length)
    (line : Int) (calls : List ((α : Type) × CursorCall α)) :
    ∃ text c, CursorCall.runAll calls (.ofSource source first line) = (text, c) ∧
      (first ≤ c.start ∧ c.start ≤ c.position ∧ c.position ≤ source.length) ∧
      c.line = line + lineFeeds (source.extract first c.position) ∧
      text = source.extract first c.position ∧
      c.AnswersFrom source := by
  have placed := Cursor.splits_ofSource within line
  have reads := CursorCall.reads_runAll calls (.ofSource source first line)
  have splits := reads.splits placed
  have start := Cursor.start_ofSource within line
  have first_le := reads.start
  rw [start] at first_le
  -- nothing is held yet, so that the position is the start
  have told := reads.text_eq placed
  rw [show (Cursor.ofSource source first line).position = first from start] at told
  refine ⟨_, _, rfl, ⟨first_le, Nat.le_add_right _ _, splits.position_le⟩, ?_, told,
    splits.answersFrom⟩
  rw [← told]
  exact reads.line

/-- A look back, two texts that cannot be accepted, a mark between two characters, and a call for
one character too many. -/
def mixedCalls : List ((α : Type) × CursorCall α) :=
  [⟨_, .peek (-1)⟩, ⟨_, .accept []⟩, ⟨_, .next⟩, ⟨_, .accept ['*', '/']⟩, ⟨_, .mark⟩,
    ⟨_, .accept ['*']⟩, ⟨_, .next⟩]

/-- Begun behind the slash, on line 5, the cursor has passed the line feed and the star, and holds
the star. -/
theorem cursor_never_drifts_mixedCalls :
    1 ≤ ['/', '\n', '*'].length ∧
    ∃ c, CursorCall.runAll mixedCalls (.ofSource ['/', '\n', '*'] 1 5) = (['\n', '*'], c) ∧
      (1 ≤ c.start ∧ c.start ≤ c.position ∧ c.position ≤ 3) ∧
      c.start = 2 ∧ c.position = 3 ∧ c.line = 6 ∧ CursorCall.lexeme.run c = (['*'], c) ∧
      (CursorCall.accept []).run c = (false, c) ∧ (CursorCall.peek (-4)).run c = (none, c) := by
  obtain ⟨text, c, made, bounds, line, told, answers⟩ :=
    @cursor_never_drifts ['/', '\n', '*'] 1 (by decide) 5 mixedCalls
  obtain rfl : _ = c := congrArg Prod.snd made
  rw [told] at made
  exact ⟨by decide, _, made, bounds, rfl, rfl, line, answers.lexeme,
    answers.accept_other [] (by decide), answers.peek (-4)⟩

end LoxCheck
