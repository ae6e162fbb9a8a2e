import LoxCheck.Command.FileTree
import LoxCheck.Proofs.NumeralTheorems
import Mathlib.Tactic.SplitIfs

/-!
# Texts on one line

No line break of any kind is printable, and a quoted text holds printable characters only, so what
is written with quoted parts stays on one line. In particular a report that a file could not be
read does, whatever its path and its bytes are, as long as the reason of the file system does.
-/

namespace LoxCheck

namespace Text

/-! ## Printable characters -/

/-- The characters that end a line. -/
def lineBreaks : List Char :=
  ['\n', '\r', '\x0b', '\x0c', '\x1c', '\x1d', '\x1e', '\u0085', '\u2028', '\u2029']

/-- The text holds no line break. -/
def OnOneLine (text : String) : Prop := ∀ c ∈ text.toList, c ∉ lineBreaks

instance (text : String) : Decidable (OnOneLine text) :=
  List.decidableBAll (· ∉ lineBreaks) text.toList

theorem onOneLine_append {text text' : String} :
    OnOneLine (text ++ text') ↔ OnOneLine text ∧ OnOneLine text' := by
  unfold OnOneLine
  rw [String.toList_append]
  exact List.forall_mem_append

/-- The table of what is not printable covers the line breaks. -/
theorem isPrintable_of_mem_lineBreaks : ∀ c ∈ lineBreaks, isPrintable c = false := by
  have all : lineBreaks.all (fun c => !isPrintable c) = true := by decide +kernel
  simpa only [List.all_eq_true, Bool.not_eq_true'] using all

theorem onOneLine_of_isPrintable {text : String}
    (h : ∀ c ∈ text.toList, isPrintable c = true) : OnOneLine text := by
  intro c hc ends
  have printable := h c hc
  rw [isPrintable_of_mem_lineBreaks c ends] at printable
  exact absurd printable Bool.false_ne_true

theorem isPrintable_of_isDigit {c : Char} (h : c.isDigit = true) : isPrintable c = true := by
  have bounds := Numeral.isDigit_bounds h
  rw [isPrintable, if_pos (by omega)]
  exact decide_eq_true (by omega)

theorem isPrintable_hexDigit : ∀ n < 16, isPrintable (hexDigit n) = true := by decide

theorem isPrintable_of_mem_hexDigits (width n : Nat) :
    ∀ c ∈ hexDigits width n, isPrintable c = true := by
  induction width generalizing n with
  | zero => exact fun c hc => absurd hc List.not_mem_nil
  | succ width ih =>
    refine List.forall_mem_append.2 ⟨ih (n / 16), fun c hc => ?_⟩
    obtain rfl := List.mem_singleton.1 hc
    exact isPrintable_hexDigit _ (Nat.mod_lt n (by omega))

/-! ## Quoted text -/

theorem isPrintable_quoteMark (text : List Char) : isPrintable (quoteMark text) = true := by
  unfold quoteMark
  split <;> decide

/-- Whatever is not printable is escaped. -/
theorem isPrintable_of_mem_escape {mark c : Char} (hm : isPrintable mark = true) :
    ∀ c' ∈ escape mark c, isPrintable c' = true := by
  -- an escape is a backslash and a letter, with some digits after it or none
  have escaped (letter : Char) (printable : isPrintable letter = true) {digits : List Char}
      (h : ∀ c' ∈ digits, isPrintable c' = true) :
      ∀ c' ∈ '\\' :: letter :: digits, isPrintable c' = true :=
    List.forall_mem_cons.2 ⟨by decide, List.forall_mem_cons.2 ⟨printable, h⟩⟩
  have nothing : ∀ c' ∈ [], isPrintable c' = true := fun _ absent => absurd absent List.not_mem_nil
  unfold escape
  split_ifs with special _ _ _ printable
  · have printable : isPrintable c = true := by
      rcases Bool.or_eq_true_iff.1 special with same | backslash
      · exact of_decide_eq_true same ▸ hm
      · exact of_decide_eq_true backslash ▸ by decide
    exact escaped c printable nothing
  · exact escaped 't' (by decide) nothing
  · exact escaped 'n' (by decide) nothing
  · exact escaped 'r' (by decide) nothing
  · simpa using printable
  · exact escaped 'x' (by decide) (isPrintable_of_mem_hexDigits 2 _)
  · exact escaped 'u' (by decide) (isPrintable_of_mem_hexDigits 4 _)
  · exact escaped 'U' (by decide) (isPrintable_of_mem_hexDigits 8 _)

theorem isPrintable_of_mem_quotedChars (text : List Char) :
    ∀ c ∈ quotedChars text, isPrintable c = true := by
  have mark := isPrintable_quoteMark text
  refine List.forall_mem_cons.2
    ⟨mark, List.forall_mem_append.2 ⟨fun c' hc => ?_, by simpa using mark⟩⟩
  obtain ⟨c, -, escaped⟩ := List.mem_flatMap.1 hc
  exact isPrintable_of_mem_escape mark c' escaped

theorem onOneLine_quoted (text : String) : OnOneLine (quoted text) := by
  apply onOneLine_of_isPrintable
  rw [quoted, String.toList_ofList]
  exact isPrintable_of_mem_quotedChars text.toList

theorem onOneLine_hexDigits (width n : Nat) : OnOneLine (String.ofList (hexDigits width n)) := by
  apply onOneLine_of_isPrintable
  rw [String.toList_ofList]
  exact isPrintable_of_mem_hexDigits width n

theorem isDigit_of_mem_repr {n : Nat} {c : Char} (h : c ∈ n.repr.toList) : c.isDigit = true := by
  rw [Nat.toList_repr] at h
  exact Nat.isDigit_of_mem_toDigits (by decide) (by decide) h

theorem onOneLine_repr (n : Nat) : OnOneLine n.repr :=
  onOneLine_of_isPrintable fun _ hc => isPrintable_of_isDigit (isDigit_of_mem_repr hc)

end Text

/-! ## Reports on files -/

theorem Text.Utf8Fault.onOneLine_message (f : Utf8Fault) : OnOneLine f.message := by
  have reason : OnOneLine f.reason.message := by cases f.reason <;> decide
  have position := onOneLine_repr f.position
  unfold message
  split
  · next b _ =>
    have byte := onOneLine_hexDigits 2 b.toNat
    simp only [toString, onOneLine_append, and_assoc]
    exact ⟨by decide, by decide, byte, by decide, position, by decide, reason⟩
  · have last := onOneLine_repr (f.position + f.bytes.length - 1)
    simp only [toString, onOneLine_append, and_assoc]
    exact ⟨by decide, by decide, position, by decide, last, by decide, reason⟩

theorem FileError.onOneLine_message {e : FileError} (h : Text.OnOneLine e.cause.reason)
    (path : String) : Text.OnOneLine (e.message path) := by
  have code := Text.onOneLine_repr e.cause.code
  cases e with
  | opening cause =>
    simp only [message, toString, Text.onOneLine_append, and_assoc]
    exact ⟨by decide, code, by decide, h, by decide, Text.onOneLine_quoted path⟩
  | reading cause =>
    simp only [message, toString, Text.onOneLine_append, and_assoc]
    exact ⟨by decide, code, by decide, h⟩

/-- The file system gives its reasons on one line each, as operating systems do. -/
def FileSystem.ReasonsOnOneLine (files : FileSystem) : Prop :=
  ∀ path e, files path = .error e → Text.OnOneLine e.cause.reason

namespace FileTree

theorem onOneLine_of_step {tree : FileTree} {place : Place} {part : String} {e : SystemError}
    (h : step tree place part = .error e) : Text.OnOneLine e.reason := by
  unfold step at h
  split at h
  · obtain rfl := Except.error.inj h
    decide
  · dsimp only at h
    split_ifs at h
    · obtain rfl := Except.error.inj h
      decide
    · split at h
      · exact absurd h (by simp)
      · exact absurd h (by simp)
      · obtain rfl := Except.error.inj h
        decide

/-- Where a walk along a path fails, one of its steps does. -/
theorem onOneLine_of_walk {tree : FileTree} {parts : List String} {place : Place}
    {e : SystemError}
    (h : parts.foldlM (step tree) place = .error e) : Text.OnOneLine e.reason := by
  induction parts generalizing place with
  | nil => exact absurd h (by simp [pure, Except.pure])
  | cons part parts ih =>
    rw [List.foldlM_cons] at h
    cases first : step tree place part with
    | error e' =>
      rw [first] at h
      obtain rfl := Except.error.inj h
      exact onOneLine_of_step first
    | ok next =>
      rw [first] at h
      exact ih h

/-- Listed files are refused on one line. -/
theorem reasonsOnOneLine_openFile (tree : FileTree) :
    FileSystem.ReasonsOnOneLine tree.openFile := by
  intro path e h
  unfold openFile at h
  split_ifs at h
  · obtain rfl := Except.error.inj h
    decide
  · obtain rfl := Except.error.inj h
    decide
  · split at h
    · next failed =>
      obtain rfl := Except.error.inj h
      exact onOneLine_of_walk failed
    · exact absurd h (by simp)
    · obtain rfl := Except.error.inj h
      decide

end FileTree

end LoxCheck
