import LoxCheck.Command.Run
import LoxCheck.Proofs.PlacedTokens
import LoxCheck.Proofs.QuotedText
import LoxCheck.Proofs.SingleLines

/-!
# Token dumps

A dump has one line for each token, and no line break inside a line: the line number, the name of
the kind and the written literal hold none, and the lexeme is quoted. Nothing is lost either. The
fields of a line are told apart by the spaces between them, as far as the quoted lexeme, which reads
back; and the literal of a scanned token is what its lexeme says.
-/

namespace LoxCheck

namespace Text

/-! ## Digits -/

theorem repr_ne_nil (n : Nat) : n.repr.toList ≠ [] := by
  rw [Nat.toList_repr]
  exact Nat.toDigits_ne_nil

/-- Digits are read back. -/
theorem natRepr_inj {m n : Nat} (h : m.repr.toList = n.repr.toList) : m = n := by
  rw [Nat.toList_repr, Nat.toList_repr] at h
  have read := congrArg (Nat.ofDigitChars 10 · 0) h
  rwa [Nat.ofDigitChars_ten_toDigits, Nat.ofDigitChars_ten_toDigits] at read

theorem toList_repr_negSucc (n : Nat) : (Int.negSucc n).repr.toList = '-' :: n.succ.repr.toList :=
  String.toList_append

/-! ## Printable lines -/

/-- All characters of a text are printable. -/
def Printable (text : List Char) : Prop := ∀ c ∈ text, isPrintable c = true

instance (text : List Char) : Decidable (Printable text) :=
  List.decidableBAll (isPrintable · = true) text

namespace Printable

variable {text text' : List Char}

theorem nil : Printable [] := fun _ absent => absurd absent List.not_mem_nil

theorem cons_iff {c : Char} : Printable (c :: text) ↔ isPrintable c = true ∧ Printable text :=
  List.forall_mem_cons

theorem append_iff : Printable (text ++ text') ↔ Printable text ∧ Printable text' :=
  List.forall_mem_append

theorem of_sublist (h : Printable text) (part : text'.Sublist text) : Printable text' :=
  fun c hc => h c (part.subset hc)

theorem replicate {c : Char} (h : isPrintable c = true) (n : Nat) :
    Printable (List.replicate n c) := by
  intro c' hc
  obtain rfl := List.eq_of_mem_replicate hc
  exact h

theorem repr (n : Nat) : Printable n.repr.toList :=
  fun _ hc => isPrintable_of_isDigit (isDigit_of_mem_repr hc)

theorem intRepr (line : Int) : Printable line.repr.toList := by
  cases line with
  | ofNat n => exact repr n
  | negSucc n =>
    rw [toList_repr_negSucc, cons_iff]
    exact ⟨by decide, repr n.succ⟩

end Printable

end Text

open Text

theorem Decimal.printable_layout (d : Decimal) : Printable d.layout := by
  have digits (n : Nat) : Printable (digitChars n) := Printable.repr n
  have trimmed : Printable (trimZeros (digitChars d.digits)) := by
    refine (digits d.digits).of_sublist ?_
    rw [trimZeros, ← List.reverse_sublist, List.reverse_reverse]
    exact List.dropWhile_sublist _
  have zeros (n : Nat) : Printable (List.replicate n '0') := .replicate (by decide) n
  have first (n : Nat) := trimmed.of_sublist (List.take_sublist n _)
  have others (n : Nat) := trimmed.of_sublist (List.drop_sublist n _)
  have marks : isPrintable '0' = true ∧ isPrintable '.' = true ∧ isPrintable 'e' = true ∧
      isPrintable '-' = true ∧ isPrintable '+' = true := by
    decide
  unfold layout
  dsimp only
  split_ifs <;>
    simp only [Printable.append_iff, Printable.cons_iff, Printable.nil, digits, trimmed, zeros,
      first, others, marks, and_self]

theorem Binary64.printable_text (x : Binary64) : Printable x.text.toList := by
  have sign (negative : Bool) : Printable (if negative then ['-'] else []) := by
    cases negative
    · exact .nil
    · exact Printable.cons_iff.2 ⟨by decide, .nil⟩
  unfold text
  split <;> rw [String.toList_ofList] <;> refine Printable.append_iff.2 ⟨sign _, ?_⟩
  · decide
  · decide
  · exact Decimal.printable_layout _

theorem Text.printable_quotedChars (text : List Char) : Printable (quotedChars text) :=
  isPrintable_of_mem_quotedChars text

theorem Value.printable_describe (value : Value) : Printable value.describe.toList := by
  cases value with
  | nil => decide
  | boolean value => cases value <;> decide
  | number value => exact value.printable_text
  | text value =>
    rw [describe, quoted, String.toList_ofList]
    exact printable_quotedChars _

/-- A line of a dump is printable, whatever the token is. -/
theorem Token.printable_dumpChars (t : Token) : Printable t.dumpChars := by
  have spaces (n : Nat) : Printable (List.replicate n ' ') := .replicate (by decide) n
  have line : Printable (toString t.line).toList := .intRepr t.line
  have name : Printable t.kind.name.toList := by cases t.kind <;> decide
  unfold dumpChars padLeft padRight
  simp only [Printable.append_iff]
  refine ⟨⟨⟨⟨⟨⟨spaces _, line⟩, by decide⟩, name, spaces _⟩, by decide⟩,
    printable_quotedChars _⟩, ?_⟩
  split
  · exact .nil
  · exact Printable.cons_iff.2 ⟨by decide, Value.printable_describe _⟩

theorem Token.onOneLine_dump (t : Token) : OnOneLine t.dump := by
  apply onOneLine_of_isPrintable
  rw [dump, String.toList_ofList]
  exact t.printable_dumpChars

/-! ## Fields -/

/-- A field ends at the first space behind it. -/
theorem field_inj {space : Char} {field field' rest rest' : List Char} (h : space ∉ field)
    (h' : space ∉ field') (same : field ++ space :: rest = field' ++ space :: rest') :
    field = field' ∧ rest = rest' := by
  have cut (word others : List Char) (h : space ∉ word) :
      (word ++ space :: others).takeWhile (· ≠ space) = word ∧
        (word ++ space :: others).dropWhile (· ≠ space) = space :: others :=
    span_append (p := (· ≠ space)) (space :: others)
      (fun c hc => by simpa using fun eq : c = space => h (eq ▸ hc)) (by simp)
  obtain ⟨first, behind⟩ := cut field rest h
  obtain ⟨first', behind'⟩ := cut field' rest' h'
  rw [same] at first behind
  exact ⟨first.symm.trans first', (List.cons.inj (behind.symm.trans behind')).2⟩

/-- A field that is filled up on the left ends at the first space behind it, too. -/
theorem padLeft_inj {width : Nat} {field field' rest rest' : List Char} (h : ' ' ∉ field)
    (h' : ' ' ∉ field') (nonempty : field ≠ []) (nonempty' : field' ≠ [])
    (same : Token.padLeft width field ++ ' ' :: rest = Token.padLeft width field' ++ ' ' :: rest') :
    field = field' ∧ rest = rest' := by
  have trimmed (word others : List Char) (h : ' ' ∉ word) (nonempty : word ≠ []) :
      (Token.padLeft width word ++ ' ' :: others).dropWhile (· = ' ') = word ++ ' ' :: others := by
    rw [Token.padLeft, List.append_assoc]
    refine (span_append (p := (· = ' ')) _ (fun c hc => ?_) fun c hc => ?_).2
    · simpa using List.eq_of_mem_replicate hc
    · obtain ⟨first, letters, rfl⟩ := List.exists_cons_of_ne_nil nonempty
      obtain rfl := Option.some.inj hc
      simpa using fun eq : first = ' ' => h (by simp [eq])
  have first := trimmed field rest h nonempty
  rw [same, trimmed field' rest' h' nonempty'] at first
  exact field_inj h h' first.symm

/-- A field that is filled up on the right ends at the first space. -/
theorem padRight_inj {width : Nat} {field field' rest rest' : List Char} (h : ' ' ∉ field)
    (h' : ' ' ∉ field')
    (same : Token.padRight width field ++ ' ' :: rest =
      Token.padRight width field' ++ ' ' :: rest') : field = field' ∧ rest = rest' := by
  have spaced (word others : List Char) : Token.padRight width word ++ ' ' :: others =
      word ++ ' ' :: (List.replicate (width - word.length) ' ' ++ others) := by
    rw [Token.padRight, List.append_assoc, ← List.singleton_append, ← List.append_assoc _ [' '],
      ← List.replicate_succ', List.replicate_succ, List.cons_append]
  rw [spaced, spaced] at same
  obtain ⟨rfl, behind⟩ := field_inj h h' same
  exact ⟨rfl, List.append_cancel_left behind⟩

/-- A line number is a field. -/
theorem unspaced_repr (line : Int) : ' ' ∉ line.repr.toList ∧ line.repr.toList ≠ [] := by
  cases line with
  | ofNat n => exact ⟨fun space => absurd (isDigit_of_mem_repr space) (by decide), repr_ne_nil n⟩
  | negSucc n =>
    rw [toList_repr_negSucc]
    refine ⟨fun space => ?_, List.cons_ne_nil _ _⟩
    rcases List.mem_cons.1 space with dash | digit
    · exact absurd dash (by decide)
    · exact absurd (isDigit_of_mem_repr digit) (by decide)

/-- Line numbers are told apart by their digits. -/
theorem repr_inj {line line' : Int} (h : line.repr.toList = line'.repr.toList) : line = line' := by
  -- a dash is no digit
  have apart (m n : Nat) : m.repr.toList ≠ '-' :: n.succ.repr.toList := fun same =>
    absurd (@isDigit_of_mem_repr m '-' (by rw [same]; exact List.mem_cons_self)) (by decide)
  cases line with
  | ofNat m =>
    cases line' with
    | ofNat n => exact congrArg Int.ofNat (natRepr_inj h)
    | negSucc n =>
      rw [toList_repr_negSucc] at h
      exact absurd h (apart m n)
  | negSucc m =>
    rw [toList_repr_negSucc] at h
    cases line' with
    | ofNat n => exact absurd h.symm (apart n m)
    | negSucc n =>
      rw [toList_repr_negSucc] at h
      rw [Nat.succ.inj (natRepr_inj (List.cons.inj h).2)]

/-- So is the name of a kind. -/
theorem TokenKind.unspaced_name (kind : TokenKind) : ' ' ∉ kind.name.toList := by
  cases kind <;> decide

/-- A line tells the number of the line, the kind and the lexeme of its token. -/
theorem Token.dumpChars_inj {a b : Token} (h : a.dumpChars = b.dumpChars) :
    a.line = b.line ∧ a.kind = b.kind ∧ a.lexeme = b.lexeme := by
  unfold dumpChars at h
  simp only [List.append_assoc, List.cons_append, List.nil_append] at h
  obtain ⟨line, behind⟩ := padLeft_inj (unspaced_repr a.line).1 (unspaced_repr b.line).1
    (unspaced_repr a.line).2 (unspaced_repr b.line).2 h
  obtain ⟨-, behind⟩ := List.cons.inj behind
  obtain ⟨name, behind⟩ := padRight_inj a.kind.unspaced_name b.kind.unspaced_name behind
  obtain ⟨lexeme, -⟩ := quotedChars_inj behind
  exact ⟨repr_inj line, TokenKind.name_inj.1 (String.toList_inj.1 name),
    String.toList_inj.1 lexeme⟩

/-! ## Dumps of a source -/

/-- What a token carries is what its kind and its lexeme say. -/
structure Token.CarriesLexeme (t : Token) : Prop where
  number : t.kind = .number → ∃ x, Numeral.read? t.lexeme.toList = some x ∧ t.literal = .number x
  string : t.kind = .string → ∃ content, t.lexeme.toList = '"' :: (content ++ ['"']) ∧
    t.literal = .text (String.ofList content)
  plain : t.kind ≠ .number → t.kind ≠ .string → t.literal = .nil

theorem carriesLexeme_of_mem_scan {source : String} {t : Token} (h : t ∈ (scan source).tokens) :
    t.CarriesLexeme := by
  rcases List.mem_append.1 h with body | last
  · obtain ⟨after, maximal⟩ := exists_maximal body
    refine ⟨fun kind => ?_, fun kind => ?_, maximal.plain⟩
    · obtain ⟨whole, fraction, number⟩ := maximal.number kind
      exact number.value
    · obtain ⟨content, string⟩ := maximal.string kind
      exact ⟨content, string.text, string.value⟩
  · obtain rfl := List.mem_singleton.1 last
    exact ⟨TokenKind.noConfusion, TokenKind.noConfusion, fun _ _ => rfl⟩

theorem Token.CarriesLexeme.literal_eq {a b : Token} (ha : a.CarriesLexeme) (hb : b.CarriesLexeme)
    (kind : a.kind = b.kind) (lexeme : a.lexeme = b.lexeme) : a.literal = b.literal := by
  by_cases number : a.kind = .number
  · obtain ⟨x, read, carried⟩ := ha.number number
    obtain ⟨y, read', carried'⟩ := hb.number (kind ▸ number)
    rw [lexeme, read'] at read
    rw [carried, carried', Option.some.inj read]
  by_cases string : a.kind = .string
  · obtain ⟨content, text, carried⟩ := ha.string string
    obtain ⟨content', text', carried'⟩ := hb.string (kind ▸ string)
    rw [lexeme, text'] at text
    have inside := List.append_cancel_right (List.cons.inj text).2
    rw [carried, carried', inside]
  · rw [ha.plain number string, hb.plain (kind ▸ number) (kind ▸ string)]

/-- Scanned tokens are told apart by their lines in a dump. -/
theorem eq_of_dump_eq {a b : Token} (ha : a.CarriesLexeme) (hb : b.CarriesLexeme)
    (h : a.dump = b.dump) : a = b := by
  have chars : a.dumpChars = b.dumpChars := by
    rw [← String.toList_ofList (l := a.dumpChars), ← String.toList_ofList (l := b.dumpChars)]
    exact congrArg String.toList h
  obtain ⟨line, kind, lexeme⟩ := Token.dumpChars_inj chars
  have literal := ha.literal_eq hb kind lexeme
  obtain ⟨_, _, _, _⟩ := a
  obtain ⟨_, _, _, _⟩ := b
  rw [Token.mk.injEq]
  exact ⟨kind, lexeme, literal, line⟩

theorem eq_of_map_dump_eq {tokens tokens' : List Token} (h : ∀ t ∈ tokens, t.CarriesLexeme)
    (h' : ∀ t ∈ tokens', t.CarriesLexeme) (same : tokens.map Token.dump = tokens'.map Token.dump) :
    tokens = tokens' := by
  induction tokens generalizing tokens' with
  | nil => exact (List.map_eq_nil_iff.1 same.symm).symm
  | cons t tokens ih =>
    obtain ⟨t', others, rfl, first, rest⟩ := List.map_eq_cons_iff.1 same.symm
    obtain ⟨ht, htokens⟩ := List.forall_mem_cons.1 h
    obtain ⟨ht', hothers⟩ := List.forall_mem_cons.1 h'
    rw [eq_of_dump_eq ht ht' first.symm, ih htokens hothers rest.symm]

theorem Report.written_cons (text : String) (texts : List String) :
    (written (text :: texts)).toList = text.toList ++ '\n' :: (written texts).toList := by
  simp [written]

/-- Lines are told apart by the line feeds behind them. -/
theorem Report.written_inj {texts texts' : List String} (h : ∀ text ∈ texts, OnOneLine text)
    (h' : ∀ text ∈ texts', OnOneLine text) (same : written texts = written texts') :
    texts = texts' := by
  have unbroken {text : String} (h : OnOneLine text) : '\n' ∉ text.toList := fun feed =>
    h '\n' feed (by decide)
  have nonempty (text : String) (texts : List String) : written (text :: texts) ≠ written [] := by
    intro same
    have chars := congrArg String.toList same
    rw [written_cons] at chars
    exact absurd chars (by simp [written])
  induction texts generalizing texts' with
  | nil =>
    cases texts' with
    | nil => rfl
    | cons text' texts' => exact absurd same.symm (nonempty text' texts')
  | cons text texts ih =>
    cases texts' with
    | nil => exact absurd same (nonempty text texts)
    | cons text' texts' =>
      obtain ⟨line, others⟩ := List.forall_mem_cons.1 h
      obtain ⟨line', others'⟩ := List.forall_mem_cons.1 h'
      have chars := congrArg String.toList same
      rw [written_cons, written_cons] at chars
      obtain ⟨first, rest⟩ := field_inj (unbroken line) (unbroken line') chars
      rw [String.toList_inj.1 first, ih others others' (String.toList_inj.1 rest)]

/-- The dump of a source has one line for each token, and no line break inside a line. No two sources
have the same dump, unless they have the same tokens: kinds, lexemes, literals and lines. -/
theorem dumps_lose_nothing :
    (∀ (room : DumpRoom) (files : FileSystem) (source : String), ∃ report lines,
      Command.run room files { isString := true, tokens := true } source = .ok report ∧
      report.stdout = Report.written lines ∧ lines.length = (scan source).tokens.length ∧
      ∀ line ∈ lines, OnOneLine line) ∧
    ∀ (room room' : DumpRoom) (files files' : FileSystem) (source source' : String)
        (report report' : Report),
      Command.run room files { isString := true, tokens := true } source = .ok report →
      Command.run room' files' { isString := true, tokens := true } source' = .ok report' →
      report.stdout = report'.stdout → (scan source).tokens = (scan source').tokens := by
  have dumped (room : DumpRoom) (files : FileSystem) (source : String) : ∃ report,
      Command.run room files { isString := true, tokens := true } source = .ok report ∧
        report.stdout = Report.written ((scan source).tokens.map Token.dump) :=
    ⟨_, rfl, congrArg Report.written (List.append_nil _)⟩
  have unbroken (source : String) :
      ∀ line ∈ (scan source).tokens.map Token.dump, OnOneLine line := by
    intro line listed
    obtain ⟨t, -, rfl⟩ := List.mem_map.1 listed
    exact t.onOneLine_dump
  constructor
  · intro room files source
    obtain ⟨report, ran, out⟩ := dumped room files source
    exact ⟨report, _, ran, out, List.length_map _, unbroken source⟩
  · intro room room' files files' source source' report report' ran ran' same
    obtain ⟨_, known, out⟩ := dumped room files source
    obtain ⟨_, known', out'⟩ := dumped room' files' source'
    obtain rfl := Except.ok.inj (ran.symm.trans known)
    obtain rfl := Except.ok.inj (ran'.symm.trans known')
    rw [out, out'] at same
    exact eq_of_map_dump_eq (fun _ => carriesLexeme_of_mem_scan)
      (fun _ => carriesLexeme_of_mem_scan)
      (Report.written_inj (unbroken source) (unbroken source') same)

/-- A string with a line separator and a line feed, before a semicolon and apart from it. -/
theorem dumps_lose_nothing_lineSeparator :
    (∃ report lines, Command.run .standard (FileTree.openFile [])
        { isString := true, tokens := true } "\"\u2028\n\" ;" = .ok report ∧
      report.stdout = Report.written lines ∧ lines.length = 3 ∧
      ∀ line ∈ lines, OnOneLine line) ∧
    (scan "\"\u2028\n\" ;").tokens = (scan "\"\u2028\n\";").tokens := by
  obtain ⟨lines, told⟩ := dumps_lose_nothing
  refine ⟨?_, told .standard .standard (FileTree.openFile []) (FileTree.openFile []) _ _ _ _
    rfl rfl ?_⟩
  · obtain ⟨report, lines, ran, out, count, unbroken⟩ :=
      lines .standard (FileTree.openFile []) "\"\u2028\n\" ;"
    have three : (scan "\"\u2028\n\" ;").tokens.length = 3 := by decide +kernel
    exact ⟨report, lines, ran, out, count.trans three, unbroken⟩
  · decide +kernel

end LoxCheck
