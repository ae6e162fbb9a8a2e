import LoxCheck.Proofs.SingleLines
import LoxCheck.Proofs.Verdict

/-!
# Checking files

A file is checked by checking the text in it. The text is the one that the bytes of the file are
the UTF-8 encoding of, with its line ends made line feeds. A file that cannot be opened or read, or
whose bytes encode no text, is reported on one line and nothing else is done. There is no report for
a string that is no path at all, because of a null character in it, and none for a text whose tree
is asked for and too deep to be dumped.
-/

namespace LoxCheck

namespace Text

/-! ## Line ends -/

/-- A text with every pair of a carriage return and a line feed made a line feed. -/
def joinPairs : List Char → List Char
  | '\r' :: '\n' :: rest => '\n' :: joinPairs rest
  | c :: rest => c :: joinPairs rest
  | [] => []

/-- A line feed in place of a carriage return. -/
def feedForReturn (c : Char) : Char := if c = '\r' then '\n' else c

/-- A text with every pair of a carriage return and a line feed, and then every carriage return
that is left, made a line feed. -/
def withLineFeeds (text : String) : String :=
  String.ofList ((joinPairs text.toList).map feedForReturn)

/-- The pairs may be joined and the other carriage returns replaced in one pass. -/
theorem unifyLineEndings_eq (text : List Char) :
    unifyLineEndings text = (joinPairs text).map feedForReturn := by
  fun_induction joinPairs text with
  | case1 rest ih =>
    rw [unifyLineEndings, List.map_cons, ih]
    rfl
  | case2 c rest single ih =>
    rw [List.map_cons, ← ih]
    by_cases carriage : c = '\r'
    · subst carriage
      rw [unifyLineEndings]
      · rfl
      · exact fun rest' hr => single rest' rfl hr
    · rw [unifyLineEndings, feedForReturn, if_neg carriage]
      · exact fun _ hc _ => carriage hc
      · exact carriage
  | case3 => rfl

/-! ## Bytes -/

/-- Bytes are read as the text that they encode. -/
theorem decode_toUTF8 (text : String) : decode text.toUTF8 = .ok text := by
  have valid : text.toUTF8.IsValidUTF8 := text.isValidUTF8
  rw [decode, String.fromUTF8?, dif_pos valid]
  rfl

/-- Bytes that encode no text are refused with the first fault in them. -/
theorem decode_of_invalid {bytes : ByteArray} (h : ¬bytes.IsValidUTF8) :
    decode bytes = .error (firstFault 0 [] [] bytes.data.toList) := by
  rw [decode, String.fromUTF8?, dif_neg h]

/-- Valid bytes are the encoding of a text. -/
theorem exists_toUTF8_eq {bytes : ByteArray} (h : bytes.IsValidUTF8) :
    ∃ text : String, bytes = text.toUTF8 :=
  ⟨.fromUTF8 bytes h, rfl⟩

end Text

/-! ## Sources -/

namespace FileSystem

/-- At the path there is a file that can be opened and read, and it holds these bytes. -/
def Holds (files : FileSystem) (path : String) (content : ByteArray) : Prop :=
  '\x00' ∉ path.toList ∧ files path = .ok content

/-- The file at the path cannot be opened or read, or its bytes are no UTF-8. -/
def Unreadable (files : FileSystem) (path : String) : Prop :=
  (∃ e, files path = .error e) ∨ ∃ bytes, files path = .ok bytes ∧ ¬bytes.IsValidUTF8

end FileSystem

section

variable {room : DumpRoom} {files : FileSystem} {path : String}

/-- What a file holds can be found by asking for it alone, without the errors. -/
theorem FileSystem.eq_ok_of_toOption {content : ByteArray}
    (h : (files path).toOption = some content) : files path = .ok content := by
  cases opened : files path with
  | error e =>
    rw [opened] at h
    exact absurd h (by simp [Except.toOption])
  | ok bytes =>
    rw [opened] at h
    rw [Option.some.inj h]

theorem readSource_of_toUTF8 {text : String} (h : files path = .ok text.toUTF8) :
    readSource files path = .ok (Text.withLineFeeds text) := by
  simp only [readSource, h, Text.decode_toUTF8, Text.withLineFeeds, Text.unifyLineEndings_eq]

/-- What cannot be read is reported on one line. -/
theorem readSource_of_unreadable (plain : files.ReasonsOnOneLine) (h : files.Unreadable path) :
    ∃ message, readSource files path = .error message ∧ Text.OnOneLine message := by
  rcases h with ⟨e, failed⟩ | ⟨bytes, read, invalid⟩
  · exact ⟨e.message path, by simp only [readSource, failed],
      FileError.onOneLine_message (plain path e failed) path⟩
  · let fault := Text.firstFault 0 [] [] bytes.data.toList
    exact ⟨fault.message, by simp only [readSource, read, Text.decode_of_invalid invalid, fault],
      fault.onOneLine_message⟩

/-- A file is unreadable or holds the encoding of a text. -/
theorem FileSystem.unreadable_or_toUTF8 (files : FileSystem) (path : String) :
    files.Unreadable path ∨ ∃ text : String, files path = .ok text.toUTF8 := by
  cases opened : files path with
  | error e => exact .inl (.inl ⟨e, opened⟩)
  | ok bytes =>
    by_cases valid : bytes.IsValidUTF8
    · obtain ⟨text, rfl⟩ := Text.exists_toUTF8_eq valid
      exact .inr ⟨text, rfl⟩
    · exact .inl (.inr ⟨bytes, opened, valid⟩)

theorem FileSystem.not_unreadable_of_toUTF8 {text : String} (h : files path = .ok text.toUTF8) :
    ¬files.Unreadable path := by
  rintro (⟨e, failed⟩ | ⟨bytes, read, invalid⟩)
  · rw [h] at failed
    exact absurd failed (by simp)
  · rw [h] at read
    obtain rfl := Except.ok.inj read
    exact invalid text.isValidUTF8

/-! ## The command on a file -/

namespace Command

/-- A file that holds a text is checked by checking the text, with its line ends unified. -/
theorem run_of_holds {text : String} (h : files.Holds path text.toUTF8) {options : Options}
    (asked : options.isString = false) :
    run room files options path = checkText room options (Text.withLineFeeds text) := by
  simp [run, asked, h.1, readSource_of_toUTF8 h.2]

/-- A file that cannot be read is reported on one line, and nothing is written to the output. -/
theorem run_of_unreadable (plain : files.ReasonsOnOneLine) (asked : '\x00' ∉ path.toList)
    (h : files.Unreadable path) {options : Options} (isPath : options.isString = false) :
    ∃ message, Text.OnOneLine message ∧
      run room files options path = .ok { status := .noInput, err := ["error: " ++ message] } := by
  obtain ⟨message, failed, single⟩ := readSource_of_unreadable plain h
  exact ⟨message, single, by simp [run, isPath, asked, failed]⟩

theorem run_of_nul (nul : '\x00' ∈ path.toList) {options : Options}
    (isPath : options.isString = false) : run room files options path = .error .embeddedNul := by
  simp [run, isPath, nul]

end Command

end

/-- A string with a null character in it is no path, and there is no report on it; nor is there on a
file that holds a text whose tree is asked for and does not fit the room. In every other case the
command ends with 0, 65 or 66. It ends with 66 exactly if the file cannot be opened or read or its
bytes are no UTF-8; then it writes one line of errors, which begins with `error: `, and nothing
else. -/
theorem run_path (room : DumpRoom) (files : FileSystem) (plain : files.ReasonsOnOneLine)
    (path : String) (tokens ast : Bool) :
    ('\x00' ∈ path.toList ∧ Command.run room files { tokens, ast } path = .error .embeddedNul) ∨
    (ast = true ∧ (∃ text : String, files.Holds path text.toUTF8 ∧
        ¬room.Fits (check (Text.withLineFeeds text)).statements) ∧
      Command.run room files { tokens, ast } path = .error .dumpTooDeep) ∨
    '\x00' ∉ path.toList ∧ ∃ report, Command.run room files { tokens, ast } path = .ok report ∧
      report.status.code ∈ [0, 65, 66] ∧
      (report.status.code = 66 ↔ files.Unreadable path) ∧
      (files.Unreadable path → report.stdout = "" ∧
        ∃ message, Text.OnOneLine message ∧ report.stderr = "error: " ++ message ++ "\n") := by
  by_cases nul : '\x00' ∈ path.toList
  · exact .inl ⟨nul, Command.run_of_nul nul rfl⟩
  right
  rcases files.unreadable_or_toUTF8 path with unreadable | ⟨text, read⟩
  · obtain ⟨message, single, eq⟩ :=
      @Command.run_of_unreadable room files path plain nul unreadable { tokens, ast } rfl
    refine .inr ⟨nul, _, eq, by simp [ExitStatus.code], ?_, fun _ => ?_⟩
    · exact ⟨fun _ => unreadable, fun _ => rfl⟩
    · exact ⟨rfl, message, single, by simp [Report.stderr, Report.written]⟩
  · have readable := FileSystem.not_unreadable_of_toUTF8 read
    have holds : files.Holds path text.toUTF8 := ⟨nul, read⟩
    rw [Command.run_of_holds holds rfl]
    rcases Command.checkText_cases room { tokens, ast } (Text.withLineFeeds text) with
      ⟨asked, unfit, failed⟩ | ⟨report, eq, verdict⟩
    · exact .inl ⟨asked, ⟨text, holds, unfit⟩, failed⟩
    · refine .inr ⟨nul, report, eq, ?_, ?_, fun h => absurd h readable⟩
      · rcases verdict with eq | eq <;> rw [eq] <;> decide
      · rcases verdict with eq | eq <;> simp [eq, ExitStatus.code, readable]

/-- A file tree with a file in it that is no UTF-8. -/
def brokenFile : FileTree := FileTree.insert [] "broken.lox" (.file ⟨#[0x61, 0xff]⟩)

/-- The byte 255 begins no character, so the file is reported. -/
theorem run_path_brokenFile :
    ∃ report, Command.run .standard brokenFile.openFile { tokens := true } "broken.lox" =
        .ok report ∧
      report.status.code = 66 ∧ report.stdout = "" ∧
      ∃ message, Text.OnOneLine message ∧ report.stderr = "error: " ++ message ++ "\n" := by
  have opened : brokenFile.openFile "broken.lox" = .ok ⟨#[0x61, 0xff]⟩ :=
    FileSystem.eq_ok_of_toOption (by decide +kernel)
  have unreadable : FileSystem.Unreadable brokenFile.openFile "broken.lox" :=
    .inr ⟨_, opened, by decide⟩
  rcases run_path .standard _ brokenFile.reasonsOnOneLine_openFile "broken.lox" true false with
    ⟨nul, -⟩ | ⟨asked, -⟩ | ⟨-, report, eq, -, code, written⟩
  · exact absurd nul (by decide)
  · exact absurd asked (by decide)
  · exact ⟨report, eq, code.2 unreadable, written unreadable⟩

/-- A string with a null character is asked for in vain: there is no report on it. -/
theorem run_nul_without_report :
    ¬∃ report, Command.run .standard (FileTree.openFile []) {} "a\x00b" = .ok report := by
  rintro ⟨report, eq⟩
  have failed : Command.run .standard (FileTree.openFile []) {} "a\x00b" =
    .error .embeddedNul := rfl
  rw [failed] at eq
  exact absurd eq (by simp)

/-! ## Files and texts -/

/-- Checking a file that holds the encoding of a text comes to the same as checking the text itself,
with every pair of a carriage return and a line feed and every other carriage return made a line
feed. It comes to a report, unless the tree is asked for and does not fit the room. -/
theorem run_file_eq_run_text (room : DumpRoom) (files : FileSystem) {path text : String}
    (holds : files.Holds path text.toUTF8) (tokens ast : Bool) :
    Command.run room files { tokens, ast } path =
        Command.run room files { isString := true, tokens, ast } (Text.withLineFeeds text) ∧
      ((∃ report, Command.run room files { tokens, ast } path = .ok report) ∨
        ast = true ∧ ¬room.Fits (check (Text.withLineFeeds text)).statements ∧
          Command.run room files { tokens, ast } path = .error .dumpTooDeep) := by
  have same : Command.run room files { tokens, ast } path =
      Command.checkText room { tokens, ast } (Text.withLineFeeds text) :=
    Command.run_of_holds holds rfl
  refine ⟨same, ?_⟩
  rw [same]
  rcases Command.checkText_cases room { tokens, ast } (Text.withLineFeeds text) with
    unfit | ⟨report, eq, -⟩
  · exact .inr unfit
  · exact .inl ⟨report, eq⟩

/-- A text with all line ends there are, inside of a string, in a comment and at its end. -/
def mixedBreaks : String := "print \"é\r\n\r𝄞\"; // ok\r+\r\r\n\n1 =\r"

/-- The string and the comment end where they end in the text with line feeds. -/
theorem run_file_eq_run_text_mixedBreaks :
    ∃ report,
      Command.run .standard (FileTree.insert [] "mixed.lox" (.file mixedBreaks.toUTF8)).openFile
        { tokens := true, ast := true } "mixed.lox" = .ok report ∧
      Command.run .standard (FileTree.insert [] "mixed.lox" (.file mixedBreaks.toUTF8)).openFile
        { isString := true, tokens := true, ast := true }
        "print \"é\n\n𝄞\"; // ok\n+\n\n\n1 =\n" = .ok report := by
  have opened : FileTree.openFile (FileTree.insert [] "mixed.lox" (.file mixedBreaks.toUTF8))
      "mixed.lox" = .ok mixedBreaks.toUTF8 := FileSystem.eq_ok_of_toOption (by decide +kernel)
  have unified : Text.withLineFeeds mixedBreaks = "print \"é\n\n𝄞\"; // ok\n+\n\n\n1 =\n" := by
    decide
  have fits : DumpRoom.standard.Fits (check (Text.withLineFeeds mixedBreaks)).statements := by
    rw [unified]
    decide +kernel
  obtain ⟨same, ⟨report, eq⟩ | ⟨-, unfit, -⟩⟩ :=
    run_file_eq_run_text .standard _ ⟨by decide, opened⟩ true true
  · rw [unified] at same
    exact ⟨report, eq, same ▸ eq⟩
  · exact absurd fits unfit

end LoxCheck
