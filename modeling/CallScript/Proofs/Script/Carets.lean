import CallScript.Proofs.Script.Positions

/-! # Where the caret of a report stands

The report of a fault ends in two lines: the line of the script behind a gutter with its number, and
a caret behind a gutter of its own.

* **`Diagnostic.reportLines`** are the lines of a report;
  **`Diagnostic.reportLines_render`** says what they are.
* **`Diagnostic.caretPosition?`** and **`Diagnostic.columnPosition?`** are the places of the caret
  and of a column of the script's line, each in its line of the report.
* **`caret_left_of_column`**: the caret stands to the left of the fault, by three characters on the
  lines up to 9999. -/

namespace CallScript.Script

open Text

/-! ## Sources in printable characters -/

/-- The **printable** characters of ASCII, from the space to the tilde. -/
def IsPrintable (c : Char) : Prop :=
  ' ' ≤ c ∧ c ≤ '~'

instance (c : Char) : Decidable (IsPrintable c) :=
  inferInstanceAs (Decidable (' ' ≤ c ∧ c ≤ '~'))

/-- A printable character has one byte. -/
theorem utf8Size_of_isPrintable {c : Char} (h : IsPrintable c) : c.utf8Size = 1 := by
  rw [Char.utf8Size_eq_one_iff]
  exact UInt32.le_trans h.2 (by decide)

/-- The bytes of printable text are as many as its characters. -/
theorem byteLength_of_isPrintable {text : List Char} (h : ∀ c ∈ text, IsPrintable c) :
    byteLength text = text.length := by
  induction text with
  | nil => rfl
  | cons c text ih =>
    obtain ⟨hc, htext⟩ := List.forall_mem_cons.1 h
    rw [byteLength_cons, utf8Size_of_isPrintable hc, ih htext, List.length_cons, Nat.add_comm]

/-- The lines of a source in printable characters and newlines are printable. -/
theorem isPrintable_of_mem_splitOn {source line : List Char}
    (h : ∀ c ∈ source, IsPrintable c ∨ c = '\n') (hline : line ∈ source.splitOn '\n') :
    ∀ c ∈ line, IsPrintable c := by
  intro c hmem
  obtain ⟨hsource, hne⟩ := mem_and_ne_of_mem_splitOn hline hmem
  exact (h c hsource).resolve_right hne

/-- Where a character stands in printable text is its number in the text. -/
theorem StandsAt.getElem?_of_isPrintable {text : List Char} {column : Nat} {c : Char}
    (h : StandsAt text column [c]) (hprintable : ∀ c ∈ text, IsPrintable c) :
    text[column - 1]? = some c := by
  obtain ⟨before, after, rfl, rfl⟩ := h
  have hbefore : byteLength before = before.length :=
    byteLength_of_isPrintable fun c hmem => hprintable c (by simp [hmem])
  simp [hbefore]

namespace Diagnostic

/-- A printable line is shown as it is. -/
theorem shown_of_isPrintable {line : String} (h : ∀ c ∈ line.toList, IsPrintable c) :
    shown line = line := by
  obtain ⟨count, hline, -⟩ := exists_replicate_shown line
  have hcount : count = 0 := by
    by_contra hne
    have hreturn : '\r' ∈ line.toList := by
      rw [hline]
      simp [hne]
    exact absurd (h _ hreturn) (by decide)
  rw [hcount, List.replicate_zero, List.append_nil] at hline
  exact (String.toList_inj.1 hline).symm

/-! ## The lines of a report -/

/-- The **lines of a report**. Each of them is ended by a newline. -/
def reportLines (report : String) : List (List Char) :=
  (report.toList.splitOn '\n').dropLast

/-- A line as a report shows it, behind its number. -/
def numberedLine (line : Nat) (raw : String) : List Char :=
  (gutter line).toList ++ [' ', '|', ' '] ++ (shown raw).toList

/-- The line with the caret, which comes after spaces up to its column. -/
def caretLine (column : Nat) : List Char :=
  [' ', ' ', '|', ' '] ++ List.replicate (column - 1) ' ' ++ ['^']

/-- A number in decimal has no newline. -/
theorem newline_notMem_toDigits (number : Nat) : '\n' ∉ Nat.toDigits 10 number := by
  intro hmem
  exact absurd (Nat.isDigit_of_mem_toDigits (by decide) (by decide) hmem) (by decide)

/-- A line is shown on one line. -/
theorem newline_notMem_numberedLine {raw : String} (h : '\n' ∉ (shown raw).toList) (line : Nat) :
    '\n' ∉ numberedLine line raw := by
  simp [numberedLine, gutter, List.leftpad, newline_notMem_toDigits, h]

/-- So is the caret. -/
theorem newline_notMem_caretLine (column : Nat) : '\n' ∉ caretLine column := by
  simp [caretLine]

/-- **The lines of a report** about a line that the source has. -/
theorem reportLines_render {file source message : String} {line column : Nat} {raw : String}
    (hraw : (splitLines source)[line - 1]? = some raw) (hfile : '\n' ∉ file.toList)
    (hmessage : '\n' ∉ message.toList) (hshown : '\n' ∉ (shown raw).toList) :
    reportLines (render file source line column message) =
      [s!"error: {message}".toList, s!" --> {file}:{line}:{column}".toList, "  |".toList,
        numberedLine line raw, caretLine column] := by
  have htext (text : String) : toString text = text := rfl
  have hreport : (render file source line column message).toList =
      ['\n'].intercalate [s!"error: {message}".toList, s!" --> {file}:{line}:{column}".toList,
        "  |".toList, numberedLine line raw, caretLine column, []] := by
    simp [render, hraw, excerpt, numberedLine, caretLine, List.intercalate, htext]
  rw [reportLines, hreport, List.splitOn_intercalate]
  · rfl
  · simp [htext, hfile, hmessage, newline_notMem_toDigits,
      newline_notMem_numberedLine hshown line, newline_notMem_caretLine]
  · exact List.cons_ne_nil _ _

/-! ## Positions in a report -/

/-- The **position of the caret**: how many characters stand before it in the last line. -/
def caretPosition? (report : String) : Option Nat :=
  (reportLines report).getLast?.bind (List.idxOf? '^')

/-- The **position of a column** of a line in a report whose line above the last one ends in that
line: how many characters stand before that column there. -/
def columnPosition? (report : String) (raw : List Char) (column : Nat) : Option Nat :=
  (reportLines report).dropLast.getLast?.bind fun above =>
    if raw.isSuffixOf above then some (above.length - raw.length + (column - 1)) else none

/-- The caret stands behind four characters and the spaces up to its column. -/
theorem idxOf?_caretLine (column : Nat) :
    (caretLine column).idxOf? '^' = some (4 + (column - 1)) := by
  have hnone : ([' ', ' ', '|', ' '] ++ List.replicate (column - 1) ' ').findIdx? (· == '^') =
      none := List.idxOf?_eq_none_iff.2 (by simp)
  rw [caretLine, List.idxOf?, List.findIdx?_append, hnone, Option.none_or, List.length_append,
    List.length_replicate]
  show some (0 + (4 + (column - 1))) = some (4 + (column - 1))
  rw [Nat.zero_add]

/-- A number takes four characters, or more if it has more digits. -/
theorem length_gutter (number : Nat) :
    (gutter number).toList.length = max 4 (toString number).length := by
  rw [gutter, String.toList_ofList, List.length_leftpad, Nat.toString_eq_ofList_toDigits,
    String.length_ofList]

/-- Up to 9999 a number takes four characters. -/
theorem length_toString_le {number : Nat} (h : number ≤ 9999) : (toString number).length ≤ 4 := by
  rw [Nat.toString_eq_ofList_toDigits, String.length_ofList,
    Nat.length_toDigits_le_iff (by decide) (by decide)]
  omega

/-- A line is shown behind its number and three more characters. -/
theorem length_numberedLine (line : Nat) (raw : String) :
    (numberedLine line raw).length =
      max 4 (toString line).length + 3 + (shown raw).toList.length := by
  rw [numberedLine, List.length_append, List.length_append, length_gutter]
  rfl

section Render

variable {file source message raw : String} {line : Nat}
  (hraw : (splitLines source)[line - 1]? = some raw) (hfile : '\n' ∉ file.toList)
  (hmessage : '\n' ∉ message.toList) (hshown : '\n' ∉ (shown raw).toList) (column : Nat)

include hraw hfile hmessage hshown

/-- The position of the caret in a report. -/
theorem caretPosition?_render :
    caretPosition? (render file source line column message) = some (4 + (column - 1)) := by
  have hlast : (reportLines (render file source line column message)).getLast? =
      some (caretLine column) := by
    rw [reportLines_render hraw hfile hmessage hshown]
    rfl
  rw [caretPosition?, hlast, Option.bind_some, idxOf?_caretLine]

/-- The position of a column of the line in a report. -/
theorem columnPosition?_render :
    columnPosition? (render file source line column message) (shown raw).toList column =
      some (max 4 (toString line).length + 3 + (column - 1)) := by
  have habove : (reportLines (render file source line column message)).dropLast.getLast? =
      some (numberedLine line raw) := by
    rw [reportLines_render hraw hfile hmessage hshown]
    rfl
  have hsuffix : (shown raw).toList.isSuffixOf (numberedLine line raw) = true :=
    List.isSuffixOf_iff_suffix.2 (List.suffix_append _ _)
  rw [columnPosition?, habove, Option.bind_some, if_pos hsuffix, length_numberedLine,
    Nat.add_sub_cancel]

end Render

end Diagnostic

/-- **The caret stands to the left of the fault.** In the report about the error of a source in
printable characters, the character at the column of the error is not blank, and the caret stands
before the place below it: by three characters on the lines up to 9999, whose number takes four, and
by one more for every further digit. The report can have any wording that stays on one line. -/
theorem caret_left_of_column {file source message : String} {error : ScriptError}
    (hsource : ∀ c ∈ source.toList, IsPrintable c ∨ c = '\n')
    (herror : compile source = .error error) (hfile : '\n' ∉ file.toList)
    (hmessage : '\n' ∉ message.toList) :
    let report := Diagnostic.render file source error.line error.column message
    ∃ (raw : List Char) (c : Char) (caret : Nat),
      (source.toList.splitOn '\n')[error.line - 1]? = some raw ∧
      1 ≤ error.column ∧ raw[error.column - 1]? = some c ∧ isBlank c = false ∧
      Diagnostic.caretPosition? report = some caret ∧
      Diagnostic.columnPosition? report raw error.column =
        some (caret + (max 4 (toString error.line).length - 1)) ∧
      (error.line ≤ 9999 →
        Diagnostic.columnPosition? report raw error.column = some (caret + 3)) := by
  intro report
  obtain ⟨raw, fault, -, hraw, hfault, hat⟩ := exists_fault_of_compile herror
  have hline := getElem?_splitOn_of_splitLines hraw
  have hprintable := isPrintable_of_mem_splitOn hsource (List.mem_of_getElem? hline)
  have hshown := Diagnostic.shown_of_isPrintable hprintable
  have hnewline : '\n' ∉ (Diagnostic.shown raw).toList := by
    rw [hshown]
    exact fun hmem => (mem_and_ne_of_mem_splitOn (List.mem_of_getElem? hline) hmem).2 rfl
  obtain ⟨c, hc, hstands⟩ := (Line.isReal_of_emission hfault).visible
  have hcolumn : fault.column = error.column := by rw [hat]; rfl
  rw [hcolumn] at hstands
  have hcaret := Diagnostic.caretPosition?_render hraw hfile hmessage hnewline error.column
  have hplace := Diagnostic.columnPosition?_render hraw hfile hmessage hnewline error.column
  rw [hshown] at hplace
  have hoffset : Diagnostic.columnPosition? report raw.toList error.column =
      some (4 + (error.column - 1) + (max 4 (toString error.line).length - 1)) :=
    hplace.trans (congrArg some (by omega))
  refine ⟨raw.toList, c, _, hline, hstands.column_le.1,
    hstands.getElem?_of_isPrintable hprintable, hc, hcaret, hoffset, ?_⟩
  intro hle
  rwa [Nat.max_eq_left (Diagnostic.length_toString_le hle)] at hoffset

/-- A token on the second line that is indented by two spaces. -/
def indentedToken : String := "# note\n  x"

/-- Its caret is three characters off. -/
theorem indentedToken_caret :
    (∀ c ∈ indentedToken.toList, IsPrintable c ∨ c = '\n') ∧
      compile indentedToken = .error ⟨2, 3, .malformedLine "x"⟩ ∧ '\n' ∉ "a.call".toList ∧
      '\n' ∉ "unknown".toList ∧
      ∃ raw caret, (indentedToken.toList.splitOn '\n')[2 - 1]? = some raw ∧
        Diagnostic.caretPosition? (Diagnostic.render "a.call" indentedToken 2 3 "unknown") =
          some caret ∧
        Diagnostic.columnPosition? (Diagnostic.render "a.call" indentedToken 2 3 "unknown") raw 3 =
          some (caret + 3) := by
  have hsource : ∀ c ∈ indentedToken.toList, IsPrintable c ∨ c = '\n' := by
    have hall : indentedToken.toList.all (fun c => decide (IsPrintable c ∨ c = '\n')) = true := by
      decide
    exact fun c hmem => of_decide_eq_true (List.all_eq_true.1 hall c hmem)
  have herror : compile indentedToken = .error ⟨2, 3, .malformedLine "x"⟩ := by decide +kernel
  have hfile : '\n' ∉ "a.call".toList := by decide
  have hmessage : '\n' ∉ "unknown".toList := by decide
  obtain ⟨raw, c, caret, hline, -, -, -, hcaret, -, hplace⟩ :=
    caret_left_of_column hsource herror hfile hmessage
  exact ⟨hsource, herror, hfile, hmessage, raw, caret, hline, hcaret, hplace (by decide)⟩

/-- The report about a line with the single token `x`. -/
def loneTokenReport : String :=
  (ScriptError.mk 1 1 (.malformedLine "x")).diagnostic "input.call" "x"

/-- **The caret is not below the token.** The token stands behind seven characters and the caret
behind four. -/
theorem loneToken_caret_misplaced :
    compile "x" = .error ⟨1, 1, .malformedLine "x"⟩ ∧
      loneTokenReport =
        "error: invalid syntax: x\n --> input.call:1:1\n  |\n   1 | x\n  | ^\n" ∧
      Diagnostic.caretPosition? loneTokenReport = some 4 ∧
      Diagnostic.columnPosition? loneTokenReport ['x'] 1 = some 7 := by
  refine ⟨?_, ?_, ?_, ?_⟩
  all_goals decide +kernel

end CallScript.Script
