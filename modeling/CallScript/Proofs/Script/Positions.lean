import CallScript.Proofs.Script.Arguments
import CallScript.Proofs.Script.Joining
import CallScript.Proofs.Script.Layout
import CallScript.Script.Diagnostic

/-! # Where faults are

The position of a fault is a place in the script: there is such a line, it is that long, and what the
fault is about stands there.

* **`StandsAt`** says that a text stands at a column of a line.
* **`Cause.Cites`** says that what a cause is about stands at a column.
* **`Line.isReal_of_emission`**: the faults of a line are real.
* **`compile_error_located`**: so are those of a script, and its diagnostics show them. -/

namespace CallScript.Script

open Text

/-! ## Texts at columns -/

/-- A text **stands at** a column of a line when the text before it has one byte fewer than the
column says. -/
def StandsAt (line : List Char) (column : Nat) (text : List Char) : Prop :=
  ∃ before after, line = before ++ text ++ after ∧ column = byteLength before + 1

/-- Where a text stands, its first character stands. -/
theorem StandsAt.first {line text : List Char} {column : Nat} {c : Char}
    (h : StandsAt line column (c :: text)) : StandsAt line column [c] := by
  obtain ⟨before, after, rfl, hcolumn⟩ := h
  exact ⟨before, text ++ after, by simp, hcolumn⟩

/-- Where a word stands, there is a character that is not blank. -/
theorem StandsAt.exists_first {line word : List Char} {column : Nat} (h : StandsAt line column word)
    (hword : IsWord word) : ∃ c, isBlank c = false ∧ StandsAt line column [c] := by
  obtain ⟨c, others, rfl⟩ := List.exists_cons_of_ne_nil hword.1
  exact ⟨c, hword.2 c List.mem_cons_self, h.first⟩

/-- A column at which a character stands lies in the line. -/
theorem StandsAt.column_le {line : List Char} {column : Nat} {c : Char}
    (h : StandsAt line column [c]) : 1 ≤ column ∧ column ≤ byteLength line := by
  obtain ⟨before, after, rfl, rfl⟩ := h
  have hsize : 0 < c.utf8Size := c.utf8Size_pos
  simp only [byteLength_append, byteLength_cons, byteLength_nil]
  omega

/-- Every token stands at its column. -/
theorem standsAt_of_mem_tokens (front : List Char) {text : List Char} {token : Token}
    (h : token ∈ tokens (byteLength front) text) :
    StandsAt (front ++ text) token.column token.text.toList := by
  obtain ⟨words, hspaced⟩ := exists_spaced text
  induction hspaced generalizing front with
  | gap hgap => simp [tokens_of_isGap hgap] at h
  | @word gap word rest words hgap hword hend _ ih =>
    rw [tokens_append_word hgap hword hend] at h
    rcases List.mem_cons.1 h with rfl | hmem
    · exact ⟨front ++ gap, rest, by simp, by simp⟩
    · -- The other tokens come after the word, with all that is before it in front.
      have hfront : byteLength front + byteLength gap + byteLength word =
          byteLength (front ++ gap ++ word) := by rw [byteLength_append, byteLength_append]
      rw [hfront] at hmem
      simpa using ih (front ++ gap ++ word) hmem

namespace Layout

/-- The signature of a layout stands at its column. -/
theorem standsAt_signature (layout : Layout) :
    StandsAt layout.text layout.signatureColumn layout.written.signature := by
  have hmem : ⟨String.ofList layout.written.signature, layout.signatureColumn⟩ ∈
      tokens (byteLength (labelFront layout.label)) layout.body := by
    rw [layout.tokens_body]
    simp
  have hstands := standsAt_of_mem_tokens _ hmem
  rw [String.toList_ofList] at hstands
  exact hstands

/-- The arguments of a layout are words and stand at their columns. -/
theorem standsAt_argument {layout : Layout} {token : Token} (h : token ∈ layout.argumentTokens) :
    StandsAt layout.text token.column token.text.toList ∧ IsWord token.text.toList := by
  have hmem : token ∈ tokens (byteLength (labelFront layout.label)) layout.body := by
    rw [layout.tokens_body]
    simp [h]
  exact ⟨standsAt_of_mem_tokens _ hmem, isWord_of_mem_tokens hmem⟩

end Layout

/-! ## Faults of lines -/

/-- A cause **cites** what stands at a column: the text that it carries, or else the signature, or the
argument whose tag it carries. -/
def Cause.Cites (line : List Char) (column : Nat) : Cause → Prop
  | .malformedLine text => StandsAt line column text.toList
  | .invalidAddress token => StandsAt line column token.toList
  | .invalidSignature token => StandsAt line column token.toList
  | .invalidNumber token _ => StandsAt line column token.toList
  | .invalidBytes32 token _ => StandsAt line column token.toList
  | .argumentCount _ _ | .payloadTooLong _ =>
    ∃ layout : Layout, layout.text = line ∧ column = layout.signatureColumn ∧
      StandsAt line column layout.written.signature
  | .unsupportedType tag =>
    ∃ (layout : Layout) (index : Nat) (argument : Token), layout.text = line ∧
      layout.written.tags[index]? = some tag.toList ∧
      layout.argumentTokens[index]? = some argument ∧ column = argument.column ∧
      StandsAt line column argument.text.toList

/-- A fault is **real** when its cause cites what stands at its column, and the character there is not
blank. -/
structure Fault.IsReal (line : List Char) (fault : Fault) : Prop where
  /-- What the cause is about stands at the column. -/
  cites : fault.cause.Cites line fault.column
  /-- A character that is not blank stands at the column. -/
  visible : ∃ c, isBlank c = false ∧ StandsAt line fault.column [c]

/-- The faults that an instruction is found to have are real. -/
theorem Instruction.isReal_of_record {instruction : Instruction} {layout : Layout} {fault : Fault}
    (hreads : instruction.ReadsAt layout) (h : instruction.record = .error fault) :
    fault.IsReal layout.text := by
  have hsignature := layout.standsAt_signature
  have hvisible := hsignature.exists_first layout.written.isWord_signature
  rw [← hreads.signatureColumn] at hsignature hvisible
  unfold Instruction.record at h
  cases harguments : encodeArguments instruction.signature.params
      (instruction.arguments.map Token.text) with
  | ok words =>
    -- The length is attributed to the signature.
    simp only [harguments] at h
    split at h
    · obtain rfl := Except.error.inj h
      exact ⟨⟨layout, rfl, hreads.signatureColumn, hsignature⟩, hvisible⟩
    · simp at h
  | error found =>
    simp only [harguments, Except.error.injEq] at h
    subst h
    rcases encodeArguments_eq_error harguments with rfl |
      ⟨index, cause, rfl, tag, token, htag, htoken, hfault⟩
    · exact ⟨⟨layout, rfl, hreads.signatureColumn, hsignature⟩, hvisible⟩
    · -- The argument with that index is the one at whose column the fault is.
      rw [List.getElem?_map] at htoken
      obtain ⟨argument, hargument, rfl⟩ := Option.map_eq_some_iff.1 htoken
      have hcolumn : instruction.columnOf (some index) = argument.column := by
        simp [Instruction.columnOf, hargument]
      rw [hreads.argumentTokens] at hargument
      obtain ⟨hstands, hword⟩ := Layout.standsAt_argument (List.mem_of_getElem? hargument)
      rw [hcolumn]
      refine ⟨?_, hstands.exists_first hword⟩
      cases hfault with
      | unsupportedType =>
        refine ⟨layout, index, argument, rfl, ?_, hargument, rfl, hstands⟩
        rw [← hreads.map_params, List.getElem?_map, htag]
        rfl
      | invalidAddress => exact hstands
      | invalidNumber => exact hstands
      | invalidBytes32 => exact hstands

/-- Tokens that are no instruction have a fault in the first or in the second of them. -/
theorem Instruction.ofTokens_eq_error {label : Option String} {address signature : Token}
    {arguments : List Token} {fault : Fault}
    (h : ofTokens label address signature arguments = .error fault) :
    fault = ⟨address.column, .invalidAddress address.text⟩ ∨
      fault = ⟨signature.column, .invalidSignature signature.text⟩ := by
  unfold ofTokens at h
  cases haddress : Address.parse? address.text with
  | none =>
    rw [haddress] at h
    exact .inl (Except.error.inj h).symm
  | some target =>
    rw [haddress] at h
    cases hsignature : Signature.parse? signature.text with
    | none =>
      rw [hsignature] at h
      exact .inr (Except.error.inj h).symm
    | some parsed => simp [hsignature] at h

namespace Line

/-- A line that cannot be read has something on it that is no instruction. -/
theorem parse_eq_error {raw : String} {fault : Fault} (h : Line.parse raw = .error fault) :
    trim raw.toList ≠ [] ∧
      Instruction.parse (byteLength (raw.toList.takeWhile isBlank)) (trim raw.toList) =
        .error fault := by
  unfold Line.parse at h
  split at h
  · simp at h
  · simp at h
  · next hne _ =>
    refine ⟨hne, ?_⟩
    cases hparse : Instruction.parse (byteLength (raw.toList.takeWhile isBlank))
        (trim raw.toList) with
    | error found => simpa [hparse, Except.map] using h
    | ok instruction => simp [hparse, Except.map] at h

/-- The trimmed line stands at the first column without a blank. -/
theorem standsAt_trim {line : List Char} (h : trim line ≠ []) :
    StandsAt line (byteLength (line.takeWhile isBlank) + 1) (trim line) ∧
      ∃ c, isBlank c = false ∧
        StandsAt line (byteLength (line.takeWhile isBlank) + 1) [c] := by
  obtain ⟨trail, -, hline⟩ := exists_gap_trim line
  have hstands : StandsAt line (byteLength (line.takeWhile isBlank) + 1) (trim line) :=
    ⟨line.takeWhile isBlank, trail, hline, rfl⟩
  obtain ⟨c, rest, hcons⟩ := List.exists_cons_of_ne_nil h
  have hc : isBlank c = false := isBlank_eq_false_of_trimStart ((trimStart_trim line).trans hcons)
  refine ⟨hstands, c, hc, ?_⟩
  rw [hcons] at hstands
  exact hstands.first

/-- The faults with which a line cannot be read are real. -/
theorem isReal_of_parse {raw : String} {fault : Fault} (h : Line.parse raw = .error fault) :
    fault.IsReal raw.toList := by
  obtain ⟨hne, hparse⟩ := parse_eq_error h
  obtain ⟨label, rest, hline, -, htokens⟩ := exists_tokens_labelAndBody raw.toList
  rw [Instruction.parse_eq, htokens] at hparse
  split at hparse
  · next address signature arguments hall =>
    -- The fault is in a token, and tokens are words that stand at their columns.
    have htoken : ∀ token ∈ address :: signature :: arguments,
        StandsAt raw.toList token.column token.text.toList ∧ IsWord token.text.toList := by
      intro token hmem
      rw [← hall] at hmem
      rw [hline]
      exact ⟨standsAt_of_mem_tokens _ hmem, isWord_of_mem_tokens hmem⟩
    rcases Instruction.ofTokens_eq_error hparse with rfl | rfl
    · obtain ⟨hstands, hword⟩ := htoken address (by simp)
      exact ⟨hstands, hstands.exists_first hword⟩
    · obtain ⟨hstands, hword⟩ := htoken signature (by simp)
      exact ⟨hstands, hstands.exists_first hword⟩
  · obtain rfl := Except.error.inj hparse
    obtain ⟨hstands, hvisible⟩ := standsAt_trim hne
    refine ⟨?_, hvisible⟩
    rw [Cause.Cites, String.toList_ofList]
    exact hstands

/-- The faults of a line are real. -/
theorem isReal_of_emission {raw : String} {fault : Fault} (h : emission raw = .error fault) :
    fault.IsReal raw.toList := by
  unfold emission at h
  cases hparse : Line.parse raw with
  | error found =>
    rw [hparse] at h
    obtain rfl := Except.error.inj h
    exact isReal_of_parse hparse
  | ok line =>
    rw [hparse] at h
    cases line with
    | blank => simp at h
    | comment => simp at h
    | instruction instruction =>
      obtain ⟨layout, htext, hreads⟩ := exists_layout_of_parse hparse
      cases hrecord : instruction.record with
      | ok record => simp [hrecord, Except.map] at h
      | error found =>
        obtain rfl : found = fault := by simpa [hrecord, Except.map] using h
        rw [← htext]
        exact Instruction.isReal_of_record hreads hrecord

end Line

/-! ## Faults of scripts -/

/-- Compiling lines stops at a line with a fault, and reports that fault with the line's number. -/
theorem Draft.exists_fault_of_addLines {draft : Draft} {lines : List (Nat × String)}
    {error : ScriptError} (h : (draft.addLines lines).1 = .error error) :
    ∃ number raw fault, (number, raw) ∈ lines ∧ emission raw = .error fault ∧
      error = fault.atLine number := by
  induction lines generalizing draft with
  | nil => simp at h
  | cons line lines ih =>
    obtain ⟨number, raw⟩ := line
    rw [addLines_cons] at h
    cases hemission : emission raw with
    | error fault =>
      rw [hemission] at h
      exact ⟨number, raw, fault, List.mem_cons_self, hemission, (Except.error.inj h).symm⟩
    | ok emitted =>
      rw [hemission] at h
      obtain ⟨number', raw', fault, hmem, hfault, herror⟩ := ih h
      exact ⟨number', raw', fault, List.mem_cons_of_mem _ hmem, hfault, herror⟩

/-- The number of a line is one more than the number of lines before it. -/
theorem getElem?_of_mem_numberedLines {source raw : String} {number : Nat}
    (h : (number, raw) ∈ numberedLines source) :
    1 ≤ number ∧ (splitLines source)[number - 1]? = some raw := by
  obtain ⟨index, hlt, hline⟩ := List.getElem_of_mem h
  simp only [numberedLines, List.getElem_mapIdx, Prod.mk.injEq] at hline
  obtain ⟨rfl, rfl⟩ := hline
  exact ⟨Nat.le_add_left 1 index, by simp⟩

/-- The lines of a script are the pieces between its newlines. -/
theorem getElem?_splitOn_of_splitLines {source raw : String} {index : Nat}
    (h : (splitLines source)[index]? = some raw) :
    (source.toList.splitOn '\n')[index]? = some raw.toList := by
  rw [splitLines, List.getElem?_map] at h
  obtain ⟨line, hline, rfl⟩ := Option.map_eq_some_iff.1 h
  rw [hline, String.toList_ofList]

/-- A script that does not compile has a line with a fault, which is reported. -/
theorem exists_fault_of_compile {source : String} {error : ScriptError}
    (h : compile source = .error error) :
    ∃ raw fault, 1 ≤ error.line ∧ (splitLines source)[error.line - 1]? = some raw ∧
      emission raw = .error fault ∧ error = fault.atLine error.line := by
  obtain ⟨number, raw, fault, hmem, hfault, rfl⟩ :=
    Draft.exists_fault_of_addLines (compile_eq_error_iff.1 h)
  obtain ⟨hpos, hraw⟩ := getElem?_of_mem_numberedLines hmem
  exact ⟨raw, fault, hpos, hraw, hfault, rfl⟩

/-! ## Diagnostics -/

namespace Diagnostic

/-- A line is shown without its last carriage returns. -/
theorem exists_replicate_shown (line : String) :
    ∃ count, line.toList = (shown line).toList ++ List.replicate count '\r' ∧
      (shown line).toList.getLast? ≠ some '\r' := by
  have hshown : (shown line).toList = line.toList.rdropWhile (· = '\r') := String.toList_ofList
  have hreturns : ∀ c ∈ line.toList.rtakeWhile (· = '\r'), c = '\r' := by
    intro c hmem
    simpa using List.mem_rtakeWhile_imp hmem
  refine ⟨(line.toList.rtakeWhile (· = '\r')).length, ?_, ?_⟩
  · rw [hshown, ← List.eq_replicate_of_mem hreturns, List.rdropWhile_append_rtakeWhile]
  · intro hlast
    rw [hshown] at hlast
    have hne : line.toList.rdropWhile (· = '\r') ≠ [] := by
      intro hnil
      simp [hnil] at hlast
    rw [List.getLast?_eq_some_getLast hne] at hlast
    simpa [Option.some.inj hlast] using List.rdropWhile_last_not _ _ hne

/-- What stands on a line and is not blank stands on the line that is shown. -/
theorem standsAt_shown {line : String} {column : Nat} {c : Char} (hc : isBlank c = false)
    (h : StandsAt line.toList column [c]) : StandsAt (shown line).toList column [c] := by
  obtain ⟨before, after, hline, hcolumn⟩ := h
  have hreturn : decide (c = '\r') = false := by
    refine decide_eq_false ?_
    rintro rfl
    exact absurd hc (by decide)
  have hshown : (shown line).toList = line.toList.rdropWhile (· = '\r') := String.toList_ofList
  refine ⟨before, after.rdropWhile (· = '\r'), ?_, hcolumn⟩
  rw [hshown, hline, List.append_assoc, List.singleton_append, rdropWhile_append_cons before hreturn,
    List.append_assoc, List.singleton_append]

end Diagnostic

/-! ## Positions in a script -/

namespace ScriptError

/-- A script error is **located** on a line of a source: the source has a line with that number, the
column lies in it, the character there is not blank, and the cause cites what stands there. -/
structure IsLocated (source : String) (error : ScriptError) (raw : List Char) : Prop where
  /-- Lines are numbered from 1. -/
  line_pos : 1 ≤ error.line
  /-- The source has so many lines. -/
  line_le : error.line ≤ (source.toList.splitOn '\n').length
  /-- The line is the one with the number of the error. -/
  line_eq : (source.toList.splitOn '\n')[error.line - 1]? = some raw
  /-- Columns are numbered from 1. -/
  column_pos : 1 ≤ error.column
  /-- The line has so many bytes. -/
  column_le : error.column ≤ byteLength raw
  /-- A character that is not blank stands at the column. -/
  visible : ∃ c, isBlank c = false ∧ StandsAt raw error.column [c]
  /-- What the cause is about stands at the column. -/
  cites : error.cause.Cites raw error.column

/-- A script error is **shown** with a line: whatever its wording, the report has the text of the
line without the carriage returns at its end, and the column lies in that text. -/
def IsShown (source : String) (error : ScriptError) (raw : List Char) : Prop :=
  ∃ (text : String) (count : Nat), raw = text.toList ++ List.replicate count '\r' ∧
    text.toList.getLast? ≠ some '\r' ∧ error.column ≤ byteLength text.toList ∧
    ∀ file message, Diagnostic.render file source error.line error.column message =
      s!"error: {message}\n --> {file}:{error.line}:{error.column}\n" ++
        (s!"  |\n{Diagnostic.gutter error.line} | {text}" ++ "\n  | " ++
          String.ofList (List.replicate (error.column - 1) ' ') ++ "^\n")

end ScriptError

/-- **The position of a fault is a place in the script.** The error of a script that does not compile
is located on a line of the script, and its diagnostic shows that line. In every line, the tokens are
taken from a text that stands as many bytes into the line as are counted for it. A fault of the
arguments that is about one of them is about one that is there. -/
theorem compile_error_located :
    (∀ (source : String) (error : ScriptError), compile source = .error error →
      ∃ raw, error.IsLocated source raw ∧ error.IsShown source raw) ∧
    (∀ line : List Char, ∃ before after, line = before ++ (labelAndBody (trim line)).2 ++ after ∧
      byteLength (line.takeWhile isBlank) +
        (byteLength (trim line) - byteLength (labelAndBody (trim line)).2) = byteLength before) ∧
    (∀ (instruction : Instruction) (fault : ArgumentsFault) (index : Nat),
      encodeArguments instruction.signature.params (instruction.arguments.map Token.text) =
        .error fault → fault.index = some index → index < instruction.arguments.length) := by
  refine ⟨?_, ?_, ?_⟩
  · intro source error h
    obtain ⟨raw, fault, hpos, hraw, hfault, herror⟩ := exists_fault_of_compile h
    have hreal : (Fault.mk error.column error.cause).IsReal raw.toList := by
      rw [herror]
      exact Line.isReal_of_emission hfault
    have hline := getElem?_splitOn_of_splitLines hraw
    obtain ⟨c, hc, hstands⟩ := hreal.visible
    refine ⟨raw.toList, ⟨hpos, ?_, hline, hstands.column_le.1, hstands.column_le.2, hreal.visible,
      hreal.cites⟩, ?_⟩
    · have hlt := (List.getElem?_eq_some_iff.1 hline).1
      omega
    · obtain ⟨count, hcount, hlast⟩ := Diagnostic.exists_replicate_shown raw
      refine ⟨Diagnostic.shown raw, count, hcount, hlast,
        (Diagnostic.standsAt_shown hc hstands).column_le.2, ?_⟩
      intro file message
      simp only [Diagnostic.render, hraw, Diagnostic.excerpt]
      rfl
  · intro line
    obtain ⟨label, gap, trail, -, -, hline, -, hoffset⟩ := exists_labelFront line
    exact ⟨labelFront label ++ gap, trail, by simpa using hline, hoffset⟩
  · intro instruction fault index hfault hindex
    have hlt := index_lt_of_encodeArguments hfault hindex
    rwa [List.length_map] at hlt

/-- A script whose fault is a character of two bytes, after another one, before a carriage return. -/
def faultyScript : String :=
  "# note\n\u00A0x = 0xAb00000000000000000000000000000000000001 f(uint) ñ\r"

/-- The fault of the script is located and shown, and the argument that it is about is there. -/
theorem faultyScript_located :
    compile faultyScript = .error ⟨2, 58, .invalidNumber "ñ" (.invalidDigit 'ñ')⟩ ∧
      (∃ raw,
        (ScriptError.mk 2 58 (.invalidNumber "ñ" (.invalidDigit 'ñ'))).IsLocated faultyScript raw ∧
        (ScriptError.mk 2 58 (.invalidNumber "ñ" (.invalidDigit 'ñ'))).IsShown faultyScript raw) ∧
      encodeArguments ["uint"] ["ñ"] =
        .error ⟨some 0, .invalidNumber "ñ" (.invalidDigit 'ñ')⟩ ∧ 0 < [Token.mk "ñ" 58].length := by
  have hcompile : compile faultyScript = .error ⟨2, 58, .invalidNumber "ñ" (.invalidDigit 'ñ')⟩ := by
    decide +kernel
  have hencode : encodeArguments ["uint"] ["ñ"] =
      .error ⟨some 0, .invalidNumber "ñ" (.invalidDigit 'ñ')⟩ := by decide +kernel
  exact ⟨hcompile, compile_error_located.1 _ _ hcompile, hencode, compile_error_located.2.2
    ⟨none, ⟨Block.fill 20 0⟩, ⟨"f", ["uint"]⟩, 50, [⟨"ñ", 58⟩]⟩ _ 0 hencode rfl⟩

end CallScript.Script
