import CallScript.Proofs.Script.Grammar

/-! # Layouts of instruction lines

An instruction line character by character: what is written on it and the blanks around that. The
layout of a line says where each of its words stands.

* **`Layout`** is an instruction as it is set out on a line, and **`Layout.text`** is that line.
* **`Layout.text_injective`**: a line has at most one layout.
* **`Instruction.ReadsAt`** relates an instruction to a layout, columns included.
* **`Line.parse_grammar`**: the lines that are read as instructions are those with a layout. -/

namespace CallScript.Script

open Text

/-! ## Words set apart by blanks -/

/-- A **piece** of a line: a word and the blanks before it, of which there is at least one. -/
@[ext] structure Piece where
  /-- The blanks before the word. -/
  gap : List Char
  /-- The word. -/
  word : List Char
  /-- There are only blanks before the word. -/
  isGap_gap : IsGap gap
  /-- The word is set apart from what comes before it. -/
  gap_ne_nil : gap ≠ []
  /-- The word is a word. -/
  isWord_word : IsWord word

/-- Pieces in a row, and a text after the last of them. -/
def spread : List Piece → List Char → List Char
  | [], trail => trail
  | piece :: pieces, trail => piece.gap ++ piece.word ++ spread pieces trail

/-- The tokens of pieces in a row that start `offset` bytes into their line. -/
def pieceTokens : Nat → List Piece → List Token
  | _, [] => []
  | offset, piece :: pieces =>
    ⟨String.ofList piece.word, offset + byteLength piece.gap + 1⟩ ::
      pieceTokens (offset + byteLength piece.gap + byteLength piece.word) pieces

/-- Pieces end the word before them. -/
theorem endsWord_spread (pieces : List Piece) {trail : List Char} (htrail : IsGap trail) :
    EndsWord (spread pieces trail) := by
  cases pieces with
  | nil => exact fun c hmem => htrail c (List.mem_of_mem_head? hmem)
  | cons piece pieces =>
    obtain ⟨blank, blanks, hgap⟩ := List.exists_cons_of_ne_nil piece.gap_ne_nil
    intro c hmem
    rw [spread, hgap] at hmem
    obtain rfl : blank = c := by simpa using hmem
    exact piece.isGap_gap blank (by simp [hgap])

/-- The words of pieces are spaced in their text. -/
theorem spaced_spread (pieces : List Piece) {trail : List Char} (htrail : IsGap trail) :
    Spaced (pieces.map Piece.word) (spread pieces trail) := by
  induction pieces with
  | nil => exact .gap htrail
  | cons piece pieces ih =>
    exact .word piece.isGap_gap piece.isWord_word (endsWord_spread pieces htrail) ih

/-- The tokens of the text of pieces are the tokens of the pieces. -/
theorem tokens_spread (pieces : List Piece) {trail : List Char} (htrail : IsGap trail)
    (offset : Nat) : tokens offset (spread pieces trail) = pieceTokens offset pieces := by
  induction pieces generalizing offset with
  | nil => exact tokens_of_isGap htrail offset
  | cons piece pieces ih =>
    rw [spread, tokens_append_word piece.isGap_gap piece.isWord_word (endsWord_spread pieces htrail),
      ih, pieceTokens]

/-- A text that ends a word is the text of pieces with the words that are spaced in it. -/
theorem Spaced.exists_pieces {words : List (List Char)} {text : List Char} (h : Spaced words text)
    (hend : EndsWord text) :
    ∃ pieces trail, IsGap trail ∧ spread pieces trail = text ∧ pieces.map Piece.word = words := by
  induction h with
  | @gap gap hgap => exact ⟨[], gap, hgap, rfl, rfl⟩
  | @word gap word rest words hgap hword hrest _ ih =>
    obtain ⟨pieces, trail, htrail, rfl, rfl⟩ := ih hrest
    -- Without a blank before it, the word would not end the one before.
    have hne : gap ≠ [] := by
      rintro rfl
      obtain ⟨c, others, rfl⟩ := List.exists_cons_of_ne_nil hword.1
      have hblank : isBlank c = true := hend c (by simp)
      simp [hword.2 c List.mem_cons_self] at hblank
    exact ⟨⟨gap, word, hgap, hne, hword⟩ :: pieces, trail, htrail, rfl, rfl⟩

/-- Pieces and the blanks after them are determined by their text. -/
theorem spread_inj {pieces pieces' : List Piece} {trail trail' : List Char} (htrail : IsGap trail)
    (htrail' : IsGap trail') (h : spread pieces trail = spread pieces' trail') :
    pieces = pieces' ∧ trail = trail' := by
  induction pieces generalizing pieces' with
  | nil =>
    -- Both texts have as many words, so that the other one has no piece either.
    have hwords := (spaced_spread [] htrail).unique (h ▸ spaced_spread pieces' htrail')
    obtain rfl : pieces' = [] := List.map_eq_nil_iff.1 hwords.symm
    exact ⟨rfl, h⟩
  | cons piece pieces ih =>
    have hwords := (spaced_spread (piece :: pieces) htrail).unique
      (h ▸ spaced_spread pieces' htrail')
    obtain ⟨piece', others, rfl, -, -⟩ := List.map_eq_cons_iff.1 hwords.symm
    obtain ⟨hgap, hword, hrest⟩ := append_word_inj piece.isGap_gap piece'.isGap_gap
      piece.isWord_word piece'.isWord_word (endsWord_spread pieces htrail)
      (endsWord_spread others htrail') h
    obtain ⟨rfl, rfl⟩ := ih hrest
    exact ⟨by rw [Piece.ext hgap hword], rfl⟩

/-! ## Layouts -/

/-- A **label as it is set out** in front of an instruction: a name between blanks, before an equals
sign. -/
@[ext] structure LabelText where
  /-- The blanks before the name. -/
  lead : List Char
  /-- The name. -/
  name : List Char
  /-- The blanks before the equals sign. -/
  gap : List Char
  /-- There are only blanks before the name. -/
  isGap_lead : IsGap lead
  /-- The name is a name. -/
  isName_name : isName name = true
  /-- There are only blanks between the name and the sign. -/
  isGap_gap : IsGap gap

/-- A label with its blanks and the equals sign. -/
def LabelText.text (label : LabelText) : List Char :=
  label.lead ++ label.name ++ label.gap ++ ['=']

/-- What stands before the instruction proper: the label, or nothing. -/
def labelFront (label : Option LabelText) : List Char :=
  label.elim [] LabelText.text

/-- The **layout** of an instruction line: everything that is written on it, with the blanks. -/
@[ext] structure Layout where
  /-- The label in front of the instruction, if there is one. -/
  label : Option LabelText
  /-- The blanks before the address. -/
  start : List Char
  /-- The digits of the address. -/
  digits : List Char
  /-- The blanks between the address and the signature. -/
  gap : List Char
  /-- The name of the function. -/
  name : List Char
  /-- What stands between the parentheses of the signature. -/
  list : List Char
  /-- The arguments, each with the blanks before it. -/
  arguments : List Piece
  /-- The blanks at the end of the line. -/
  trail : List Char
  /-- There are only blanks before the address. -/
  isGap_start : IsGap start
  /-- An address has 40 digits. -/
  length_digits : digits.length = 40
  /-- The digits of an address are hexadecimal. -/
  isHexDigit_digits : ∀ c ∈ digits, c.isHexDigit = true
  /-- There are only blanks before the signature. -/
  isGap_gap : IsGap gap
  /-- The signature is set apart from the address. -/
  gap_ne_nil : gap ≠ []
  /-- The function has a name. -/
  isName_name : isName name = true
  /-- There are neither blanks nor further parentheses between the parentheses. -/
  plain_list : ∀ c ∈ list, isBlank c = false ∧ c ≠ '(' ∧ c ≠ ')'
  /-- There are only blanks at the end. -/
  isGap_trail : IsGap trail

namespace InstructionText

/-- A written address is a word. -/
theorem isWord_address (written : InstructionText) : IsWord written.address := by
  refine ⟨List.cons_ne_nil _ _, List.forall_mem_cons.2 ⟨by decide, List.forall_mem_cons.2
    ⟨by decide, ?_⟩⟩⟩
  intro c hmem
  exact isBlank_of_isNameChar (isNameChar_of_isHexDigit (written.isHexDigit_digits c hmem))

/-- A written signature is a word. -/
theorem isWord_signature (written : InstructionText) : IsWord written.signature := by
  refine ⟨by simp [signature], ?_⟩
  intro c hmem
  simp only [signature, List.mem_append, List.mem_cons, List.not_mem_nil, or_false] at hmem
  rcases hmem with hname | rfl | hlist | rfl
  · exact (isWord_of_isName written.isName_name).2 c hname
  · decide
  · exact (written.plain_list c hlist).1
  · decide

end InstructionText

namespace Layout

/-- What is written on a line, without the blanks. -/
def written (layout : Layout) : InstructionText where
  label := layout.label.map LabelText.name
  digits := layout.digits
  name := layout.name
  list := layout.list
  arguments := layout.arguments.map Piece.word
  isName_label := by
    intro name hmem
    obtain ⟨label, -, rfl⟩ := Option.map_eq_some_iff.1 hmem
    exact label.isName_name
  length_digits := layout.length_digits
  isHexDigit_digits := layout.isHexDigit_digits
  isName_name := layout.isName_name
  plain_list := layout.plain_list

/-- The signature with the blanks before it. -/
def signaturePiece (layout : Layout) : Piece :=
  ⟨layout.gap, layout.written.signature, layout.isGap_gap, layout.gap_ne_nil,
    layout.written.isWord_signature⟩

/-- The line from the blanks before the address to its end. -/
def body (layout : Layout) : List Char :=
  layout.start ++ layout.written.address ++
    spread (layout.signaturePiece :: layout.arguments) layout.trail

/-- The line of a layout. -/
def text (layout : Layout) : List Char :=
  labelFront layout.label ++ layout.body

/-- The line up to its signature. -/
def beforeSignature (layout : Layout) : List Char :=
  labelFront layout.label ++ layout.start ++ layout.written.address ++ layout.gap

/-- The column of the signature. -/
def signatureColumn (layout : Layout) : Nat :=
  byteLength layout.beforeSignature + 1

/-- The tokens of the arguments. -/
def argumentTokens (layout : Layout) : List Token :=
  pieceTokens (byteLength (layout.beforeSignature ++ layout.written.signature)) layout.arguments

/-- The words of an instruction are spaced in the line after the label. -/
theorem spaced_body (layout : Layout) : Spaced layout.written.words layout.body :=
  .word layout.isGap_start layout.written.isWord_address (endsWord_spread _ layout.isGap_trail)
    (spaced_spread (layout.signaturePiece :: layout.arguments) layout.isGap_trail)

/-- What is written on a line is spelled by it. -/
theorem spells (layout : Layout) : layout.written.Spells layout.text := by
  cases hlabel : layout.label with
  | none =>
    have htext : layout.text = layout.body := by simp [text, labelFront, hlabel]
    rw [htext]
    exact .bare (by simp [written, hlabel]) layout.spaced_body
  | some label =>
    have htext : layout.text = label.lead ++ label.name ++ label.gap ++ '=' :: layout.body := by
      simp [text, labelFront, hlabel, LabelText.text]
    rw [htext]
    exact .labelled (by simp [written, hlabel]) label.isGap_lead label.isGap_gap layout.spaced_body

/-- The tokens of the line after the label: the address, the signature, and the arguments. -/
theorem tokens_body (layout : Layout) :
    tokens (byteLength (labelFront layout.label)) layout.body =
      ⟨String.ofList layout.written.address,
        byteLength (labelFront layout.label ++ layout.start) + 1⟩ ::
      ⟨String.ofList layout.written.signature, layout.signatureColumn⟩ ::
        layout.argumentTokens := by
  rw [body, tokens_append_word layout.isGap_start layout.written.isWord_address
    (endsWord_spread _ layout.isGap_trail), tokens_spread _ layout.isGap_trail, pieceTokens]
  simp only [signaturePiece, signatureColumn, argumentTokens, beforeSignature, byteLength_append]

/-! ## A line has one layout -/

/-- The names of the labels agree in layouts of the same line. -/
theorem labelName_of_text_eq {layout layout' : Layout} (h : layout.text = layout'.text) :
    layout.label.map LabelText.name = layout'.label.map LabelText.name := by
  have hlabel := layout.spells.labelAndBody_trim.1
  rw [h, layout'.spells.labelAndBody_trim.1] at hlabel
  exact hlabel.symm

/-- The labels and what follows them agree in layouts of the same line. -/
theorem label_of_text_eq {layout layout' : Layout} (h : layout.text = layout'.text) :
    layout.label = layout'.label ∧ layout.body = layout'.body := by
  have hname := labelName_of_text_eq h
  unfold text labelFront at h
  cases hlabel : layout.label with
  | none =>
    rw [hlabel] at hname h
    have hlabel' : layout'.label = none := Option.map_eq_none_iff.1 hname.symm
    rw [hlabel'] at h
    exact ⟨hlabel'.symm, h⟩
  | some label =>
    rw [hlabel] at hname h
    obtain ⟨label', hlabel', hsame⟩ := Option.map_eq_some_iff.1 hname.symm
    rw [hlabel'] at h
    simp only [Option.elim_some, LabelText.text, List.append_assoc, List.singleton_append] at h
    rw [← List.append_assoc, ← List.append_assoc label'.lead] at h
    -- The blanks before the name agree, then the name, then the blanks before the sign.
    have hlead : label.lead = label'.lead := by
      rw [← takeWhile_append_word label.isGap_lead (isWord_of_isName label.isName_name), h,
        takeWhile_append_word label'.isGap_lead (isWord_of_isName label'.isName_name)]
    rw [hlead, hsame] at h
    have hrest := List.append_cancel_left h
    have hsign : isBlank '=' = false := by decide
    obtain ⟨hgap, hbody⟩ := takeWhile_dropWhile_run label.isGap_gap
      (show ∀ c ∈ ('=' :: layout.body).head?, isBlank c = false by simp [hsign])
    obtain ⟨hgap', hbody'⟩ := takeWhile_dropWhile_run label'.isGap_gap
      (show ∀ c ∈ ('=' :: layout'.body).head?, isBlank c = false by simp [hsign])
    rw [hrest] at hgap hbody
    refine ⟨?_, (List.cons.inj (hbody.symm.trans hbody')).2⟩
    rw [hlabel', LabelText.ext hlead hsame.symm (hgap.symm.trans hgap')]

/-- A name and a list in parentheses are determined by the signature. -/
theorem signature_inj {layout layout' : Layout}
    (h : layout.written.signature = layout'.written.signature) :
    layout.name = layout'.name ∧ layout.list = layout'.list := by
  -- The name ends at the first parenthesis.
  obtain ⟨htake, hdrop⟩ := takeWhile_dropWhile_signature layout.isName_name (layout.list ++ [')'])
  obtain ⟨htake', hdrop'⟩ :=
    takeWhile_dropWhile_signature layout'.isName_name (layout'.list ++ [')'])
  change layout.name ++ '(' :: (layout.list ++ [')']) = layout'.name ++ '(' :: (layout'.list ++ [')'])
    at h
  rw [h] at htake hdrop
  have hlist := (List.cons.inj (hdrop.symm.trans hdrop')).2
  exact ⟨htake.symm.trans htake', List.append_cancel_right hlist⟩

/-- **A line has at most one layout.** -/
theorem text_injective : Function.Injective Layout.text := by
  intro layout layout' h
  obtain ⟨hlabel, hbody⟩ := label_of_text_eq h
  obtain ⟨hstart, haddress, hrest⟩ := append_word_inj layout.isGap_start layout'.isGap_start
    layout.written.isWord_address layout'.written.isWord_address
    (endsWord_spread _ layout.isGap_trail) (endsWord_spread _ layout'.isGap_trail) hbody
  have hdigits : layout.digits = layout'.digits := by
    simpa [InstructionText.address, written] using haddress
  obtain ⟨hpieces, htrail⟩ := spread_inj layout.isGap_trail layout'.isGap_trail hrest
  obtain ⟨hsignature, harguments⟩ := List.cons.inj hpieces
  have hgap : layout.gap = layout'.gap := congrArg Piece.gap hsignature
  obtain ⟨hname, hlist⟩ := signature_inj (congrArg Piece.word hsignature)
  exact Layout.ext hlabel hstart hdigits hgap hname hlist harguments htrail

end Layout

/-! ## Reading a line with a layout -/

/-- An instruction **reads** a layout **at its columns** when it reads what is written there, and its
signature and arguments have the columns at which they stand. -/
structure Instruction.ReadsAt (instruction : Instruction) (layout : Layout) : Prop
    extends instruction.Reads layout.written where
  /-- The column of the signature is where the signature stands. -/
  signatureColumn : instruction.signatureColumn = layout.signatureColumn
  /-- The arguments are the written ones, at the columns where they stand. -/
  argumentTokens : instruction.arguments = layout.argumentTokens

/-- A line is split into a label, if it has one, and the rest, from which the tokens are taken: the
body that is left of the trimmed line stands in the rest, between blanks, as many bytes into the line
as are counted for it. -/
theorem exists_labelFront (line : List Char) :
    ∃ label gap trail, IsGap gap ∧ IsGap trail ∧
      line = labelFront label ++ (gap ++ (labelAndBody (trim line)).2 ++ trail) ∧
      (labelAndBody (trim line)).1 = label.map LabelText.name ∧
      byteLength (line.takeWhile isBlank) +
          (byteLength (trim line) - byteLength (labelAndBody (trim line)).2) =
        byteLength (labelFront label ++ gap) := by
  obtain ⟨trail, htrail, hline⟩ := exists_gap_trim line
  unfold labelAndBody
  cases hsplit : splitLabel? (trim line) with
  | none =>
    refine ⟨none, line.takeWhile isBlank, trail, isGap_takeWhile line, htrail, hline, rfl, ?_⟩
    simp [labelFront]
  | some found =>
    obtain ⟨name, body⟩ := found
    obtain ⟨hname, gap, gap', hgap, hgap', htrim⟩ := splitLabel?_eq_some hsplit
    refine ⟨some ⟨line.takeWhile isBlank, name, gap, isGap_takeWhile line, hname, hgap⟩, gap', trail,
      hgap', htrail, ?_, rfl, ?_⟩
    · simp only [labelFront, Option.elim_some, LabelText.text]
      rw [htrim] at hline
      simpa using hline
    · -- The bytes of the body are taken away from those of the trimmed line.
      simp only [labelFront, Option.elim_some, LabelText.text]
      rw [htrim]
      simp only [byteLength_append, byteLength_cons, byteLength_nil]
      omega

/-- The tokens of the body that is left of the trimmed line are those of the line after the label. -/
theorem exists_tokens_labelAndBody (line : List Char) :
    ∃ label rest, line = labelFront label ++ rest ∧
      (labelAndBody (trim line)).1 = label.map LabelText.name ∧
      tokens (byteLength (line.takeWhile isBlank) +
          (byteLength (trim line) - byteLength (labelAndBody (trim line)).2))
        (labelAndBody (trim line)).2 = tokens (byteLength (labelFront label)) rest := by
  obtain ⟨label, gap, trail, hgap, htrail, hline, hlabel, hoffset⟩ := exists_labelFront line
  refine ⟨label, _, hline, hlabel, ?_⟩
  rw [hoffset, tokens_append_right htrail, tokens_append_left hgap, byteLength_append]

namespace Line

/-- An instruction is read from the tokens of the line after the label. -/
theorem tokens_of_parse {raw : String} {instruction : Instruction}
    (h : Line.parse raw = .ok (.instruction instruction)) :
    ∃ label rest address signature arguments, raw.toList = labelFront label ++ rest ∧
      tokens (byteLength (labelFront label)) rest = address :: signature :: arguments ∧
      Instruction.ofTokens ((label.map LabelText.name).map String.ofList) address signature
        arguments = .ok instruction := by
  obtain ⟨-, -, hparse⟩ := parse_eq_instruction_iff.1 h
  obtain ⟨address, signature, arguments, htokens, hread⟩ := Instruction.parse_eq_ok_iff.1 hparse
  obtain ⟨label, rest, hline, hlabel, hsame⟩ := exists_tokens_labelAndBody raw.toList
  rw [hlabel] at hread
  exact ⟨label, rest, address, signature, arguments, hline, hsame.symm.trans htokens, hread⟩

/-- A line that is read as an instruction has a layout, which the instruction reads. -/
theorem exists_layout_of_parse {raw : String} {instruction : Instruction}
    (h : Line.parse raw = .ok (.instruction instruction)) :
    ∃ layout : Layout, layout.text = raw.toList ∧ instruction.ReadsAt layout := by
  obtain ⟨label, rest, address, signature, arguments, hline, htokens, hread⟩ := tokens_of_parse h
  have hwords := spaced_tokens (byteLength (labelFront label)) rest
  rw [htokens] at hwords
  have hname : ∀ name ∈ label.map LabelText.name, isName name = true := by
    intro name hmem
    obtain ⟨found, -, rfl⟩ := Option.map_eq_some_iff.1 hmem
    exact found.isName_name
  have hplain := (hwords.isWord signature.text.toList (by simp)).2
  obtain ⟨written, hlabel, hreads, hsame⟩ :=
    Instruction.exists_reads_of_ofTokens _ hname hplain hread
  rw [← hsame] at hwords
  -- The blanks around the words of the line are named one after the other.
  cases hwords with
  | @word start _ others _ hstart _ hend hothers =>
    obtain ⟨pieces, trail, htrail, rfl, hpieces⟩ := hothers.exists_pieces hend
    obtain ⟨piece, pieces, rfl, hsignature, harguments⟩ := List.map_eq_cons_iff.1 hpieces
    let layout : Layout := ⟨label, start, written.digits, piece.gap, written.name, written.list,
      pieces, trail, hstart, written.length_digits, written.isHexDigit_digits, piece.isGap_gap,
      piece.gap_ne_nil, written.isName_name, written.plain_list, htrail⟩
    have hwritten : layout.written = written :=
      InstructionText.ext hlabel.symm rfl rfl rfl harguments
    have hpiece : layout.signaturePiece = piece := by
      refine Piece.ext rfl ?_
      rw [hsignature, ← hwritten]
      rfl
    have hbody : layout.body = start ++ written.address ++ spread (piece :: pieces) trail := by
      rw [Layout.body, hpiece, hwritten]
    -- The tokens that were read are those of the layout.
    have hall := layout.tokens_body
    rw [hbody] at hall
    obtain ⟨-, hrest⟩ := List.cons.inj (htokens.symm.trans hall)
    obtain ⟨rfl, rfl⟩ := List.cons.inj hrest
    obtain ⟨target, parsed, -, -, rfl⟩ := Instruction.ofTokens_eq_ok_iff.1 hread
    refine ⟨layout, ?_, ?_, rfl, rfl⟩
    · rw [hline, Layout.text, hbody]
    · rw [hwritten]
      exact hreads

/-- A line with a layout is read as an instruction that reads the layout. -/
theorem exists_parse_of_layout {raw : String} {layout : Layout} (h : layout.text = raw.toList) :
    ∃ instruction, Line.parse raw = .ok (.instruction instruction) ∧ instruction.ReadsAt layout := by
  have hspells := layout.spells
  rw [h] at hspells
  obtain ⟨instruction, hparse, -⟩ := parse_of_spells hspells
  obtain ⟨other, hother, hreads⟩ := exists_layout_of_parse hparse
  -- The line has no other layout.
  obtain rfl : other = layout := Layout.text_injective (hother.trans h.symm)
  exact ⟨instruction, hparse, hreads⟩

/-- **Reading accepts exactly the grammar of lines.** A line is an instruction exactly when it has a
layout. It has no other layout then, and the instruction has the label, the address, the name, the
tags and the arguments that are written there, and their columns. A line is blank exactly when there
are only blanks on it, and a comment exactly when its first character that is not blank is `#`. -/
theorem parse_grammar (raw : String) :
    ((∃ instruction, Line.parse raw = .ok (.instruction instruction)) ↔
      ∃ layout : Layout, layout.text = raw.toList) ∧
    (∀ layout : Layout, layout.text = raw.toList →
      (∀ other : Layout, other.text = raw.toList → other = layout) ∧
      ∃ instruction, Line.parse raw = .ok (.instruction instruction) ∧
        instruction.ReadsAt layout) ∧
    (Line.parse raw = .ok .blank ↔ ∀ c ∈ raw.toList, isBlank c = true) ∧
    (Line.parse raw = .ok .comment ↔
      ∃ gap rest, (∀ c ∈ gap, isBlank c = true) ∧ raw.toList = gap ++ '#' :: rest) := by
  refine ⟨⟨?_, ?_⟩, ?_, parse_eq_blank_iff, parse_eq_comment_iff⟩
  · rintro ⟨instruction, hparse⟩
    obtain ⟨layout, hlayout, -⟩ := exists_layout_of_parse hparse
    exact ⟨layout, hlayout⟩
  · rintro ⟨layout, hlayout⟩
    obtain ⟨instruction, hparse, -⟩ := exists_parse_of_layout hlayout
    exact ⟨instruction, hparse⟩
  · intro layout hlayout
    refine ⟨?_, exists_parse_of_layout hlayout⟩
    intro other hother
    exact Layout.text_injective (hother.trans hlayout.symm)

/-- A layout in which an address is the label, with a no-break space, an empty tag, and an argument of
more than one byte. -/
def sampleLayout : Layout where
  label := some ⟨['\t'], "0xAb00000000000000000000000000000000000001".toList, [],
    by decide +kernel, by decide +kernel, by decide +kernel⟩
  start := [' ']
  digits := "Ab00000000000000000000000000000000000001".toList
  gap := ['\u00A0']
  name := ['f']
  list := "uint,".toList
  arguments := [⟨[' ', ' '], ['é'], by decide +kernel, by decide +kernel, by decide +kernel⟩]
  trail := ['\r']
  isGap_start := by decide +kernel
  length_digits := by decide +kernel
  isHexDigit_digits := List.all_eq_true.1 (by decide +kernel)
  isGap_gap := by decide +kernel
  gap_ne_nil := by decide +kernel
  isName_name := by decide +kernel
  plain_list := by
    simp
    decide
  isGap_trail := by decide +kernel

/-- The line of the sample. -/
def sampleLine : String :=
  "\t0xAb00000000000000000000000000000000000001= " ++
    "0xAb00000000000000000000000000000000000001\u00A0f(uint,)  é\r"

/-- The sample line has no other layout and is read as an instruction. -/
theorem parse_grammar_sampleLine :
    sampleLayout.text = sampleLine.toList ∧
      (∀ other : Layout, other.text = sampleLine.toList → other = sampleLayout) ∧
      ∃ instruction, Line.parse sampleLine = .ok (.instruction instruction) ∧
        instruction.ReadsAt sampleLayout := by
  have htext : sampleLayout.text = sampleLine.toList := by decide +kernel
  exact ⟨htext, (parse_grammar sampleLine).2.1 sampleLayout htext⟩

end Line

end CallScript.Script
