import CallScript.Proofs.Hashing
import CallScript.Proofs.Literals
import CallScript.Proofs.Script.Spacing
import CallScript.Script.Line

/-! # The grammar of lines

What a line may look like, said without an algorithm. Reading a line finds what is written there,
and whatever is written so can be read.

* **`InstructionText`** is an instruction as it is written, and **`InstructionText.Spells`** relates
  it to the lines on which it stands.
* **`Instruction.Reads`** relates an instruction to its written form.
* **`Line.parse_eq_blank_iff`** and **`Line.parse_eq_comment_iff`**: which lines say nothing.
* **`Line.spells_of_parse`** and **`Line.parse_of_spells`**: which lines are instructions. -/

namespace CallScript.Script

open Text

/-! ## Names -/

/-- The code points of name characters lie between those of `0` and `z`. -/
theorem toNat_of_isNameChar {c : Char} (h : isNameChar c = true) :
    48 ≤ c.toNat ∧ c.toNat ≤ 122 := by
  -- A name character is in one of three ranges or is the underscore.
  change (decide (_ ∧ _) || (_ && _) || (_ && _) || _) = true at h
  simp only [Bool.or_eq_true, Bool.and_eq_true, decide_eq_true_eq, beq_iff_eq, ge_iff_le,
    UInt32.le_iff_toNat_le] at h
  rcases h with (((h | h) | h) | rfl)
  · exact ⟨Nat.le_trans (by decide) h.1, Nat.le_trans h.2 (by decide)⟩
  · exact ⟨Nat.le_trans (by decide) h.1, Nat.le_trans h.2 (by decide)⟩
  · exact ⟨Nat.le_trans (by decide) h.1, Nat.le_trans h.2 (by decide)⟩
  · decide

/-- No name character is a blank. -/
theorem isBlank_of_isNameChar {c : Char} (h : isNameChar c = true) : isBlank c = false := by
  obtain ⟨hlow, hhigh⟩ := toNat_of_isNameChar h
  rw [Bool.eq_false_iff]
  intro hblank
  obtain ⟨range, hmem, hfirst, hlast⟩ := CodeRange.holds_iff.1 hblank
  have houtside : ∀ range ∈ blankRanges, range.2 < 48 ∨ 122 < range.1 := by decide
  rcases houtside range hmem with hbelow | habove
  · omega
  · omega

/-- No blank is a name character. -/
theorem isNameChar_of_isBlank {c : Char} (h : isBlank c = true) : isNameChar c = false := by
  rw [Bool.eq_false_iff]
  intro hname
  simp [isBlank_of_isNameChar hname] at h

/-- Hexadecimal digits are name characters. -/
theorem isNameChar_of_isHexDigit {c : Char} (h : c.isHexDigit = true) : isNameChar c = true := by
  have table : Hex.alphabet.all isNameChar = true := by decide
  obtain ⟨value, hvalue⟩ := Hex.exists_digit? h
  exact List.all_eq_true.1 table c (Hex.mem_alphabet_of_digit? hvalue)

/-- A name is not empty and has name characters only. -/
theorem isName_iff {text : List Char} :
    isName text = true ↔ text ≠ [] ∧ ∀ c ∈ text, isNameChar c = true := by
  simp [isName]

/-- Names are words. -/
theorem isWord_of_isName {name : List Char} (h : isName name = true) : IsWord name := by
  obtain ⟨hne, hchars⟩ := isName_iff.1 h
  exact ⟨hne, fun c hmem => isBlank_of_isNameChar (hchars c hmem)⟩

/-! ## Signatures -/

/-- The tags in the list between the parentheses of a signature: the pieces between its commas, and
none at all if the list is empty. -/
def tagTexts (list : List Char) : List (List Char) :=
  if list = [] then [] else list.splitOn ','

/-- The pieces of a text are made of its characters other than the separator. -/
theorem mem_and_ne_of_mem_splitOn {separator c : Char} {text piece : List Char}
    (h : piece ∈ text.splitOn separator) (hc : c ∈ piece) : c ∈ text ∧ c ≠ separator := by
  induction text generalizing piece with
  | nil => simp [List.mem_singleton.1 h] at hc
  | cons first text ih =>
    obtain ⟨head, others, hpieces⟩ :=
      List.exists_cons_of_ne_nil (List.splitOn_ne_nil separator text)
    rw [List.splitOn_cons_eq_if_modifyHead, hpieces] at h
    rw [hpieces] at ih
    split at h
    · rcases List.mem_cons.1 h with rfl | hmem
      · exact absurd hc List.not_mem_nil
      · exact (ih hmem hc).imp_left (List.mem_cons_of_mem first)
    · next hfirst =>
      rw [List.modifyHead_cons] at h
      rcases List.mem_cons.1 h with rfl | hmem
      · rcases List.mem_cons.1 hc with rfl | htail
        · exact ⟨List.mem_cons_self, fun heq => hfirst (beq_iff_eq.2 heq)⟩
        · exact (ih List.mem_cons_self htail).imp_left (List.mem_cons_of_mem first)
      · exact (ih (List.mem_cons_of_mem head hmem) hc).imp_left (List.mem_cons_of_mem first)

/-- A name has no parenthesis, so that it ends where the list of a signature starts. -/
theorem takeWhile_dropWhile_signature {name : List Char} (h : isName name = true)
    (list : List Char) :
    (name ++ '(' :: list).takeWhile (· ≠ '(') = name ∧
      (name ++ '(' :: list).dropWhile (· ≠ '(') = '(' :: list := by
  refine takeWhile_dropWhile_run ?_ (by simp)
  intro c hmem
  refine decide_eq_true ?_
  rintro rfl
  exact absurd ((isName_iff.1 h).2 _ hmem) (by decide)

namespace Signature

/-- What is read as a signature is a name and a list in parentheses, without further parentheses. -/
theorem parse?_eq_some_iff {token : String} {signature : Signature} :
    parse? token = some signature ↔
      ∃ name list, token.toList = name ++ '(' :: (list ++ [')']) ∧ isName name = true ∧
        (∀ c ∈ list, c ≠ '(' ∧ c ≠ ')') ∧ signature = ⟨String.ofList name, splitParams list⟩ := by
  constructor
  · intro h
    simp only [parse?] at h
    split at h
    · simp at h
    · next c rest hdrop =>
      split at h
      · next hvalid =>
        obtain ⟨hlast, hname, hplain⟩ := hvalid
        have hc : c = '(' := by
          have hhead := List.head?_dropWhile_not (fun c => decide (c ≠ '(')) token.toList
          rw [hdrop] at hhead
          simpa using hhead
        subst hc
        have hrest : rest.dropLast ++ [')'] = rest := by
          obtain ⟨front, rfl⟩ := List.getLast?_eq_some_iff.1 hlast
          rw [List.dropLast_concat]
        refine ⟨_, rest.dropLast, ?_, hname, by simpa using hplain, (Option.some.inj h).symm⟩
        rw [hrest, ← hdrop, List.takeWhile_append_dropWhile]
      · simp at h
  · rintro ⟨name, list, htoken, hname, hplain, rfl⟩
    obtain ⟨htake, hdrop⟩ := takeWhile_dropWhile_signature hname (list ++ [')'])
    rw [← htoken] at htake hdrop
    simp only [parse?, htake, hdrop]
    rw [if_pos]
    · rw [List.dropLast_concat]
    · rw [List.dropLast_concat]
      exact ⟨List.getLast?_concat, hname, by simpa using hplain⟩

/-- The tags of a list without blanks are its pieces as they stand. -/
theorem splitParams_eq {list : List Char} (h : ∀ c ∈ list, isBlank c = false) :
    splitParams list = (tagTexts list).map String.ofList := by
  unfold splitParams tagTexts
  cases list with
  | nil => rfl
  | cons c list =>
    have htrim : ∀ piece ∈ (c :: list).splitOn ',', trim piece = piece := by
      intro piece hpiece
      exact trim_eq_self fun c' hmem => h c' (mem_and_ne_of_mem_splitOn hpiece hmem).1
    simp only [List.isEmpty_cons, Bool.false_eq_true, if_false, reduceCtorEq]
    exact List.map_congr_left fun piece hpiece => by rw [htrim piece hpiece]

/-- A signature with the tags of a list is written as the name and that list. -/
theorem text_tagTexts (name list : List Char) :
    text ⟨String.ofList name, (tagTexts list).map String.ofList⟩ =
      name ++ '(' :: (list ++ [')']) := by
  have hlist : List.intercalate [','] (tagTexts list) = list := by
    unfold tagTexts
    split
    · next hnil => simp [hnil]
    · exact List.intercalate_splitOn ','
  simp [text, hlist]

end Signature

/-! ## Written instructions -/

/-- An **instruction as it is written**, without the blanks. -/
@[ext] structure InstructionText where
  /-- The label in front of the instruction, if there is one. -/
  label : Option (List Char)
  /-- The digits of the address. -/
  digits : List Char
  /-- The name of the function. -/
  name : List Char
  /-- What stands between the parentheses of the signature. -/
  list : List Char
  /-- The arguments. -/
  arguments : List (List Char)
  /-- A label is a name. -/
  isName_label : ∀ text ∈ label, isName text = true
  /-- An address has 40 digits. -/
  length_digits : digits.length = 40
  /-- The digits of an address are hexadecimal. -/
  isHexDigit_digits : ∀ c ∈ digits, c.isHexDigit = true
  /-- The function has a name. -/
  isName_name : isName name = true
  /-- There are neither blanks nor further parentheses between the parentheses. -/
  plain_list : ∀ c ∈ list, isBlank c = false ∧ c ≠ '(' ∧ c ≠ ')'

namespace InstructionText

/-- The address as it is written. -/
def address (written : InstructionText) : List Char :=
  '0' :: 'x' :: written.digits

/-- The signature as it is written. -/
def signature (written : InstructionText) : List Char :=
  written.name ++ '(' :: (written.list ++ [')'])

/-- The words of the instruction after its label. -/
def words (written : InstructionText) : List (List Char) :=
  written.address :: written.signature :: written.arguments

/-- The type tags of the signature. -/
def tags (written : InstructionText) : List (List Char) :=
  tagTexts written.list

/-- An instruction is **spelled** by a line in which its words stand with blanks around them, after
the label and an equals sign if it has a label. -/
inductive Spells (written : InstructionText) : List Char → Prop
  /-- Without a label. -/
  | bare {line : List Char} (hlabel : written.label = none) (hwords : Spaced written.words line) :
    Spells written line
  /-- With a label, with or without blanks before the equals sign. -/
  | labelled {lead name gap body : List Char} (hlabel : written.label = some name)
    (hlead : IsGap lead) (hgap : IsGap gap) (hwords : Spaced written.words body) :
    Spells written (lead ++ name ++ gap ++ '=' :: body)

end InstructionText

/-- An instruction **reads** a written one when it has its label, its address, its signature and its
arguments. -/
structure Instruction.Reads (instruction : Instruction) (written : InstructionText) : Prop where
  /-- The label is the written one. -/
  label : instruction.explicitLabel = written.label.map String.ofList
  /-- The digits of the target are those of the address, up to their case. -/
  target : Hex.digits instruction.target.bytes.toList = written.digits.map Char.toLower
  /-- The signature has the written name and tags. -/
  signature : instruction.signature = ⟨String.ofList written.name, written.tags.map String.ofList⟩
  /-- The arguments are the written ones. -/
  arguments : (instruction.arguments.map fun token => token.text.toList) = written.arguments

namespace Instruction

/-- The tags that were read are the written ones. -/
theorem Reads.map_params {instruction : Instruction} {written : InstructionText}
    (h : instruction.Reads written) :
    instruction.signature.params.map String.toList = written.tags := by
  simp [h.signature, Function.comp_def]

/-- As many arguments are read as are written. -/
theorem Reads.length_arguments {instruction : Instruction} {written : InstructionText}
    (h : instruction.Reads written) :
    instruction.arguments.length = written.arguments.length := by
  rw [← h.arguments, List.length_map]

/-- The selector is that of the signature as it is written. -/
theorem Reads.selector_eq {instruction : Instruction} {written : InstructionText}
    (h : instruction.Reads written) :
    instruction.signature.selector = Selector.hash written.signature := by
  rw [h.signature, Signature.selector_eq]
  exact congrArg Selector.hash (Signature.text_tagTexts written.name written.list)

/-- Tokens are an instruction exactly when the first is an address and the second a signature. -/
theorem ofTokens_eq_ok_iff {label : Option String} {address signature : Token}
    {arguments : List Token} {instruction : Instruction} :
    ofTokens label address signature arguments = .ok instruction ↔
      ∃ target parsed, Address.parse? address.text = some target ∧
        Signature.parse? signature.text = some parsed ∧
        instruction = ⟨label, target, parsed, signature.column, arguments⟩ := by
  unfold ofTokens
  cases Address.parse? address.text with
  | none => simp
  | some target =>
    cases Signature.parse? signature.text with
    | none => simp
    | some parsed => simp [eq_comm]

/-- What was read from tokens was written there. -/
theorem exists_reads_of_ofTokens (label : Option (List Char)) {address signature : Token}
    {arguments : List Token} {instruction : Instruction}
    (hlabel : ∀ text ∈ label, isName text = true)
    (hplain : ∀ c ∈ signature.text.toList, isBlank c = false)
    (h : ofTokens (label.map String.ofList) address signature arguments = .ok instruction) :
    ∃ written : InstructionText, written.label = label ∧ instruction.Reads written ∧
      written.words = (address :: signature :: arguments).map fun token => token.text.toList := by
  obtain ⟨target, parsed, htarget, hparsed, rfl⟩ := ofTokens_eq_ok_iff.1 h
  obtain ⟨digits, haddress, hlength, hdigits, hlower⟩ := Address.digits_of_parse? htarget
  obtain ⟨name, list, hsignature, hname, hlist, rfl⟩ := Signature.parse?_eq_some_iff.1 hparsed
  have hlistPlain : ∀ c ∈ list, isBlank c = false := by
    intro c hmem
    exact hplain c (by simp [hsignature, hmem])
  -- The parts that were found are put together as they stand on the tokens.
  refine ⟨⟨label, digits, name, list, arguments.map fun token => token.text.toList, hlabel, hlength,
    hdigits, hname, fun c hmem => ⟨hlistPlain c hmem, hlist c hmem⟩⟩, rfl, ?_, ?_⟩
  · refine ⟨rfl, hlower, ?_, rfl⟩
    rw [Signature.splitParams_eq hlistPlain]
    rfl
  · simp [InstructionText.words, InstructionText.address, InstructionText.signature, haddress,
      hsignature]

/-- What is written on tokens can be read from them. -/
theorem exists_ofTokens_of_words {written : InstructionText} {address signature : Token}
    {arguments : List Token}
    (h : ((address :: signature :: arguments).map fun token => token.text.toList) = written.words) :
    ∃ instruction, ofTokens (written.label.map String.ofList) address signature arguments =
      .ok instruction ∧ instruction.Reads written := by
  obtain ⟨haddress, hsignature, harguments⟩ : address.text.toList = written.address ∧
      signature.text.toList = written.signature ∧
      (arguments.map fun token => token.text.toList) = written.arguments := by
    simpa [InstructionText.words] using h
  obtain ⟨target, htarget⟩ :=
    Address.exists_parse? haddress written.length_digits written.isHexDigit_digits
  obtain ⟨digits, haddress', -, -, hlower⟩ := Address.digits_of_parse? htarget
  -- The digits that were read are the written ones, since both follow the same marker.
  obtain rfl : written.digits = digits := by
    simpa [InstructionText.address, haddress'] using haddress.symm
  have hparsed := Signature.parse?_eq_some_iff.2 ⟨_, _, hsignature, written.isName_name,
    fun c hmem => (written.plain_list c hmem).2, rfl⟩
  refine ⟨_, ofTokens_eq_ok_iff.2 ⟨target, _, htarget, hparsed, rfl⟩, rfl, hlower, ?_, harguments⟩
  rw [Signature.splitParams_eq fun c hmem => (written.plain_list c hmem).1]
  rfl

end Instruction

/-! ## Labels -/

/-- A label that was split off is a name before an equals sign, with blanks around the sign. -/
theorem splitLabel?_eq_some {text name body : List Char}
    (h : splitLabel? text = some (name, body)) :
    isName name = true ∧ ∃ gap gap', IsGap gap ∧ IsGap gap' ∧
      text = name ++ gap ++ '=' :: (gap' ++ body) := by
  simp only [splitLabel?] at h
  split at h
  · next rest hsign =>
    split at h
    · simp at h
    · next hne =>
      obtain ⟨rfl, rfl⟩ := Prod.mk.inj (Option.some.inj h)
      simp only [Bool.or_eq_true, List.isEmpty_iff, not_or] at hne
      refine ⟨isName_iff.2 ⟨hne.1, fun c hmem => List.mem_takeWhile_imp hmem⟩,
        (text.dropWhile isNameChar).takeWhile isBlank, rest.takeWhile isBlank, isGap_takeWhile _,
        isGap_takeWhile _, ?_⟩
      -- Both times, the blanks that were dropped are put back.
      rw [takeWhile_append_trimStart, ← hsign, List.append_assoc, takeWhile_append_trimStart,
        List.takeWhile_append_dropWhile]
  · simp at h

/-- A name before an equals sign is split off as a label, if anything follows the sign. -/
theorem splitLabel?_of_isName {name gap body : List Char} (hname : isName name = true)
    (hgap : IsGap gap) (hbody : trimStart body ≠ []) :
    splitLabel? (name ++ gap ++ '=' :: body) = some (name, trimStart body) := by
  obtain ⟨hne, hchars⟩ := isName_iff.1 hname
  -- The name ends at a blank or at the sign, and neither is a name character.
  have hend : ∀ c ∈ (gap ++ '=' :: body).head?, isNameChar c = false := by
    intro c hmem
    cases gap with
    | nil =>
      obtain rfl : '=' = c := by simpa using hmem
      decide
    | cons blank gap =>
      obtain rfl : blank = c := by simpa using hmem
      exact isNameChar_of_isBlank (hgap blank List.mem_cons_self)
  obtain ⟨htake, hdrop⟩ := takeWhile_dropWhile_run hchars hend
  have hsign : trimStart (gap ++ '=' :: body) = '=' :: body :=
    (takeWhile_dropWhile_run hgap (by simp; decide)).2
  rw [List.append_assoc]
  simp only [splitLabel?, htake, hdrop, hsign]
  simp [hne, hbody]

/-- The blanks before a label and at the end of what follows it are trimmed. -/
theorem trim_labelled {lead name : List Char} (hlead : IsGap lead) (hname : isName name = true)
    (gap body : List Char) :
    trim (lead ++ name ++ gap ++ '=' :: body) = name ++ gap ++ '=' :: trimEnd body := by
  have hstart : trimStart (lead ++ name ++ gap ++ '=' :: body) = name ++ gap ++ '=' :: body := by
    rw [List.append_assoc, trimStart_append_word hlead (isWord_of_isName hname), List.append_assoc]
  rw [trim, hstart, trimEnd_append_cons _ (by decide)]

/-- No label is split off an instruction that starts with its address. -/
theorem splitLabel?_of_spaced {written : InstructionText} {text : List Char}
    (h : Spaced written.words text) (hstart : trimStart text = text) : splitLabel? text = none := by
  obtain ⟨rest, htext, hend, hrest⟩ := h.trimStart_eq
  obtain ⟨others, hothers, -, -⟩ := hrest.trimStart_eq
  rw [hstart] at htext
  have hchars : ∀ c ∈ written.address, isNameChar c = true := by
    refine List.forall_mem_cons.2 ⟨by decide, List.forall_mem_cons.2 ⟨by decide, ?_⟩⟩
    exact fun c hmem => isNameChar_of_isHexDigit (written.isHexDigit_digits c hmem)
  obtain ⟨-, hdrop⟩ := takeWhile_dropWhile_run hchars
    fun c hmem => isNameChar_of_isBlank (hend c hmem)
  -- What follows the address is the signature, and that does not start with the sign.
  obtain ⟨hne, hname⟩ := isName_iff.1 written.isName_name
  obtain ⟨c, name, hcons⟩ := List.exists_cons_of_ne_nil hne
  have hc : c ≠ '=' := by
    rintro rfl
    exact absurd (hname '=' (by simp [hcons])) (by decide)
  simp only [splitLabel?, htext, hdrop, hothers, InstructionText.signature, hcons, List.cons_append]
  split
  · next hsign => exact absurd (List.cons.inj hsign).1 hc
  · rfl

/-! ## Lines -/

/-- The label of a text and what follows it, or the whole text if it has no label. -/
def labelAndBody (text : List Char) : Option (List Char) × List Char :=
  match splitLabel? text with
  | some (name, body) => (some name, body)
  | none => (none, text)

/-- What stands before the body is a name. -/
theorem isName_labelAndBody {text : List Char} :
    ∀ name ∈ (labelAndBody text).1, isName name = true := by
  intro name hmem
  unfold labelAndBody at hmem
  split at hmem
  · next hsome =>
    obtain rfl := Option.some.inj hmem
    exact (splitLabel?_eq_some hsome).1
  · simp at hmem

/-- An instruction is spelled by the texts that have its label and in whose body its words are
spaced. -/
theorem InstructionText.spells_of_labelAndBody {written : InstructionText}
    {lead text trail : List Char} (hlead : IsGap lead) (htrail : IsGap trail)
    (hlabel : written.label = (labelAndBody text).1)
    (hwords : Spaced written.words (labelAndBody text).2) :
    written.Spells (lead ++ text ++ trail) := by
  unfold labelAndBody at hlabel hwords
  split at hlabel
  · next name body hsome =>
    simp only [hsome] at hwords
    obtain ⟨-, gap, gap', hgap, hgap', rfl⟩ := splitLabel?_eq_some hsome
    have hline : lead ++ (name ++ gap ++ '=' :: (gap' ++ body)) ++ trail =
        lead ++ name ++ gap ++ '=' :: (gap' ++ body ++ trail) := by simp
    rw [hline]
    exact .labelled hlabel hlead hgap ((hwords.append_left hgap').append_right htrail)
  · next hnone =>
    simp only [hnone] at hwords
    exact .bare hlabel ((hwords.append_left hlead).append_right htrail)

/-- A line that spells an instruction has, when it is trimmed, the instruction's label and a body in
which its words are spaced, and starts with a name character. -/
theorem InstructionText.Spells.labelAndBody_trim {written : InstructionText} {line : List Char}
    (h : written.Spells line) :
    (labelAndBody (trim line)).1 = written.label ∧
      Spaced written.words (labelAndBody (trim line)).2 ∧
      ∃ c rest, trim line = c :: rest ∧ isNameChar c = true := by
  cases h with
  | bare hlabel hwords =>
    obtain ⟨trail, htrail, hline⟩ := exists_gap_trim line
    rw [hline] at hwords
    -- Without a label, the trimmed line starts with the address.
    have htrimmed := hwords.of_append (isGap_takeWhile line) htrail
    have hnone := splitLabel?_of_spaced htrimmed (trimStart_trim line)
    obtain ⟨rest, hrest, -, -⟩ := htrimmed.trimStart_eq
    rw [trimStart_trim] at hrest
    simp only [labelAndBody, hnone]
    exact ⟨hlabel.symm, htrimmed, '0', _, hrest, by decide⟩
  | @labelled lead name gap body hlabel hlead hgap hwords =>
    have hname : isName name = true := written.isName_label name hlabel
    obtain ⟨hne, hchars⟩ := isName_iff.1 hname
    obtain ⟨trail, htrail, hbody⟩ := exists_gap_trimEnd body
    have htrimmed : Spaced written.words (trimStart (trimEnd body)) := by
      rw [hbody, ← takeWhile_append_trimStart (trimEnd body)] at hwords
      exact hwords.of_append (isGap_takeWhile _) htrail
    have hsome := splitLabel?_of_isName hname hgap htrimmed.ne_nil
    obtain ⟨c, others, rfl⟩ := List.exists_cons_of_ne_nil hne
    rw [trim_labelled hlead hname]
    simp only [labelAndBody, hsome]
    exact ⟨hlabel.symm, htrimmed, c, _, rfl, hchars c List.mem_cons_self⟩

/-- An instruction is read from the tokens of the body. -/
theorem Instruction.parse_eq (start : Nat) (text : List Char) :
    Instruction.parse start text =
      match tokens (start + (byteLength text - byteLength (labelAndBody text).2))
        (labelAndBody text).2 with
      | address :: signature :: arguments =>
        ofTokens ((labelAndBody text).1.map String.ofList) address signature arguments
      | _ => .error ⟨start + 1, .malformedLine (String.ofList text)⟩ := by
  unfold Instruction.parse labelAndBody
  rcases splitLabel? text with _ | ⟨name, body⟩ <;> rfl

/-- A text is an instruction exactly when the tokens of its body are one. -/
theorem Instruction.parse_eq_ok_iff {start : Nat} {text : List Char} {instruction : Instruction} :
    Instruction.parse start text = .ok instruction ↔
      ∃ address signature arguments,
        tokens (start + (byteLength text - byteLength (labelAndBody text).2))
            (labelAndBody text).2 =
          address :: signature :: arguments ∧
        ofTokens ((labelAndBody text).1.map String.ofList) address signature arguments =
          .ok instruction := by
  rw [Instruction.parse_eq]
  split
  · next htokens => simp [htokens]
  · next hother =>
    simp only [reduceCtorEq, false_iff]
    rintro ⟨address, signature, arguments, htokens, -⟩
    exact hother address signature arguments htokens

namespace Line

/-- A line is blank exactly when it has nothing but blanks. -/
theorem parse_eq_blank_iff {raw : String} : Line.parse raw = .ok .blank ↔ IsGap raw.toList := by
  rw [← trim_eq_nil_iff]
  unfold Line.parse
  split
  · next htrim => simp [htrim]
  · next htrim => simp [htrim]
  · next hne _ =>
    cases Instruction.parse (byteLength (raw.toList.takeWhile isBlank)) (trim raw.toList) <;>
      simpa [Except.map] using hne

/-- A line is a comment exactly when it starts with `#`, after blanks. -/
theorem parse_eq_comment_iff {raw : String} :
    Line.parse raw = .ok .comment ↔ ∃ gap rest, IsGap gap ∧ raw.toList = gap ++ '#' :: rest := by
  rw [← head?_trim_eq_some_iff (by decide)]
  unfold Line.parse
  split
  · next htrim => simp [htrim]
  · next htrim => simp [htrim]
  · next hne =>
    have hhead : (trim raw.toList).head? ≠ some '#' := by
      intro hhead
      obtain ⟨rest, hrest⟩ := List.head?_eq_some_iff.1 hhead
      exact hne rest hrest
    cases Instruction.parse (byteLength (raw.toList.takeWhile isBlank)) (trim raw.toList) <;>
      simpa [Except.map] using hhead

/-- A line is an instruction exactly when, without the blanks at its ends, it is not empty, does not
start with `#` and can be read as one. -/
theorem parse_eq_instruction_iff {raw : String} {instruction : Instruction} :
    Line.parse raw = .ok (.instruction instruction) ↔
      trim raw.toList ≠ [] ∧ (trim raw.toList).head? ≠ some '#' ∧
        Instruction.parse (byteLength (raw.toList.takeWhile isBlank)) (trim raw.toList) =
          .ok instruction := by
  unfold Line.parse
  split
  · next htrim => simp [htrim]
  · next htrim => simp [htrim]
  · next hne hhash =>
    have hempty : trim raw.toList ≠ [] := hne
    have hhead : (trim raw.toList).head? ≠ some '#' := by
      intro hhead
      obtain ⟨rest, hrest⟩ := List.head?_eq_some_iff.1 hhead
      exact hhash rest hrest
    cases Instruction.parse (byteLength (raw.toList.takeWhile isBlank)) (trim raw.toList) <;>
      simp [Except.map, hempty, hhead]

/-- What was read from a line is spelled by it. -/
theorem spells_of_parse {raw : String} {instruction : Instruction}
    (h : Line.parse raw = .ok (.instruction instruction)) :
    ∃ written : InstructionText, written.Spells raw.toList ∧ instruction.Reads written := by
  obtain ⟨-, -, hparse⟩ := parse_eq_instruction_iff.1 h
  obtain ⟨address, signature, arguments, htokens, hread⟩ := Instruction.parse_eq_ok_iff.1 hparse
  have hwords := spaced_tokens
    (byteLength (raw.toList.takeWhile isBlank) +
      (byteLength (trim raw.toList) - byteLength (labelAndBody (trim raw.toList)).2))
    (labelAndBody (trim raw.toList)).2
  rw [htokens] at hwords
  -- A token has no blanks, so that nothing is trimmed from the tags of the signature.
  have hplain := (hwords.isWord signature.text.toList (by simp)).2
  obtain ⟨written, hlabel, hreads, hsame⟩ :=
    Instruction.exists_reads_of_ofTokens _ isName_labelAndBody hplain hread
  obtain ⟨trail, htrail, hraw⟩ := exists_gap_trim raw.toList
  refine ⟨written, ?_, hreads⟩
  rw [hraw]
  rw [← hsame] at hwords
  exact InstructionText.spells_of_labelAndBody (isGap_takeWhile raw.toList) htrail hlabel hwords

/-- What a line spells is read from it. -/
theorem parse_of_spells {raw : String} {written : InstructionText} (h : written.Spells raw.toList) :
    ∃ instruction, Line.parse raw = .ok (.instruction instruction) ∧ instruction.Reads written := by
  obtain ⟨hlabel, hwords, c, rest, htrim, hc⟩ := h.labelAndBody_trim
  have hhead : (trim raw.toList).head? ≠ some '#' := by
    rw [htrim, List.head?_cons]
    rintro ⟨⟩
    exact absurd hc (by decide)
  have htokens := tokens_of_spaced hwords (byteLength (raw.toList.takeWhile isBlank) +
    (byteLength (trim raw.toList) - byteLength (labelAndBody (trim raw.toList)).2))
  obtain ⟨address, others, hfirst, -, hothers⟩ := List.map_eq_cons_iff.1 htokens
  obtain ⟨signature, arguments, rfl, -, -⟩ := List.map_eq_cons_iff.1 hothers
  rw [hfirst] at htokens
  obtain ⟨instruction, hread, hreads⟩ := Instruction.exists_ofTokens_of_words htokens
  rw [← hlabel] at hread
  refine ⟨instruction, parse_eq_instruction_iff.2 ⟨by simp [htrim], hhead, ?_⟩, hreads⟩
  exact Instruction.parse_eq_ok_iff.2 ⟨address, signature, arguments, hfirst, hread⟩

end Line

end CallScript.Script
