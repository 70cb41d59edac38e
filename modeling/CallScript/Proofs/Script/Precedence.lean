import CallScript.Proofs.Script.Arguments
import CallScript.Proofs.Script.Isolation
import CallScript.Proofs.Script.Layout

/-! # Which fault of a line is reported

A line can have many faults, and one of them is reported. Which one it is can be read off the tokens
after the label, in a fixed order: the address, the signature, the number of arguments, and then the
arguments from left to right.

* **`Divides`** splits a line behind its label; **`Divides.unique`** and **`exists_divides`**: this can
  be done in exactly one way.
* **`CallOutcome`** is what is to come of the tokens of a call, without an algorithm.
* **`callOutcome_emission`**: it comes of every line with these tokens.
* **`Draft.addLine_precedence`** puts the order of the faults together. -/

namespace CallScript.Script

open Text

/-! ## Lines and their labels -/

/-- A line is **divided** into its label and the rest. A name and an equals sign are a label only if
something other than blanks follows. -/
inductive Divides : List Char → List Char → List Char → Prop
  /-- A line with a label. -/
  | labelled (label : LabelText) {rest : List Char} (hrest : ¬IsGap rest) :
    Divides (label.text ++ rest) label.text rest
  /-- A line without one. -/
  | bare {line : List Char}
    (hbare : ∀ (label : LabelText) (rest : List Char), line = label.text ++ rest → IsGap rest) :
    Divides line [] line

/-- A label ends at the first equals sign. -/
theorem LabelText.dropWhile_text (label : LabelText) (rest : List Char) :
    (label.text ++ rest).dropWhile (· ≠ '=') = '=' :: rest := by
  have hblank : isBlank '=' = false := by decide
  have hsign : ∀ c ∈ label.lead ++ label.name ++ label.gap, c ≠ '=' := by
    rintro c hmem rfl
    simp only [List.mem_append] at hmem
    rcases hmem with (hlead | hname) | hgap
    · simp [label.isGap_lead _ hlead] at hblank
    · exact absurd ((isName_iff.1 label.isName_name).2 _ hname) (by decide)
    · simp [label.isGap_gap _ hgap] at hblank
  have htext : label.text ++ rest = label.lead ++ label.name ++ label.gap ++ '=' :: rest := by
    simp [LabelText.text]
  rw [htext]
  exact (takeWhile_dropWhile_run (fun c hmem => decide_eq_true (hsign c hmem)) (by simp)).2

/-- A label and what follows it are determined by the line. -/
theorem LabelText.text_append_inj {label label' : LabelText} {rest rest' : List Char}
    (h : label.text ++ rest = label'.text ++ rest') : label.text = label'.text ∧ rest = rest' := by
  have hdrop := label.dropWhile_text rest
  rw [h, label'.dropWhile_text rest'] at hdrop
  obtain rfl : rest' = rest := (List.cons.inj hdrop).2
  exact ⟨List.append_cancel_right h, rfl⟩

/-- **A line is divided in at most one way.** -/
theorem Divides.unique {line front rest front' rest' : List Char} (h : Divides line front rest)
    (h' : Divides line front' rest') : front = front' ∧ rest = rest' := by
  cases h with
  | labelled label hrest =>
    generalize hline : label.text ++ rest = line at h'
    cases h' with
    | labelled label' hrest' => exact LabelText.text_append_inj hline
    | bare hbare => exact absurd (hbare label rest hline.symm) hrest
  | bare hbare =>
    cases h' with
    | labelled label' hrest' => exact absurd (hbare label' rest' rfl) hrest'
    | bare _ => exact ⟨rfl, rfl⟩

/-- What is left behind a label that was split off is not blank. -/
theorem not_isGap_of_splitLabel? {text name body : List Char}
    (h : splitLabel? text = some (name, body)) : ¬IsGap body := by
  simp only [splitLabel?] at h
  split at h
  · next rest hsign =>
    split at h
    · simp at h
    · next hne =>
      obtain ⟨-, rfl⟩ := Prod.mk.inj (Option.some.inj h)
      obtain ⟨c, others, hcons⟩ : ∃ c others, trimStart rest = c :: others := by
        refine List.exists_cons_of_ne_nil ?_
        intro hnil
        simp [hnil] at hne
      intro hgap
      have hblank := hgap c (by simp [hcons])
      simp [isBlank_eq_false_of_trimStart hcons] at hblank
  · simp at h

/-- A label in front of something that is not blank is split off the trimmed line. -/
theorem LabelText.labelAndBody_trim (label : LabelText) {rest : List Char} (hrest : ¬IsGap rest) :
    (labelAndBody (trim (label.text ++ rest))).1 = some label.name := by
  have hbody : trimStart (trimEnd rest) ≠ [] := by
    intro hnil
    obtain ⟨trail, htrail, heq⟩ := exists_gap_trimEnd rest
    rw [heq] at hrest
    exact hrest ((isGap_of_trimStart hnil).append htrail)
  have htrim : trim (label.text ++ rest) = label.name ++ label.gap ++ '=' :: trimEnd rest := by
    rw [← trim_labelled label.isGap_lead label.isName_name]
    simp [LabelText.text]
  rw [htrim, labelAndBody, splitLabel?_of_isName label.isName_name label.isGap_gap hbody]

/-- **Every line is divided**, and its tokens are taken from the rest. -/
theorem exists_divides (line : List Char) :
    ∃ front rest, Divides line front rest ∧
      tokens (byteLength (line.takeWhile isBlank) +
          (byteLength (trim line) - byteLength (labelAndBody (trim line)).2))
        (labelAndBody (trim line)).2 = tokens (byteLength front) rest := by
  obtain ⟨label, gap, trail, hgap, htrail, hline, hlabel, hoffset⟩ := exists_labelFront line
  refine ⟨labelFront label, gap ++ (labelAndBody (trim line)).2 ++ trail, ?_, ?_⟩
  · cases label with
    | none =>
      have hall : gap ++ (labelAndBody (trim line)).2 ++ trail = line := by
        simpa [labelFront] using hline.symm
      rw [hall]
      refine .bare fun label rest hsplit => ?_
      -- Otherwise a label would have been split off.
      by_contra hrest
      have hsome := label.labelAndBody_trim hrest
      rw [← hsplit, hlabel] at hsome
      simp at hsome
    | some label =>
      have hbody : ¬IsGap (labelAndBody (trim line)).2 := by
        unfold labelAndBody at hlabel ⊢
        cases hsplit : splitLabel? (trim line) with
        | none => simp [hsplit] at hlabel
        | some found => exact not_isGap_of_splitLabel? hsplit
      have hrest : ¬IsGap (gap ++ (labelAndBody (trim line)).2 ++ trail) :=
        fun hall => hbody fun c hmem => hall c (by simp [hmem])
      have hdivides := Divides.labelled label hrest
      have hsame : label.text ++ (gap ++ (labelAndBody (trim line)).2 ++ trail) = line := hline.symm
      rw [hsame] at hdivides
      exact hdivides
  · rw [hoffset, tokens_append_right htrail, tokens_append_left hgap, byteLength_append]

/-- The **tokens of a line** are those of what follows its label. -/
def LineTokens (raw : String) (found : List Token) : Prop :=
  ∃ front rest, Divides raw.toList front rest ∧ found = tokens (byteLength front) rest

/-- The tokens of a line are words. -/
theorem LineTokens.isWord {raw : String} {found : List Token} (h : LineTokens raw found)
    {token : Token} (hmem : token ∈ found) : IsWord token.text.toList := by
  obtain ⟨front, rest, -, rfl⟩ := h
  exact isWord_of_mem_tokens hmem

/-- The tokens of a line are those from which an instruction is read. -/
theorem LineTokens.tokens_labelAndBody {raw : String} {found : List Token}
    (h : LineTokens raw found) :
    tokens (byteLength (raw.toList.takeWhile isBlank) +
        (byteLength (trim raw.toList) - byteLength (labelAndBody (trim raw.toList)).2))
      (labelAndBody (trim raw.toList)).2 = found := by
  obtain ⟨front, rest, hdivides, rfl⟩ := h
  obtain ⟨front', rest', hdivides', htokens⟩ := exists_divides raw.toList
  obtain ⟨rfl, rfl⟩ := hdivides.unique hdivides'
  exact htokens

/-- Every line has its tokens, and no others. -/
theorem existsUnique_lineTokens (raw : String) : ∃! found, LineTokens raw found := by
  obtain ⟨front, rest, hdivides, htokens⟩ := exists_divides raw.toList
  refine ⟨_, ⟨front, rest, hdivides, rfl⟩, fun other hother => ?_⟩
  rw [← htokens, hother.tokens_labelAndBody]

/-! ## Addresses and signatures -/

/-- The text of an **address**: the marker and 40 digits. -/
def IsAddressText (text : List Char) : Prop :=
  ∃ digits, text = '0' :: 'x' :: digits ∧ digits.length = 40 ∧ ∀ c ∈ digits, c.isHexDigit = true

/-- The text of a **signature** with the given tags: a name and, in parentheses, the tags with commas
between them. -/
inductive SignatureText : List Char → List String → Prop
  /-- There are no further parentheses. -/
  | intro {name list : List Char} (hname : isName name = true)
    (hlist : ∀ c ∈ list, c ≠ '(' ∧ c ≠ ')') :
    SignatureText (name ++ '(' :: (list ++ [')'])) ((tagTexts list).map String.ofList)

/-- A text is read as an address exactly when it is the text of one. -/
theorem isAddressText_iff {token : String} :
    IsAddressText token.toList ↔ ∃ address, Address.parse? token = some address := by
  constructor
  · rintro ⟨digits, htoken, hlength, hdigits⟩
    exact Address.exists_parse? htoken hlength hdigits
  · rintro ⟨address, haddress⟩
    obtain ⟨digits, htoken, hlength, hdigits, -⟩ := Address.digits_of_parse? haddress
    exact ⟨digits, htoken, hlength, hdigits⟩

/-- A word is read as a signature exactly when it is the text of one, with the tags found there. -/
theorem signatureText_iff {token : String} (hword : IsWord token.toList) {tags : List String} :
    SignatureText token.toList tags ↔
      ∃ signature, Signature.parse? token = some signature ∧ signature.params = tags := by
  constructor
  · generalize htext : token.toList = text
    rintro ⟨hname, hlist⟩
    refine ⟨_, Signature.parse?_eq_some_iff.2 ⟨_, _, htext, hname, hlist, rfl⟩, ?_⟩
    exact Signature.splitParams_eq fun c hmem => hword.2 c (by simp [htext, hmem])
  · rintro ⟨signature, hparse, rfl⟩
    obtain ⟨name, list, htext, hname, hlist, rfl⟩ := Signature.parse?_eq_some_iff.1 hparse
    rw [Signature.splitParams_eq fun c hmem => hword.2 c (by simp [htext, hmem]), htext]
    exact .intro hname hlist

/-- A signature has its tags in one way only. -/
theorem SignatureText.unique {text : List Char} {tags tags' : List String}
    (h : SignatureText text tags) (h' : SignatureText text tags') : tags = tags' := by
  obtain ⟨hname, hlist⟩ := h
  generalize htext : _ ++ '(' :: (_ ++ [')']) = text at h'
  obtain ⟨hname', hlist'⟩ := h'
  obtain ⟨-, hdrop⟩ := takeWhile_dropWhile_signature hname (_ ++ [')'])
  obtain ⟨-, hdrop'⟩ := takeWhile_dropWhile_signature hname' (_ ++ [')'])
  rw [htext, hdrop'] at hdrop
  rw [List.append_cancel_right (List.cons.inj hdrop).2]

/-! ## What comes of a call -/

/-- What is to **come of the arguments** of a call whose signature stands at the given column. -/
inductive ArgumentsOutcome (column : Nat) (tags : List String) (arguments : List Token) :
    Except Fault Emission → Prop
  /-- There are more tags than arguments, or fewer. -/
  | wrongCount (hcount : tags.length ≠ arguments.length) :
    ArgumentsOutcome column tags arguments
      (.error ⟨column, .argumentCount tags.length arguments.length⟩)
  /-- An argument has a fault, and none before it has any. -/
  | faulty {index : Nat} {argument : Token} {cause : Cause} (hcount : tags.length = arguments.length)
    (hargument : arguments[index]? = some argument)
    (hfirst : IsFirstFault tags (arguments.map Token.text) index cause) :
    ArgumentsOutcome column tags arguments (.error ⟨argument.column, cause⟩)
  /-- The arguments are too many for the length field. -/
  | tooLong (hcount : tags.length = arguments.length)
    (hnone : ∀ index cause, ¬HasFault tags (arguments.map Token.text) index cause)
    (hlong : Record.maxPayloadLength < 4 + 32 * arguments.length) :
    ArgumentsOutcome column tags arguments
      (.error ⟨column, .payloadTooLong (4 + 32 * arguments.length)⟩)
  /-- Nothing is wrong. -/
  | emitted {label : String} {record : Record} (hcount : tags.length = arguments.length)
    (hnone : ∀ index cause, ¬HasFault tags (arguments.map Token.text) index cause)
    (hfits : 4 + 32 * arguments.length ≤ Record.maxPayloadLength) :
    ArgumentsOutcome column tags arguments (.ok (.labelled label record))

/-- What is to **come of a call** with the given tokens. -/
inductive CallOutcome (address signature : Token) (arguments : List Token) :
    Except Fault Emission → Prop
  /-- The first token is no address. -/
  | invalidAddress (haddress : ¬IsAddressText address.text.toList) :
    CallOutcome address signature arguments
      (.error ⟨address.column, .invalidAddress address.text⟩)
  /-- The second token is no signature. -/
  | invalidSignature (haddress : IsAddressText address.text.toList)
    (hsignature : ∀ tags, ¬SignatureText signature.text.toList tags) :
    CallOutcome address signature arguments
      (.error ⟨signature.column, .invalidSignature signature.text⟩)
  /-- The rest is up to the arguments. -/
  | called {tags : List String} {result : Except Fault Emission}
    (haddress : IsAddressText address.text.toList)
    (hsignature : SignatureText signature.text.toList tags)
    (houtcome : ArgumentsOutcome signature.column tags arguments result) :
    CallOutcome address signature arguments result

/-- The record of an instruction comes of its arguments. -/
theorem argumentsOutcome_record (instruction : Instruction) :
    ArgumentsOutcome instruction.signatureColumn instruction.signature.params instruction.arguments
      (instruction.record.map (.labelled instruction.label)) := by
  have hlength : (instruction.arguments.map Token.text).length = instruction.arguments.length :=
    List.length_map _
  rcases encodeArguments_cases instruction.signature.params
    (instruction.arguments.map Token.text) with ⟨hcount, hresult⟩ | ⟨hcount, hrest⟩
  · rw [hlength] at hcount hresult
    simp only [Instruction.record, hresult]
    exact .wrongCount hcount
  rw [hlength] at hcount
  rcases hrest with ⟨index, cause, hfirst, hresult⟩ | ⟨hnone, words, hresult, hwords⟩
  · obtain ⟨tag, text, -, htext, -⟩ := hfirst.hasFault
    rw [List.getElem?_map] at htext
    obtain ⟨argument, hargument, -⟩ := Option.map_eq_some_iff.1 htext
    have hcolumn : instruction.columnOf (some index) = argument.column := by
      simp [Instruction.columnOf, hargument]
    simp only [Instruction.record, hresult, hcolumn]
    exact .faulty hcount hargument hfirst
  · have hpayload : Record.payloadLength words = 4 + 32 * instruction.arguments.length := by
      rw [Record.payloadLength, hwords, hlength]
    simp only [Instruction.record, hresult, hpayload]
    split
    · next hlong => exact .tooLong hcount hnone hlong
    · next hfits => exact .emitted hcount hnone (Nat.not_lt.1 hfits)

/-- A line that is neither blank nor a comment is read as an instruction. -/
theorem emission_of_visible {raw : String} (hvisible : ¬IsGap raw.toList)
    (hcomment : ¬∃ gap rest, IsGap gap ∧ raw.toList = gap ++ '#' :: rest) :
    emission raw =
      (Instruction.parse (byteLength (raw.toList.takeWhile isBlank)) (trim raw.toList)).bind
        fun instruction => instruction.record.map (.labelled instruction.label) := by
  have hparse : Line.parse raw =
      (Instruction.parse (byteLength (raw.toList.takeWhile isBlank)) (trim raw.toList)).map
        .instruction := by
    unfold Line.parse
    split
    · next htrim => exact absurd (trim_eq_nil_iff.1 htrim) hvisible
    · next htrim => exact absurd ((head?_trim_eq_some_iff (by decide)).1 (by rw [htrim]; rfl)) hcomment
    · rfl
  rw [emission, hparse]
  cases Instruction.parse (byteLength (raw.toList.takeWhile isBlank)) (trim raw.toList) with
  | error fault => rfl
  | ok instruction => rfl

/-- A line with fewer than two tokens is malformed. -/
theorem exists_malformedLine {raw : String} {found : List Token} (hvisible : ¬IsGap raw.toList)
    (hcomment : ¬∃ gap rest, IsGap gap ∧ raw.toList = gap ++ '#' :: rest)
    (h : LineTokens raw found) (hfew : found.length < 2) :
    ∃ column text, emission raw = .error ⟨column, .malformedLine text⟩ := by
  rw [emission_of_visible hvisible hcomment, Instruction.parse_eq, h.tokens_labelAndBody]
  split
  · simp only [List.length_cons] at hfew
    omega
  · exact ⟨_, _, rfl⟩

/-- **What comes of a line with two or more tokens** is what is to come of them. -/
theorem callOutcome_emission {raw : String} {address signature : Token} {arguments : List Token}
    (hvisible : ¬IsGap raw.toList)
    (hcomment : ¬∃ gap rest, IsGap gap ∧ raw.toList = gap ++ '#' :: rest)
    (h : LineTokens raw (address :: signature :: arguments)) :
    CallOutcome address signature arguments (emission raw) := by
  have hword : IsWord signature.text.toList := h.isWord (by simp)
  rw [emission_of_visible hvisible hcomment, Instruction.parse_eq, h.tokens_labelAndBody]
  simp only [Instruction.ofTokens]
  cases haddress : Address.parse? address.text with
  | none =>
    refine .invalidAddress fun htext => ?_
    obtain ⟨target, htarget⟩ := isAddressText_iff.1 htext
    simp [haddress] at htarget
  | some target =>
    have htarget : IsAddressText address.text.toList := isAddressText_iff.2 ⟨target, haddress⟩
    cases hsignature : Signature.parse? signature.text with
    | none =>
      refine .invalidSignature htarget fun tags htags => ?_
      obtain ⟨parsed, hparsed, -⟩ := (signatureText_iff hword).1 htags
      simp [hsignature] at hparsed
    | some parsed =>
      exact .called htarget ((signatureText_iff hword).2 ⟨parsed, hsignature, rfl⟩)
        (argumentsOutcome_record ⟨_, target, parsed, signature.column, arguments⟩)

/-! ## The order of the faults -/

/-- Arguments are blamed for their number, for their length, or for what is wrong with one of them. -/
theorem ArgumentsOutcome.ne_error {column : Nat} {tags : List String} {arguments : List Token}
    {result : Except Fault Emission} (h : ArgumentsOutcome column tags arguments result)
    {fault : Fault} (hcount : ∀ expected given, fault.cause ≠ .argumentCount expected given)
    (hlong : ∀ length, fault.cause ≠ .payloadTooLong length)
    (hfault : ∀ tag text, ¬ArgumentFault tag text fault.cause) : result ≠ .error fault := by
  rintro rfl
  cases h with
  | wrongCount => exact hcount _ _ rfl
  | faulty _ _ hfirst =>
    obtain ⟨tag, text, -, -, hargument⟩ := hfirst.hasFault
    exact hfault tag text hargument
  | tooLong => exact hlong _ rfl

/-- The number of arguments is blamed exactly when it is wrong. -/
theorem ArgumentsOutcome.eq_argumentCount_iff {column : Nat} {tags : List String}
    {arguments : List Token} {result : Except Fault Emission}
    (h : ArgumentsOutcome column tags arguments result) :
    result = .error ⟨column, .argumentCount tags.length arguments.length⟩ ↔
      tags.length ≠ arguments.length := by
  cases h with
  | wrongCount hcount => exact iff_of_true rfl hcount
  | faulty hcount _ hfirst =>
    refine iff_of_false ?_ (not_not.2 hcount)
    rintro ⟨⟩
    obtain ⟨tag, text, -, -, hfault⟩ := hfirst.hasFault
    cases hfault
  | tooLong hcount => exact iff_of_false (by simp) (not_not.2 hcount)
  | emitted hcount => exact iff_of_false (by simp) (not_not.2 hcount)

/-- The first fault of the arguments is blamed, if their number is right. -/
theorem ArgumentsOutcome.eq_of_isFirstFault {column : Nat} {tags : List String}
    {arguments : List Token} {result : Except Fault Emission}
    (h : ArgumentsOutcome column tags arguments result) (hcount : tags.length = arguments.length)
    {index : Nat} {argument : Token} {cause : Cause} (hargument : arguments[index]? = some argument)
    (hfirst : IsFirstFault tags (arguments.map Token.text) index cause) :
    result = .error ⟨argument.column, cause⟩ := by
  cases h with
  | wrongCount hwrong => exact absurd hcount hwrong
  | faulty _ hother hfirst' =>
    obtain ⟨rfl, rfl⟩ := hfirst.unique hfirst'
    obtain rfl := Option.some.inj (hargument.symm.trans hother)
    rfl
  | tooLong _ hnone => exact absurd hfirst.hasFault (hnone _ _)
  | emitted _ hnone => exact absurd hfirst.hasFault (hnone _ _)

/-- Without a fault, the call is emitted if its payload fits. -/
theorem ArgumentsOutcome.of_not_hasFault {column : Nat} {tags : List String}
    {arguments : List Token} {result : Except Fault Emission}
    (h : ArgumentsOutcome column tags arguments result) (hcount : tags.length = arguments.length)
    (hnone : ∀ index cause, ¬HasFault tags (arguments.map Token.text) index cause) :
    (4 + 32 * arguments.length ≤ Record.maxPayloadLength → ∃ emitted, result = .ok emitted) ∧
      (Record.maxPayloadLength < 4 + 32 * arguments.length →
        result = .error ⟨column, .payloadTooLong (4 + 32 * arguments.length)⟩) := by
  cases h with
  | wrongCount hwrong => exact absurd hcount hwrong
  | faulty _ _ hfirst => exact absurd hfirst.hasFault (hnone _ _)
  | tooLong _ _ hlong => exact ⟨fun hfits => absurd hlong (Nat.not_lt.2 hfits), fun _ => rfl⟩
  | emitted _ _ hfits => exact ⟨fun _ => ⟨_, rfl⟩, fun hlong => absurd hlong (Nat.not_lt.2 hfits)⟩

namespace CallOutcome

variable {address signature : Token} {arguments : List Token} {result : Except Fault Emission}

/-- A call is not malformed. -/
theorem ne_malformedLine (h : CallOutcome address signature arguments result) (column : Nat)
    (text : String) : result ≠ .error ⟨column, .malformedLine text⟩ := by
  cases h with
  | invalidAddress => simp
  | invalidSignature => simp
  | called _ _ houtcome => exact houtcome.ne_error (by simp) (by simp) (by rintro tag token ⟨⟩)

/-- The first token is blamed exactly when it is no address. -/
theorem eq_invalidAddress_iff (h : CallOutcome address signature arguments result) :
    result = .error ⟨address.column, .invalidAddress address.text⟩ ↔
      ¬IsAddressText address.text.toList := by
  cases h with
  | invalidAddress haddress => exact iff_of_true rfl haddress
  | invalidSignature haddress => exact iff_of_false (by simp) (not_not.2 haddress)
  | called haddress _ houtcome =>
    refine iff_of_false (houtcome.ne_error (by simp) (by simp) ?_) (not_not.2 haddress)
    -- An argument with the same text as the first token would be an address too.
    intro tag token hfault
    cases hfault with
    | invalidAddress _ _ hliteral =>
      obtain ⟨digits, htext, hlength, hdigits⟩ := haddress
      exact hliteral ⟨digits, .inr htext, hlength, hdigits⟩

/-- After an address, the second token is blamed exactly when it is no signature. -/
theorem eq_invalidSignature_iff (h : CallOutcome address signature arguments result)
    (haddress : IsAddressText address.text.toList) :
    result = .error ⟨signature.column, .invalidSignature signature.text⟩ ↔
      ∀ tags, ¬SignatureText signature.text.toList tags := by
  cases h with
  | invalidAddress hnot => exact absurd haddress hnot
  | invalidSignature _ hsignature => exact iff_of_true rfl hsignature
  | called _ hsignature houtcome =>
    refine iff_of_false ?_ fun hnot => hnot _ hsignature
    exact houtcome.ne_error (by simp) (by simp) (by rintro tag token ⟨⟩)

/-- After an address and a signature, all is up to the arguments. -/
theorem argumentsOutcome (h : CallOutcome address signature arguments result)
    (haddress : IsAddressText address.text.toList) {tags : List String}
    (hsignature : SignatureText signature.text.toList tags) :
    ArgumentsOutcome signature.column tags arguments result := by
  cases h with
  | invalidAddress hnot => exact absurd haddress hnot
  | invalidSignature _ hnot => exact absurd hsignature (hnot tags)
  | called _ hother houtcome =>
    obtain rfl := hsignature.unique hother
    exact houtcome

end CallOutcome

namespace Draft

/-- A line fails with a fault exactly when the fault comes of it. -/
theorem addLine_eq_fault_iff {draft : Draft} {number : Nat} {raw : String} {column : Nat}
    {cause : Cause} :
    (draft.addLine number raw).1 = .error ⟨number, column, cause⟩ ↔
      emission raw = .error ⟨column, cause⟩ := by
  rw [addLine_fst_eq_error_iff]
  constructor
  · rintro ⟨⟨column', cause'⟩, hemission, ⟨⟩⟩
    exact hemission
  · exact fun hemission => ⟨_, hemission, rfl⟩

/-- **The first fault of a line is reported.** Every line has its tokens, those after its label, in one
way. If a line is neither blank nor a comment, it is malformed exactly when it has fewer than two
tokens. Otherwise the first token is blamed exactly when it is no address; after an address, the
second exactly when it is no signature; after a signature, its tags and the arguments exactly when
there are not as many of one as of the other. If there are, the first argument with a fault is blamed
for its fault, and a line without a fault is compiled unless its payload is too long. Neither the tags
of dollar signs nor the arguments after the blamed one matter: the line fails just so if other tags
and other texts that agree with its own as far as that have this first fault. -/
theorem addLine_precedence :
    (∀ raw : String, ∃! found, LineTokens raw found) ∧
    ∀ (draft : Draft) (number : Nat) (raw : String) (found : List Token),
      (¬∀ c ∈ raw.toList, isBlank c = true) →
      (¬∃ gap rest, (∀ c ∈ gap, isBlank c = true) ∧ raw.toList = gap ++ '#' :: rest) →
      LineTokens raw found →
      ((∃ column text, (draft.addLine number raw).1 = .error ⟨number, column, .malformedLine text⟩) ↔
        found.length < 2) ∧
      ∀ address signature arguments, found = address :: signature :: arguments →
        ((draft.addLine number raw).1 = .error ⟨number, address.column, .invalidAddress address.text⟩ ↔
          ¬IsAddressText address.text.toList) ∧
        (IsAddressText address.text.toList →
          ((draft.addLine number raw).1 =
              .error ⟨number, signature.column, .invalidSignature signature.text⟩ ↔
            ∀ tags, ¬SignatureText signature.text.toList tags) ∧
          ∀ tags, SignatureText signature.text.toList tags →
            ((draft.addLine number raw).1 =
                .error ⟨number, signature.column, .argumentCount tags.length arguments.length⟩ ↔
              tags.length ≠ arguments.length) ∧
            (tags.length = arguments.length →
              (∀ index argument cause, arguments[index]? = some argument →
                IsFirstFault tags (arguments.map Token.text) index cause →
                (draft.addLine number raw).1 = .error ⟨number, argument.column, cause⟩) ∧
              ((∀ index cause, ¬HasFault tags (arguments.map Token.text) index cause) →
                (4 + 32 * arguments.length ≤ 2 ^ 32 - 1 →
                  ∃ next, draft.addLine number raw = (.ok (), next)) ∧
                (2 ^ 32 - 1 < 4 + 32 * arguments.length →
                  (draft.addLine number raw).1 = .error ⟨number, signature.column,
                    .payloadTooLong (4 + 32 * arguments.length)⟩)) ∧
              ∀ tags' texts' index argument cause, IsFirstFault tags' texts' index cause →
                (∀ i ≤ index, (arguments.map Token.text)[i]? = texts'[i]?) →
                (∀ i ≤ index, texts'[i]? ≠ some "$" → tags[i]? = tags'[i]?) →
                arguments[index]? = some argument →
                (draft.addLine number raw).1 = .error ⟨number, argument.column, cause⟩)) := by
  refine ⟨existsUnique_lineTokens, ?_⟩
  intro draft number raw found hvisible hcomment hfound
  simp only [addLine_eq_fault_iff]
  refine ⟨?_, ?_⟩
  · constructor
    · rintro ⟨column, text, hmalformed⟩
      by_contra hmany
      obtain ⟨address, signature, arguments, rfl⟩ :
          ∃ address signature arguments, found = address :: signature :: arguments := by
        rcases found with _ | ⟨address, _ | ⟨signature, arguments⟩⟩
        · simp at hmany
        · simp at hmany
        · exact ⟨address, signature, arguments, rfl⟩
      exact (callOutcome_emission hvisible hcomment hfound).ne_malformedLine column text hmalformed
    · exact exists_malformedLine hvisible hcomment hfound
  rintro address signature arguments rfl
  have hcall := callOutcome_emission hvisible hcomment hfound
  refine ⟨hcall.eq_invalidAddress_iff, fun haddress =>
    ⟨hcall.eq_invalidSignature_iff haddress, fun tags hsignature => ?_⟩⟩
  have houtcome := hcall.argumentsOutcome haddress hsignature
  refine ⟨houtcome.eq_argumentCount_iff, fun hcount => ⟨?_, ?_, ?_⟩⟩
  · intro index argument cause hargument hfirst
    exact houtcome.eq_of_isFirstFault hcount hargument hfirst
  · intro hnone
    obtain ⟨hfits, hlong⟩ := houtcome.of_not_hasFault hcount hnone
    refine ⟨fun hle => ?_, hlong⟩
    obtain ⟨emitted, hemitted⟩ := hfits hle
    exact ⟨_, addLine_eq_ok_iff.2 ⟨emitted, hemitted, rfl⟩⟩
  · intro tags' texts' index argument cause hfirst htexts htags hargument
    exact houtcome.eq_of_isFirstFault hcount hargument (hfirst.congr htexts htags)

/-- A line with a tag that names no type, on a dollar sign, and with a fault in each argument after
that. -/
def manyFaults : String :=
  "x = 0xAb00000000000000000000000000000000000001 f(int,uint,string,address) $ 12z - nope"

/-- The tokens of the line. -/
def manyFaultsTokens : List Token :=
  [⟨"0xAb00000000000000000000000000000000000001", 5⟩, ⟨"f(int,uint,string,address)", 48⟩,
    ⟨"$", 75⟩, ⟨"12z", 77⟩, ⟨"-", 81⟩, ⟨"nope", 83⟩]

/-- The second argument is blamed, as it would be after a dollar sign with any other tag and without
the arguments that follow. -/
theorem manyFaults_precedence :
    LineTokens manyFaults manyFaultsTokens ∧
    IsFirstFault ["address", "uint"] ["$", "12z"] 1 (.invalidNumber "12z" (.invalidDigit 'z')) ∧
    ∀ draft : Draft, (draft.addLine 3 manyFaults).1 =
      .error ⟨3, 77, .invalidNumber "12z" (.invalidDigit 'z')⟩ := by
  have htokens : LineTokens manyFaults manyFaultsTokens :=
    ⟨_, _, @Divides.labelled ⟨[], ['x'], [' '], by decide +kernel, by decide +kernel,
      by decide +kernel⟩ (manyFaults.toList.drop 3) (by decide +kernel), by decide +kernel⟩
  have hfirst : IsFirstFault ["address", "uint"] ["$", "12z"] 1
      (.invalidNumber "12z" (.invalidDigit 'z')) := by
    refine ⟨⟨"uint", "12z", rfl, rfl, .invalidNumber (by decide) (.inl rfl) (by decide +kernel)⟩, ?_⟩
    rintro earlier hlt other ⟨tag, text, -, htext, hfault⟩
    obtain rfl : earlier = 0 := by omega
    exact hfault.ne_dollar (Option.some.inj htext).symm
  have haddress : IsAddressText "0xAb00000000000000000000000000000000000001".toList :=
    ⟨"Ab00000000000000000000000000000000000001".toList, by decide +kernel, by decide +kernel,
      List.all_eq_true.1 (by decide +kernel)⟩
  have hsignature : SignatureText "f(int,uint,string,address)".toList
      ["int", "uint", "string", "address"] :=
    (signatureText_iff (by decide +kernel)).2
      ⟨⟨"f", ["int", "uint", "string", "address"]⟩, by decide +kernel, rfl⟩
  have hvisible : ¬∀ c ∈ manyFaults.toList, isBlank c = true :=
    fun hall => absurd (hall 'x' (by decide +kernel)) (by decide)
  have hcomment : ¬∃ gap rest, IsGap gap ∧ manyFaults.toList = gap ++ '#' :: rest :=
    fun hall => absurd ((head?_trim_eq_some_iff (by decide)).2 hall) (by decide +kernel)
  refine ⟨htokens, hfirst, fun draft => ?_⟩
  obtain ⟨-, hcall⟩ := addLine_precedence.2 draft 3 manyFaults _ hvisible hcomment htokens
  refine ((((hcall _ _ _ rfl).2 haddress).2 _ hsignature).2 rfl).2.2 _ _ _ _ _ hfirst ?_ ?_ rfl
  · decide
  · decide

end Draft

end CallScript.Script
