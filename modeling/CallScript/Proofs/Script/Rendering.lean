import CallScript.Proofs.Script.Emission
import CallScript.Proofs.Script.Grammar
import Mathlib.Data.List.Forall2

/-! # Scripts and their hexadecimal text

What a script compiles to, said line by line and character by character, without records or bytes.

* **`ArgumentBlock`** relates a type tag and an argument to the 64 digits of its word.
* **`Renders`** relates a line to the digits of what it compiles to, and **`Renders.unique`** says
  that a line has at most one rendering.
* **`compile_renders`**: the text of a program is the marker and the renderings of the lines in
  order. -/

namespace CallScript.Script

/-! ## Arguments -/

/-- The **block** of an argument: the 64 digits of its word, as its type tag demands. -/
inductive ArgumentBlock : List Char → List Char → List Char → Prop
  /-- A dollar sign fills its block, whatever the tag. -/
  | placeholder {tag : List Char} : ArgumentBlock tag ['$'] (List.replicate 64 'f')
  /-- An address stands at the end of its block. -/
  | address {tag token digits : List Char} (htag : tag = "address".toList)
    (hmarked : MaybeMarked token digits) (hlength : digits.length = 40)
    (hdigits : ∀ c ∈ digits, c.isHexDigit = true) :
    ArgumentBlock tag token (List.replicate 24 '0' ++ digits.map Char.toLower)
  /-- A number is written in hexadecimal, with zeros before it. -/
  | number {tag token : List Char} {value : Nat}
    (htag : tag = "uint256".toList ∨ tag = "uint".toList)
    (hnumeral : Numeral token value) (hbound : value < 2 ^ 256) :
    ArgumentBlock tag token (Hex.numeral 64 value)
  /-- A byte string stands at the start of its block, with zeros after it. -/
  | byteString {tag token digits : List Char} (htag : tag = "bytes32".toList)
    (hmarked : MaybeMarked token digits) (hlength : digits.length ≤ 64)
    (hdigits : ∀ c ∈ digits, c.isHexDigit = true) :
    ArgumentBlock tag token ((digits.map Char.toLower).rightpad 64 '0')

/-- The blocks of all arguments, one after the other. There are as many tags as arguments. -/
inductive ArgumentBlocks : List (List Char) → List (List Char) → List Char → Prop
  /-- No arguments. -/
  | nil : ArgumentBlocks [] [] []
  /-- A first argument and further ones. -/
  | cons {tag token block blocks : List Char} {tags tokens : List (List Char)}
    (hblock : ArgumentBlock tag token block) (hblocks : ArgumentBlocks tags tokens blocks) :
    ArgumentBlocks (tag :: tags) (token :: tokens) (block ++ blocks)

/-- The dollar sign is not a literal of any type. -/
theorem not_isHexDigit_dollar {digits : List Char} (hmarked : MaybeMarked ['$'] digits) :
    ¬∀ c ∈ digits, c.isHexDigit = true := by
  intro hdigits
  rcases hmarked with rfl | hmarked
  · exact absurd (hdigits '$' List.mem_cons_self) (by decide)
  · simp at hmarked

/-- The dollar sign is not a numeral. -/
theorem not_numeral_dollar {value : Nat} : ¬Numeral ['$'] value := by
  rintro (⟨-, hdigits⟩ | _)
  exact absurd (hdigits '$' List.mem_cons_self) (by decide)

/-- An argument has at most one block. -/
theorem ArgumentBlock.unique {tag token block block' : List Char}
    (h : ArgumentBlock tag token block) (h' : ArgumentBlock tag token block') : block = block' := by
  -- Each tag belongs to one kind of literal, and no literal is a dollar sign.
  cases h with
  | placeholder =>
    cases h' with
    | placeholder => rfl
    | address _ hmarked _ hdigits => exact absurd hdigits (not_isHexDigit_dollar hmarked)
    | number _ hnumeral _ => exact absurd hnumeral not_numeral_dollar
    | byteString _ hmarked _ hdigits => exact absurd hdigits (not_isHexDigit_dollar hmarked)
  | address htag hmarked _ hdigits =>
    cases h' with
    | placeholder => exact absurd hdigits (not_isHexDigit_dollar hmarked)
    | address _ hmarked' _ hdigits' => rw [hmarked.unique hmarked' hdigits hdigits']
    | number htag' => simp [htag] at htag'
    | byteString htag' => simp [htag] at htag'
  | number htag hnumeral =>
    cases h' with
    | placeholder => exact absurd hnumeral not_numeral_dollar
    | address htag' => simp [htag'] at htag
    | number _ hnumeral' => rw [hnumeral.unique hnumeral']
    | byteString htag' => simp [htag'] at htag
  | byteString htag hmarked _ hdigits =>
    cases h' with
    | placeholder => exact absurd hdigits (not_isHexDigit_dollar hmarked)
    | address htag' => simp [htag] at htag'
    | number htag' => simp [htag] at htag'
    | byteString _ hmarked' _ hdigits' => rw [hmarked.unique hmarked' hdigits hdigits']

/-- Arguments have at most one list of blocks. -/
theorem ArgumentBlocks.unique {tags tokens : List (List Char)} {blocks blocks' : List Char}
    (h : ArgumentBlocks tags tokens blocks) (h' : ArgumentBlocks tags tokens blocks') :
    blocks = blocks' := by
  induction h generalizing blocks' with
  | nil =>
    cases h'
    rfl
  | cons hblock hblocks ih =>
    cases h' with
    | cons hblock' hblocks' => rw [hblock.unique hblock', ih hblocks']

/-- A word with an address is printed as 24 zeros and the digits of the address. -/
theorem digits_ofAddress (address : Address) :
    Hex.digits (Word.ofAddress address).bytes.toList =
      List.replicate 24 '0' ++ Hex.digits address.bytes.toList := by
  have hzeros : Hex.digits (List.replicate 12 0x00) = List.replicate 24 '0' :=
    Hex.digits_replicate (by decide) 12
  rw [← hzeros, ← Hex.digits_append]
  rfl

/-- The word of a literal is printed as its block. -/
theorem ArgumentType.block_of_encode {tag token : String} {type : ArgumentType} {word : Word}
    (htag : ArgumentType.ofTag? tag = some type) (h : type.encode token = .ok word) :
    ArgumentBlock tag.toList token.toList (Hex.digits word.bytes.toList) := by
  unfold ArgumentType.ofTag? at htag
  -- Tag by tag: each has its own kind of literal and its own way to fill the block.
  split at htag
  · next hname =>
    obtain rfl := Option.some.inj htag
    cases haddress : Address.parseLenient? token with
    | none => simp [ArgumentType.encode, haddress] at h
    | some address =>
      obtain rfl : Word.ofAddress address = word := by
        simpa [ArgumentType.encode, haddress] using h
      obtain ⟨digits, hmarked, hlength, hdigits, hlower⟩ := Address.digits_of_parseLenient? haddress
      rw [digits_ofAddress, hlower]
      exact .address (congrArg String.toList hname) hmarked hlength hdigits
  split at htag
  · next hname =>
    obtain rfl := Option.some.inj htag
    cases hnumber : Word.parseUint token with
    | error e => simp [ArgumentType.encode, hnumber, Except.mapError] at h
    | ok number =>
      obtain rfl : number = word := by
        simpa [ArgumentType.encode, hnumber, Except.mapError] using h
      rw [Word.digits_bytes]
      refine .number ?_ (Word.numeral_of_parseUint hnumber) number.toNat_lt
      rcases hname with rfl | rfl
      · exact .inl rfl
      · exact .inr rfl
  split at htag
  · next hname =>
    obtain rfl := Option.some.inj htag
    cases hstring : Word.parseBytes32 token with
    | error e => simp [ArgumentType.encode, hstring, Except.mapError] at h
    | ok content =>
      obtain rfl : content = word := by
        simpa [ArgumentType.encode, hstring, Except.mapError] using h
      obtain ⟨digits, hmarked, hlength, hdigits, hlower⟩ := Word.digits_of_parseBytes32 hstring
      rw [hlower]
      exact .byteString (congrArg String.toList hname) hmarked hlength hdigits
  · simp at htag

/-- A word that encodes an argument is printed as the argument's block. -/
theorem block_of_encodeArgument {tag token : String} {word : Word}
    (h : encodeArgument tag token = .ok word) :
    ArgumentBlock tag.toList token.toList (Hex.digits word.bytes.toList) := by
  unfold encodeArgument at h
  split at h
  · next hdollar =>
    obtain rfl := Except.ok.inj h
    rw [hdollar, Word.digits_placeholder]
    exact .placeholder
  · cases htype : ArgumentType.ofTag? tag with
    | none => simp [ArgumentType.ofTag, htype] at h
    | some type =>
      rw [ArgumentType.ofTag, htype] at h
      exact ArgumentType.block_of_encode htype h

/-- Words that encode arguments are printed as their blocks. -/
theorem blocks_of_encodeEach {index : Nat} {tags tokens : List String} {words : List Word}
    (hlength : tags.length = tokens.length)
    (h : encodeEach index (tags.zip tokens) = .ok words) :
    ArgumentBlocks (tags.map String.toList) (tokens.map String.toList)
        (words.flatMap fun word => Hex.digits word.bytes.toList) ∧
      words.length = tokens.length := by
  induction tags generalizing index tokens words with
  | nil =>
    obtain rfl : tokens = [] := List.length_eq_zero_iff.1 hlength.symm
    obtain rfl := Except.ok.inj h
    exact ⟨.nil, rfl⟩
  | cons tag tags ih =>
    obtain ⟨token, tokens, rfl⟩ := List.exists_cons_of_length_eq_add_one hlength.symm
    rw [List.zip_cons_cons, encodeEach] at h
    split at h
    · simp at h
    · next word hword =>
      cases hrest : encodeEach (index + 1) (tags.zip tokens) with
      | error fault => simp [hrest, Except.map] at h
      | ok others =>
        obtain rfl : word :: others = words := by simpa [hrest, Except.map] using h
        obtain ⟨hblocks, hcount⟩ := ih (Nat.succ.inj hlength) hrest
        exact ⟨.cons (block_of_encodeArgument hword) hblocks, by simp [hcount]⟩

/-! ## Lines -/

/-- The digits of a call: the opcode, the address, the length of what follows, the selector, and the
blocks of the given number of arguments. -/
def callDigits (address : List Char) (selector : Selector) (count : Nat) (blocks : List Char) :
    List Char :=
  ['0', '1'] ++ address ++ Hex.numeral 8 (4 + 32 * count) ++
    Hex.numeral 8 selector.bytes.toList.value ++ blocks

/-- The **rendering** of a line: the digits of what it compiles to. -/
inductive Renders : List Char → List Char → Prop
  /-- A blank line is one byte of padding. -/
  | blank {line : List Char} (hgap : IsGap line) : Renders line ['f', 'f']
  /-- Of a comment nothing is left. -/
  | comment {gap rest : List Char} (hgap : IsGap gap) : Renders (gap ++ '#' :: rest) []
  /-- An instruction is a call of the address in lowercase, with the selector of the signature as it
  is written and the blocks of the arguments. -/
  | instruction {line blocks : List Char} {written : InstructionText}
    (hspells : written.Spells line) (hblocks : ArgumentBlocks written.tags written.arguments blocks)
    (hfits : 4 + 32 * written.arguments.length < 2 ^ 32) :
    Renders line (callDigits (written.digits.map Char.toLower) (Selector.hash written.signature)
      written.arguments.length blocks)

/-- The digits of what a line says. This is the rendering of the line, in terms of what was read
from it. -/
inductive Line.Prints : Line → List Char → Prop
  /-- One byte of padding. -/
  | blank : Line.Prints .blank ['f', 'f']
  /-- Nothing. -/
  | comment : Line.Prints .comment []
  /-- The fields of a call. -/
  | instruction {instruction : Instruction} {blocks : List Char}
    (hblocks : ArgumentBlocks (instruction.signature.params.map String.toList)
      (instruction.arguments.map fun token => token.text.toList) blocks)
    (hfits : 4 + 32 * instruction.arguments.length < 2 ^ 32) :
    Line.Prints (.instruction instruction) (callDigits (Hex.digits instruction.target.bytes.toList)
      instruction.signature.selector instruction.arguments.length blocks)

/-- What a line says has at most one list of digits. -/
theorem Line.Prints.unique {line : Line} {output output' : List Char} (h : line.Prints output)
    (h' : line.Prints output') : output = output' := by
  cases h with
  | blank =>
    cases h'
    rfl
  | comment =>
    cases h'
    rfl
  | instruction hblocks =>
    cases h' with
    | instruction hblocks' => rw [hblocks.unique hblocks']

/-- The rendering of a line is the digits of what is read from it. -/
theorem renders_iff {raw : String} {output : List Char} :
    Renders raw.toList output ↔ ∃ line, Line.parse raw = .ok line ∧ line.Prints output := by
  constructor
  · intro h
    generalize htext : raw.toList = text at h
    cases h with
    | blank hgap =>
      rw [← htext] at hgap
      exact ⟨.blank, Line.parse_eq_blank_iff.2 hgap, .blank⟩
    | comment hgap => exact ⟨.comment, Line.parse_eq_comment_iff.2 ⟨_, _, hgap, htext⟩, .comment⟩
    | @instruction _ blocks written hspells hblocks hfits =>
      rw [← htext] at hspells
      obtain ⟨instruction, hparse, hreads⟩ := Line.parse_of_spells hspells
      -- What is read and what is written agree in everything that is printed.
      rw [← hreads.target, ← hreads.selector_eq, ← hreads.length_arguments]
      rw [← hreads.length_arguments] at hfits
      rw [← hreads.map_params, ← hreads.arguments] at hblocks
      exact ⟨.instruction instruction, hparse, .instruction hblocks hfits⟩
  · rintro ⟨line, hparse, hprints⟩
    cases hprints with
    | blank => exact .blank (Line.parse_eq_blank_iff.1 hparse)
    | comment =>
      obtain ⟨gap, rest, hgap, htext⟩ := Line.parse_eq_comment_iff.1 hparse
      rw [htext]
      exact .comment hgap
    | @instruction instruction blocks hblocks hfits =>
      obtain ⟨written, hspells, hreads⟩ := Line.spells_of_parse hparse
      rw [hreads.target, hreads.selector_eq, hreads.length_arguments]
      rw [hreads.length_arguments] at hfits
      rw [hreads.map_params, hreads.arguments] at hblocks
      exact .instruction hspells hblocks hfits

/-- A line has at most one rendering. -/
theorem Renders.unique {line output output' : List Char} (h : Renders line output)
    (h' : Renders line output') : output = output' := by
  have htext : (String.ofList line).toList = line := String.toList_ofList
  rw [← htext] at h h'
  obtain ⟨parsed, hparse, hprints⟩ := renders_iff.1 h
  obtain ⟨parsed', hparse', hprints'⟩ := renders_iff.1 h'
  obtain rfl : parsed = parsed' := Except.ok.inj (hparse.symm.trans hparse')
  exact hprints.unique hprints'

/-! ## Programs -/

/-- A call is printed field by field. -/
theorem digits_encode_call {target : Address} {selector : Selector} {words : List Word}
    (hfits : (Record.call target selector words).Fits) :
    Hex.digits (Record.call target selector words).encode =
      callDigits (Hex.digits target.bytes.toList) selector words.length
        (words.flatMap fun word => Hex.digits word.bytes.toList) := by
  have hlength : Hex.digits (Bytes.bigEndian 4 (Record.payloadLength words)) =
      Hex.numeral 8 (4 + 32 * words.length) := by
    have hfour := Bytes.length_bigEndian 4 (Record.payloadLength words)
    have hne : Bytes.bigEndian 4 (Record.payloadLength words) ≠ [] := by
      intro hnil
      simp [hnil] at hfour
    have hbound : Record.payloadLength words < 256 ^ 4 := Nat.lt_succ_of_le hfits
    rw [Hex.digits_eq_numeral hne, hfour, Bytes.value_bigEndian_of_lt hbound]
    rfl
  -- The fields are printed one by one, the words of the payload each for itself.
  have hselector := Hex.digits_toList (by decide) selector.bytes
  have hwords : Hex.digits (words.flatMap fun word => word.bytes.toList) =
      words.flatMap fun word => Hex.digits word.bytes.toList := List.flatMap_assoc
  rw [Record.encode, Hex.digits_cons, Hex.digits_append, Hex.digits_append, Hex.digits_append,
    hlength, hselector, hwords]
  simp only [callDigits, List.append_assoc]
  rfl

/-- Words that encode the arguments of a call are printed as their blocks. -/
theorem blocks_of_encodeArguments {tags tokens : List String} {words : List Word}
    (h : encodeArguments tags tokens = .ok words) :
    ArgumentBlocks (tags.map String.toList) (tokens.map String.toList)
        (words.flatMap fun word => Hex.digits word.bytes.toList) ∧
      words.length = tokens.length := by
  unfold encodeArguments at h
  split at h
  · simp at h
  · next hlength => exact blocks_of_encodeEach (Decidable.not_not.1 hlength) h

/-- What a line emits is printed as its rendering. -/
theorem renders_of_emission {raw : String} {emitted : Emission} (h : emission raw = .ok emitted) :
    Renders raw.toList (Hex.digits (Record.encodeAll emitted.records)) := by
  rw [renders_iff]
  rcases emission_eq_ok_iff.1 h with ⟨hparse, rfl⟩ | ⟨hparse, rfl⟩ |
    ⟨instruction, record, hparse, hrecord, rfl⟩
  · exact ⟨.blank, hparse, .blank⟩
  · exact ⟨.comment, hparse, .comment⟩
  · obtain ⟨words, hwords, rfl, hfits⟩ := Instruction.record_eq_ok_iff.1 hrecord
    refine ⟨.instruction instruction, hparse, ?_⟩
    obtain ⟨hblocks, hcount⟩ := blocks_of_encodeArguments hwords
    rw [List.map_map] at hblocks
    rw [List.length_map] at hcount
    rw [Emission.records, Record.encodeAll_cons, Record.encodeAll_nil, List.append_nil,
      digits_encode_call hfits, hcount]
    refine .instruction hblocks ?_
    rw [← hcount]
    exact Nat.lt_succ_of_le hfits

/-- The lines that a draft takes up are printed after what it has, each as its rendering. -/
theorem Draft.renders_of_addLines {draft final : Draft} {lines : List (Nat × String)}
    (h : draft.addLines lines = (.ok (), final)) :
    ∃ outputs, List.Forall₂ Renders (lines.map fun line => line.2.toList) outputs ∧
      Hex.digits (Record.encodeAll final.records.toList) =
        Hex.digits (Record.encodeAll draft.records.toList) ++ outputs.flatten := by
  induction lines generalizing draft with
  | nil =>
    obtain rfl : draft = final := by simpa using h
    exact ⟨[], .nil, by simp⟩
  | cons line lines ih =>
    obtain ⟨number, raw⟩ := line
    rw [addLines_cons] at h
    cases hemission : emission raw with
    | error fault => simp [hemission] at h
    | ok emitted =>
      rw [hemission] at h
      obtain ⟨outputs, houtputs, hfinal⟩ := ih h
      refine ⟨Hex.digits (Record.encodeAll emitted.records) :: outputs,
        .cons (renders_of_emission hemission) houtputs, ?_⟩
      rw [hfinal, records_emit, Record.encodeAll_append, Hex.digits_append, List.flatten_cons,
        List.append_assoc]

/-- The texts of the numbered lines of a script are the pieces between its newlines. -/
theorem map_numberedLines (source : String) :
    ((numberedLines source).map fun line => line.2.toList) = source.toList.splitOn '\n' := by
  apply List.ext_getElem
  · simp [numberedLines, splitLines]
  · intro i hleft hright
    simp [numberedLines, splitLines]

/-- **The text of a program.** If a script compiles, every line has a rendering, there is no other
way to render the lines, and the text of the program is the marker `0x` and these renderings in
order. -/
theorem compile_renders {source : String} {program : Program} (h : compile source = .ok program) :
    ∃ outputs, List.Forall₂ Renders (source.toList.splitOn '\n') outputs ∧
      (∀ others, List.Forall₂ Renders (source.toList.splitOn '\n') others → others = outputs) ∧
      program.hex = "0x" ++ String.ofList outputs.flatten := by
  obtain ⟨final, hfinal, rfl⟩ := compile_eq_ok_iff.1 h
  obtain ⟨outputs, houtputs, hdigits⟩ := Draft.renders_of_addLines hfinal
  rw [map_numberedLines] at houtputs
  have hunique : Relator.RightUnique Renders := fun _ _ _ => Renders.unique
  refine ⟨outputs, houtputs, ?_, ?_⟩
  · intro others hothers
    exact List.right_unique_forall₂' hunique hothers houtputs
  · show "0x" ++ String.ofList (Hex.digits (Record.encodeAll final.records.toList)) = _
    rw [hdigits]
    rfl

/-- A script with a blank line, a comment and a labelled call. -/
def sampleScript : String :=
  "\n # note\nx = 0xAb00000000000000000000000000000000000001 f(uint,bytes32) 7 $"

/-- The sample compiles and is rendered line by line. -/
theorem sampleScript_renders :
    ∃ program, compile sampleScript = .ok program ∧
      ∃ outputs, List.Forall₂ Renders (sampleScript.toList.splitOn '\n') outputs ∧
        (∀ others, List.Forall₂ Renders (sampleScript.toList.splitOn '\n') others →
          others = outputs) ∧
        program.hex = "0x" ++ String.ofList outputs.flatten := by
  have hok : (compile sampleScript).isOk = true := by decide +kernel
  obtain ⟨program, hprogram⟩ := exists_compile_eq_ok hok
  exact ⟨program, hprogram, compile_renders hprogram⟩

end CallScript.Script
