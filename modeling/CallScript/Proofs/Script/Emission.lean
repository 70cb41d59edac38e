import CallScript.Proofs.Hexadecimal
import CallScript.Proofs.RecordStream
import CallScript.Script.Program

/-! # What lines add to a draft

Compiling a line is looked at in two halves: what the line emits, which depends on its text alone,
and how a draft takes that up, which cannot fail. All that can fail comes before the first change.

* **`emission`** is what a line emits; **`Draft.addLine_eq`** splits the compilation of a line with
  it, and says that a line with a fault leaves the draft as it was.
* **`Draft.attempt`** goes on with the draft that a line has left, whether or not the line failed;
  **`Draft.attemptAll`** does so for any number of lines.
* **`Draft.attemptAll_readsBack`**: whatever lines were tried, the finished program can be read back
  from its bytes and from its hexadecimal text. -/

namespace CallScript.Script

/-! ## Emissions -/

/-- What a line **emits**. -/
inductive Emission where
  /-- Nothing, as a comment does. -/
  | nothing
  /-- A padding record, as a blank line does. -/
  | padding
  /-- A record with a label, as an instruction does. -/
  | labelled (label : String) (record : Record)
  deriving DecidableEq

/-- The records of an emission. -/
def Emission.records : Emission → List Record
  | .nothing => []
  | .padding => [.pad]
  | .labelled _ record => [record]

/-- The record of an instruction, or what is wrong with it. -/
def Instruction.record (instruction : Instruction) : Except Fault Record :=
  let signature := instruction.signature
  match encodeArguments signature.params (instruction.arguments.map Token.text) with
  | .error fault => .error ⟨instruction.columnOf fault.index, fault.cause⟩
  | .ok words =>
    let length := Record.payloadLength words
    if Record.maxPayloadLength < length then
      .error ⟨instruction.signatureColumn, .payloadTooLong length⟩
    else .ok (.call instruction.target signature.selector words)

/-- What a line emits, or what is wrong with it. -/
def emission (raw : String) : Except Fault Emission :=
  match Line.parse raw with
  | .error fault => .error fault
  | .ok .blank => .ok .padding
  | .ok .comment => .ok .nothing
  | .ok (.instruction instruction) => instruction.record.map (.labelled instruction.label)

/-- The record of an instruction is a call with the encoded arguments, if their length fits. -/
theorem Instruction.record_eq_ok_iff {instruction : Instruction} {record : Record} :
    instruction.record = .ok record ↔
      ∃ words, encodeArguments instruction.signature.params (instruction.arguments.map Token.text) =
          .ok words ∧ record = .call instruction.target instruction.signature.selector words ∧
        record.Fits := by
  cases harguments : encodeArguments instruction.signature.params
      (instruction.arguments.map Token.text) with
  | error fault => simp [Instruction.record, harguments]
  | ok words =>
    -- The check of the length fails exactly for the records that do not fit.
    by_cases hlong : Record.maxPayloadLength < Record.payloadLength words
    · simp only [Instruction.record, harguments, hlong, if_true, reduceCtorEq, false_iff]
      rintro ⟨words', hwords, rfl, hfits⟩
      obtain rfl := Except.ok.inj hwords
      exact absurd hfits (Nat.not_le.2 hlong)
    · simp only [Instruction.record, harguments, hlong, if_false, Except.ok.injEq]
      constructor
      · rintro rfl
        exact ⟨words, rfl, rfl, Nat.not_lt.1 hlong⟩
      · rintro ⟨words', rfl, rfl, -⟩
        rfl

/-- A blank line emits padding, a comment nothing, and an instruction its record with its label. -/
theorem emission_eq_ok_iff {raw : String} {emitted : Emission} :
    emission raw = .ok emitted ↔
      Line.parse raw = .ok .blank ∧ emitted = .padding ∨
      Line.parse raw = .ok .comment ∧ emitted = .nothing ∨
      ∃ instruction record, Line.parse raw = .ok (.instruction instruction) ∧
        instruction.record = .ok record ∧ emitted = .labelled instruction.label record := by
  unfold emission
  cases Line.parse raw with
  | error fault => simp
  | ok line =>
    cases line with
    | blank => simp [eq_comm]
    | comment => simp [eq_comm]
    | instruction instruction =>
      cases hrecord : instruction.record with
      | error fault => simp [hrecord, Except.map]
      | ok record => simp [hrecord, Except.map, eq_comm]

/-- All records that a line emits fit. -/
theorem fits_of_emission {raw : String} {emitted : Emission} (h : emission raw = .ok emitted) :
    ∀ record ∈ emitted.records, record.Fits := by
  intro record hmem
  rcases emission_eq_ok_iff.1 h with ⟨-, rfl⟩ | ⟨-, rfl⟩ | ⟨instruction, other, -, hrecord, rfl⟩
  · obtain rfl := List.mem_singleton.1 hmem
    trivial
  · simp [Emission.records] at hmem
  · obtain rfl := List.mem_singleton.1 hmem
    obtain ⟨words, -, -, hfits⟩ := Instruction.record_eq_ok_iff.1 hrecord
    exact hfits

/-! ## Drafts that take up emissions -/

namespace Draft

/-- The draft with one more record. -/
def push (draft : Draft) (record : Record) : Draft :=
  { draft with records := draft.records.push record }

/-- The draft with one more record and its label. If the label has stood for another record, there
is one more redefinition. -/
def pushLabelled (draft : Draft) (line : Nat) (label : String) (record : Record) : Draft :=
  let index := draft.records.size
  let (previous?, labels) := draft.labels.define label index
  { records := draft.records.push record
    labels
    redefinitions :=
      match previous? with
      | some previous => draft.redefinitions.push ⟨line, label, previous, index⟩
      | none => draft.redefinitions }

/-- Take up what the line with the given number emits. -/
def emit (draft : Draft) (number : Nat) : Emission → Draft
  | .nothing => draft
  | .padding => draft.push .pad
  | .labelled label record => draft.pushLabelled number label record

end Draft

/-- Compiling an instruction either finds it faulty and changes nothing, or adds its record and its
label and does not fail. -/
theorem Drafting.run_instruction (draft : Draft) (number : Nat) (instruction : Instruction) :
    (Drafting.instruction number instruction).run draft =
      match instruction.record with
      | .ok record => (.ok (), draft.pushLabelled number instruction.label record)
      | .error fault => (.error (fault.atLine number), draft) := by
  unfold Drafting.instruction Instruction.record
  cases harguments : encodeArguments instruction.signature.params
      (instruction.arguments.map Token.text) with
  | error fault => simp [run_bind, harguments, Except.mapError, Fault.atLine]
  | ok words =>
    by_cases hlong : Record.maxPayloadLength < Record.payloadLength words
    · -- The payload is too long, and its record has not been added yet.
      simp [run_bind, harguments, Except.mapError, hlong, Fault.atLine]
    · -- From here on nothing fails; what is left to see is whether there is a warning.
      cases hprevious : draft.labels.get? instruction.label <;>
        simp [run_bind, harguments, Except.mapError, hlong, Draft.pushLabelled, LabelTable.define,
          hprevious]

namespace Draft

/-- Compiling a line is finding what it emits and taking that up. If there is nothing to take up
because of a fault, the draft is left as it was. -/
theorem addLine_eq (draft : Draft) (number : Nat) (raw : String) :
    draft.addLine number raw =
      match emission raw with
      | .ok emitted => (.ok (), draft.emit number emitted)
      | .error fault => (.error (fault.atLine number), draft) := by
  unfold addLine Drafting.line emission
  rw [Drafting.run_bind, Drafting.run_ofExcept]
  cases Line.parse raw with
  | error fault => rfl
  | ok line =>
    cases line with
    | blank => rfl
    | comment => rfl
    | instruction instruction =>
      show (Drafting.instruction number instruction).run draft = _
      rw [Drafting.run_instruction]
      cases hrecord : instruction.record <;> simp [hrecord, Except.map, emit]

@[simp] theorem addLines_nil (draft : Draft) : draft.addLines [] = (.ok (), draft) := rfl

/-- Compiling lines one after the other stops at the first fault. -/
theorem addLines_cons (draft : Draft) (number : Nat) (raw : String) (lines : List (Nat × String)) :
    draft.addLines ((number, raw) :: lines) =
      match emission raw with
      | .ok emitted => (draft.emit number emitted).addLines lines
      | .error fault => (.error (fault.atLine number), draft) := by
  show (Drafting.line number raw >>= fun _ => Drafting.lines lines).run draft = _
  have hline : (Drafting.line number raw).run draft = _ := addLine_eq draft number raw
  rw [Drafting.run_bind, hline]
  cases emission raw <;> rfl

/-- The records of an emission come after those of the draft. -/
@[simp] theorem records_emit (draft : Draft) (number : Nat) (emitted : Emission) :
    (draft.emit number emitted).records.toList = draft.records.toList ++ emitted.records := by
  cases emitted <;> simp [emit, push, pushLabelled, Emission.records]

/-! ## Lines that may fail -/

/-- What becomes of a draft when a numbered line is tried, whether or not the line fails. -/
def attempt (draft : Draft) (line : Nat × String) : Draft :=
  (draft.addLine line.1 line.2).2

/-- Try numbered lines one after the other, each on the draft that the lines before it have left,
starting from nothing. -/
def attemptAll (lines : List (Nat × String)) : Draft :=
  lines.foldl attempt empty

/-- An attempt takes up what the line emits, if it emits anything. -/
theorem attempt_eq (draft : Draft) (line : Nat × String) :
    draft.attempt line =
      match emission line.2 with
      | .ok emitted => draft.emit line.1 emitted
      | .error _ => draft := by
  unfold attempt
  rw [addLine_eq]
  cases emission line.2 <;> rfl

/-- Compiling lines of which none fails is trying them all. -/
theorem foldl_attempt_of_addLines {draft final : Draft} {lines : List (Nat × String)}
    (h : draft.addLines lines = (.ok (), final)) : lines.foldl attempt draft = final := by
  induction lines generalizing draft with
  | nil => simpa using h
  | cons line lines ih =>
    obtain ⟨number, raw⟩ := line
    rw [addLines_cons] at h
    rw [List.foldl_cons, attempt_eq]
    cases hemission : emission raw with
    | ok emitted =>
      simp only [hemission] at h ⊢
      exact ih h
    | error fault => simp [hemission] at h

/-- All records of a draft **fit**. -/
def Fits (draft : Draft) : Prop :=
  ∀ record ∈ draft.records.toList, record.Fits

/-- Trying one more line keeps all records fitting, whether or not the line fails. -/
theorem Fits.attempt {draft : Draft} (h : draft.Fits) (line : Nat × String) :
    (draft.attempt line).Fits := by
  rw [attempt_eq]
  cases hemission : emission line.2 with
  | error fault => exact h
  | ok emitted =>
    intro record hmem
    -- A record of the next draft is an old one or one that the line emits.
    rw [records_emit, List.mem_append] at hmem
    rcases hmem with hold | hnew
    · exact h record hold
    · exact fits_of_emission hemission record hnew

/-- Trying any number of lines keeps all records fitting. -/
theorem Fits.foldl_attempt {draft : Draft} (h : draft.Fits) (lines : List (Nat × String)) :
    (lines.foldl Draft.attempt draft).Fits := by
  induction lines generalizing draft with
  | nil => exact h
  | cons line lines ih => exact ih (h.attempt line)

/-- The draft before the first line has no record that does not fit. -/
theorem fits_empty : empty.Fits := by
  intro record hmem
  simp [empty] at hmem

end Draft

/-! ## Programs that can be read back -/

/-- A program **reads back** when all its records fit, its hexadecimal text without the marker is
read as its bytes, and its bytes are read as its records. -/
structure Program.ReadsBack (program : Program) : Prop where
  /-- The length of every payload can be written. -/
  fits : ∀ record ∈ program.records, record.Fits
  /-- The text is read as a block of as many bytes as are counted for the program. -/
  hex : (Hex.decodeBlock? program.size (String.ofList (Hex.dropMarker program.hex.toList))).map
    Block.toList = some program.bytes
  /-- The bytes are read as the records. -/
  bytes : disassemble program.bytes = .ok program.records

/-- The text of a program without its marker is the digits of its bytes. -/
theorem Program.dropMarker_hex (program : Program) :
    Hex.dropMarker program.hex.toList = Hex.digits program.bytes := by
  rw [Program.toList_hex]
  rfl

/-- A program reads back as soon as its records fit. -/
theorem Program.readsBack_of_fits {program : Program}
    (h : ∀ record ∈ program.records, record.Fits) : program.ReadsBack := by
  refine ⟨h, ?_, disassemble_encodeAll h⟩
  -- The block is as long as the program is counted to be, and holds its bytes.
  have hsize : program.bytes.length = program.size := Record.length_encodeAll program.records
  have hblock : Hex.decodeBlock? program.size (String.ofList (Hex.digits program.bytes)) =
      some ⟨program.bytes, hsize⟩ := by
    rw [Hex.decodeBlock?_eq_some_iff, String.toList_ofList]
    exact Hex.decode?_digits program.bytes
  rw [Program.dropMarker_hex, hblock]
  rfl

/-- A script compiles to the draft of all its lines, if none of them fails. -/
theorem compile_eq_ok_iff {source : String} {program : Program} :
    compile source = .ok program ↔
      ∃ final, Draft.empty.addLines (numberedLines source) = (.ok (), final) ∧
        final.finish = program := by
  unfold compile draft
  rcases Draft.empty.addLines (numberedLines source) with ⟨error | _, final⟩ <;> simp

/-- A script without a fault compiles to a program. -/
theorem exists_compile_eq_ok {source : String} (h : (compile source).isOk = true) :
    ∃ program, compile source = .ok program := by
  cases hcompile : compile source with
  | error error => simp [hcompile, Except.isOk, Except.toBool] at h
  | ok program => exact ⟨program, rfl⟩

/-- **Every program reads back.** Whatever numbered lines are tried, in any order and whether or not
they fail, the finished program reads back, and so does the program of a script that compiles. -/
theorem Draft.attemptAll_readsBack :
    (∀ lines : List (Nat × String), (Draft.attemptAll lines).finish.ReadsBack) ∧
      ∀ (source : String) (program : Program), compile source = .ok program →
        program.ReadsBack := by
  have hall : ∀ lines : List (Nat × String), (Draft.attemptAll lines).finish.ReadsBack :=
    fun lines => Program.readsBack_of_fits (Draft.fits_empty.foldl_attempt lines)
  refine ⟨hall, ?_⟩
  intro source program h
  obtain ⟨final, hfinal, rfl⟩ := compile_eq_ok_iff.1 h
  obtain rfl := Draft.foldl_attempt_of_addLines hfinal
  exact hall (numberedLines source)

/-- Lines in any order, of which the second fails, and a script with a call. -/
theorem attemptAll_readsBack_with_fault :
    (Draft.attemptAll [(3, ""), (3, "?"), (1, "# note")]).finish.ReadsBack ∧
      ∃ program, compile "0xAb00000000000000000000000000000000000001 f(uint) 7" = .ok program ∧
        program.ReadsBack := by
  obtain ⟨program, hprogram⟩ :
      ∃ program, compile "0xAb00000000000000000000000000000000000001 f(uint) 7" = .ok program :=
    exists_compile_eq_ok (by decide +kernel)
  exact ⟨Draft.attemptAll_readsBack.1 _, program, hprogram,
    Draft.attemptAll_readsBack.2 _ program hprogram⟩

end CallScript.Script
