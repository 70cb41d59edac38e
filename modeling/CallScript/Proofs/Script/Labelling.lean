import CallScript.Proofs.Script.Grammar
import CallScript.Proofs.Script.LabelTable
import CallScript.Proofs.Script.Rendering
import Mathlib.Data.Finset.Card

/-! # The labels of a program

Which record each label of a program stands for, said in terms of the lines of the script. A label may
be defined more than once, and its last definition counts.

* **`LineKind`** is what a line adds to a program, and **`HasKind`** says which lines add it.
* **`LastLabelled`** says which record the last line with a label has.
* **`Draft.Tracks`** relates a draft to the kinds of the lines that were compiled, and is kept by
  every line.
* **`compile_labels`**: the label table of a program is the map of last definitions. -/

namespace CallScript.Script

/-! ## Kinds of lines -/

/-- The **kind** of a line: what it adds to a program. -/
inductive LineKind where
  /-- A padding record. -/
  | blank
  /-- Nothing. -/
  | comment
  /-- A call that has a label. -/
  | call (label : String)
  deriving DecidableEq

/-- The label of a kind of line. -/
def LineKind.label? : LineKind → Option String
  | .call label => some label
  | _ => none

/-- The opcodes of the records that a kind of line adds. -/
def LineKind.opcodes : LineKind → List Opcode
  | .blank => [.pad]
  | .comment => []
  | .call _ => [.call]

/-- The label that a written instruction has: the one in front of it, or else the function's name. -/
def InstructionText.effectiveLabel (written : InstructionText) : String :=
  String.ofList (written.label.getD written.name)

/-- A line **has** a kind: it is blank, a comment, or spells an instruction with the label. -/
inductive HasKind : List Char → LineKind → Prop
  /-- A line of blanks only. -/
  | blank {line : List Char} (hgap : IsGap line) : HasKind line .blank
  /-- A line that starts with `#`, after blanks. -/
  | comment {gap rest : List Char} (hgap : IsGap gap) : HasKind (gap ++ '#' :: rest) .comment
  /-- An instruction. -/
  | call {line : List Char} {written : InstructionText} (hspells : written.Spells line) :
    HasKind line (.call written.effectiveLabel)

/-- The kind of what a line says. -/
def Line.kind : Line → LineKind
  | .blank => .blank
  | .comment => .comment
  | .instruction parsed => .call parsed.label

/-- An instruction has the label that is written. -/
theorem Instruction.Reads.label_eq {instruction : Instruction} {written : InstructionText}
    (h : instruction.Reads written) : instruction.label = written.effectiveLabel := by
  rw [Instruction.label, InstructionText.effectiveLabel, h.label, h.signature]
  cases written.label <;> rfl

/-- A line has the kind of what is read from it. -/
theorem hasKind_iff {raw : String} {kind : LineKind} :
    HasKind raw.toList kind ↔ ∃ line, Line.parse raw = .ok line ∧ line.kind = kind := by
  constructor
  · intro h
    generalize htext : raw.toList = text at h
    cases h with
    | blank hgap =>
      rw [← htext] at hgap
      exact ⟨.blank, Line.parse_eq_blank_iff.2 hgap, rfl⟩
    | comment hgap => exact ⟨.comment, Line.parse_eq_comment_iff.2 ⟨_, _, hgap, htext⟩, rfl⟩
    | call hspells =>
      rw [← htext] at hspells
      obtain ⟨instruction, hparse, hreads⟩ := Line.parse_of_spells hspells
      exact ⟨.instruction instruction, hparse, congrArg LineKind.call hreads.label_eq⟩
  · rintro ⟨line, hparse, rfl⟩
    cases line with
    | blank => exact .blank (Line.parse_eq_blank_iff.1 hparse)
    | comment =>
      obtain ⟨gap, rest, hgap, htext⟩ := Line.parse_eq_comment_iff.1 hparse
      rw [htext]
      exact .comment hgap
    | instruction instruction =>
      obtain ⟨written, hspells, hreads⟩ := Line.spells_of_parse hparse
      rw [Line.kind, hreads.label_eq]
      exact .call hspells

/-- A line has at most one kind. -/
theorem HasKind.unique {line : List Char} {kind kind' : LineKind} (h : HasKind line kind)
    (h' : HasKind line kind') : kind = kind' := by
  have htext : (String.ofList line).toList = line := String.toList_ofList
  rw [← htext] at h h'
  obtain ⟨parsed, hparse, rfl⟩ := hasKind_iff.1 h
  obtain ⟨parsed', hparse', rfl⟩ := hasKind_iff.1 h'
  rw [Except.ok.inj (hparse.symm.trans hparse')]

/-! ## Last definitions -/

/-- The number of records that lines add: one for each line that is not a comment. -/
def countRecords (kinds : List LineKind) : Nat :=
  kinds.countP (· ≠ .comment)

/-- A label is **last defined** with an index when the last line that has the label comes after as
many records. -/
def LastLabelled (kinds : List LineKind) (label : String) (index : Nat) : Prop :=
  ∃ before after, kinds = before ++ .call label :: after ∧ LineKind.call label ∉ after ∧
    index = countRecords before

@[simp] theorem countRecords_append (left right : List LineKind) :
    countRecords (left ++ right) = countRecords left + countRecords right :=
  List.countP_append

/-- Lines add as many opcodes as records. -/
theorem length_opcodes (kinds : List LineKind) :
    (kinds.flatMap LineKind.opcodes).length = countRecords kinds := by
  induction kinds with
  | nil => rfl
  | cons kind kinds ih =>
    rw [List.flatMap_cons, List.length_append, ih, countRecords, countRecords, List.countP_cons]
    cases kind <;> simp [LineKind.opcodes, Nat.add_comm]

/-- One more line either defines the label anew or leaves its last definition as it is. -/
theorem lastLabelled_concat {kinds : List LineKind} {kind : LineKind} {label : String}
    {index : Nat} :
    LastLabelled (kinds ++ [kind]) label index ↔
      if kind = .call label then index = countRecords kinds else LastLabelled kinds label index := by
  constructor
  · rintro ⟨before, after, hkinds, hafter, rfl⟩
    -- The last line with the label is the new line, or comes before it.
    rcases List.eq_nil_or_concat after with rfl | ⟨others, last, rfl⟩
    · obtain ⟨rfl, hkind⟩ := List.append_inj hkinds (by simpa using congrArg List.length hkinds)
      rw [if_pos (List.cons.inj hkind).1]
    · rw [List.concat_eq_append, ← List.cons_append, ← List.append_assoc] at hkinds
      obtain ⟨rfl, hlast⟩ := List.append_inj' hkinds rfl
      obtain rfl := (List.cons.inj hlast).1
      have hne : kind ≠ .call label := by
        rintro rfl
        exact hafter (by simp)
      rw [if_neg hne]
      exact ⟨before, others, rfl, fun hmem => hafter (by simp [hmem]), rfl⟩
  · intro h
    split at h
    · next hkind =>
      subst hkind
      exact ⟨kinds, [], rfl, List.not_mem_nil, h⟩
    · next hkind =>
      obtain ⟨before, after, rfl, hafter, rfl⟩ := h
      refine ⟨before, after ++ [kind], by simp, ?_, rfl⟩
      intro hmem
      rcases List.mem_append.1 hmem with hold | hnew
      · exact hafter hold
      · exact hkind (List.mem_singleton.1 hnew).symm

/-- A label is last defined somewhere exactly when some line has it. -/
theorem exists_lastLabelled_iff {kinds : List LineKind} {label : String} :
    (∃ index, LastLabelled kinds label index) ↔ LineKind.call label ∈ kinds := by
  constructor
  · rintro ⟨index, before, after, rfl, -, -⟩
    simp
  · intro hmem
    obtain ⟨after, before, hreverse, hafter⟩ :=
      List.eq_append_cons_of_mem (List.mem_reverse.2 hmem)
    refine ⟨countRecords before.reverse, before.reverse, after.reverse, ?_, by simpa using hafter,
      rfl⟩
    rw [← List.reverse_reverse kinds, hreverse]
    simp

/-- Lines that have labels come after different numbers of records. -/
theorem countRecords_lt {before after before' after' : List LineKind} {label : String}
    {kind : LineKind} (h : before ++ .call label :: after = before' ++ kind :: after')
    (hlt : before.length < before'.length) : countRecords before < countRecords before' := by
  have hfirst : before ++ [.call label] <+: before ++ .call label :: after := ⟨after, by simp⟩
  have hsecond : before' <+: before ++ .call label :: after := ⟨kind :: after', h.symm⟩
  have hlength : (before ++ [LineKind.call label]).length ≤ before'.length := by
    rw [List.length_append, List.length_singleton]
    omega
  obtain ⟨others, rfl⟩ := List.prefix_of_prefix_length_le hfirst hsecond hlength
  have hcall : countRecords [.call label] = 1 := rfl
  rw [countRecords_append, countRecords_append]
  omega

/-- Different labels are last defined with different indices. -/
theorem LastLabelled.label_eq {kinds : List LineKind} {label label' : String} {index : Nat}
    (h : LastLabelled kinds label index) (h' : LastLabelled kinds label' index) :
    label = label' := by
  obtain ⟨before, after, hkinds, -, hcount⟩ := h
  obtain ⟨before', after', hkinds', -, hcount'⟩ := h'
  have hsame := hkinds.symm.trans hkinds'
  rcases Nat.lt_trichotomy before.length before'.length with hlt | heq | hgt
  · have := countRecords_lt hsame hlt
    omega
  · have hcall := (List.append_inj hsame heq).2
    exact LineKind.call.inj (List.cons.inj hcall).1
  · have := countRecords_lt hsame.symm hgt
    omega

/-! ## Drafts and the kinds of their lines -/

/-- The kind of a line that emits something. -/
def Emission.kind : Emission → LineKind
  | .nothing => .comment
  | .padding => .blank
  | .labelled label _ => .call label

/-- A line has the kind of what it emits, and emits records with the opcodes of its kind. -/
theorem hasKind_of_emission {raw : String} {emitted : Emission} (h : emission raw = .ok emitted) :
    HasKind raw.toList emitted.kind ∧
      emitted.records.map Record.opcode = emitted.kind.opcodes := by
  rw [hasKind_iff]
  rcases emission_eq_ok_iff.1 h with ⟨hparse, rfl⟩ | ⟨hparse, rfl⟩ |
    ⟨instruction, record, hparse, hrecord, rfl⟩
  · exact ⟨⟨.blank, hparse, rfl⟩, rfl⟩
  · exact ⟨⟨.comment, hparse, rfl⟩, rfl⟩
  · obtain ⟨words, -, rfl, -⟩ := Instruction.record_eq_ok_iff.1 hrecord
    exact ⟨⟨.instruction instruction, hparse, rfl⟩, rfl⟩

namespace Draft

/-- A draft **tracks** lines of the given kinds: its records have their opcodes, its labels are where
they were last defined, and the table of its labels is in order. -/
structure Tracks (kinds : List LineKind) (draft : Draft) : Prop where
  /-- The records are those that the lines add. -/
  opcodes : draft.records.toList.map Record.opcode = kinds.flatMap LineKind.opcodes
  /-- A label stands for the record of its last definition. -/
  labels : ∀ label index, draft.labels.get? label = some index ↔ LastLabelled kinds label index
  /-- The labels are in order. -/
  ordered : draft.labels.IsOrdered

/-- The draft before the first line tracks no lines. -/
theorem tracks_empty : Tracks [] empty := by
  refine ⟨rfl, ?_, LabelTable.isOrdered_empty⟩
  intro label index
  constructor
  · intro h
    simp [empty, LabelTable.empty, LabelTable.get?] at h
  · rintro ⟨before, after, hnil, -, -⟩
    simp at hnil

/-- A draft has as many records as the lines that it tracks add. -/
theorem Tracks.size_records {kinds : List LineKind} {draft : Draft} (h : Tracks kinds draft) :
    draft.records.size = countRecords kinds := by
  rw [← length_opcodes, ← h.opcodes, List.length_map, Array.length_toList]

/-- Taking up what a line emits is tracking one more line. -/
theorem Tracks.emit {kinds : List LineKind} {draft : Draft} (h : Tracks kinds draft) {raw : String}
    {emitted : Emission} (hemission : emission raw = .ok emitted) (number : Nat) :
    Tracks (kinds ++ [emitted.kind]) (draft.emit number emitted) := by
  obtain ⟨-, hopcodes⟩ := hasKind_of_emission hemission
  refine ⟨?_, ?_, ?_⟩
  · rw [records_emit, List.map_append, h.opcodes, hopcodes, List.flatMap_append]
    simp
  · intro label index
    rw [get?_labels_emit, lastLabelled_concat]
    cases emitted with
    | nothing => exact h.labels label index
    | padding => exact h.labels label index
    | labelled name record =>
      -- The label is entered for the record at the end of the draft.
      by_cases hname : label = name
      · subst hname
        simp [Emission.kind, h.size_records, eq_comm]
      · have hkind : Emission.kind (.labelled name record) ≠ .call label := by
          intro hcall
          exact hname (LineKind.call.inj hcall).symm
        rw [if_neg hkind]
        simpa [hname] using h.labels label index
  · cases emitted with
    | nothing => exact h.ordered
    | padding => exact h.ordered
    | labelled name record => exact h.ordered.define name draft.records.size

/-- Compiling lines without a fault is tracking them all. -/
theorem Tracks.addLines {kinds : List LineKind} {draft final : Draft}
    {lines : List (Nat × String)} (h : Tracks kinds draft)
    (hrun : draft.addLines lines = (.ok (), final)) :
    ∃ more, List.Forall₂ HasKind (lines.map fun line => line.2.toList) more ∧
      Tracks (kinds ++ more) final := by
  induction lines generalizing kinds draft with
  | nil =>
    obtain rfl : draft = final := by simpa using hrun
    exact ⟨[], .nil, by simpa using h⟩
  | cons line lines ih =>
    obtain ⟨number, raw⟩ := line
    rw [addLines_cons] at hrun
    cases hemission : emission raw with
    | error fault => simp [hemission] at hrun
    | ok emitted =>
      rw [hemission] at hrun
      obtain ⟨more, hmore, htracks⟩ := ih (h.emit hemission number) hrun
      refine ⟨emitted.kind :: more, .cons (hasKind_of_emission hemission).1 hmore, ?_⟩
      simpa using htracks

/-- A label of a draft stands for a call. -/
theorem Tracks.exists_call {kinds : List LineKind} {draft : Draft} (h : Tracks kinds draft)
    {label : String} {index : Nat} (hlabel : draft.labels.get? label = some index) :
    ∃ target selector words,
      draft.records.toList[index]? = some (.call target selector words) := by
  obtain ⟨before, after, hkinds, -, rfl⟩ := (h.labels label index).1 hlabel
  -- The opcodes before it are as many as the records that are counted.
  have hopcode : (draft.records.toList.map Record.opcode)[countRecords before]? = some .call := by
    rw [h.opcodes, hkinds, List.flatMap_append, ← length_opcodes before,
      List.getElem?_append_right (Nat.le_refl _), Nat.sub_self]
    rfl
  rw [List.getElem?_map] at hopcode
  obtain ⟨record, hrecord, hcall⟩ := Option.map_eq_some_iff.1 hopcode
  cases record with
  | pad => simp [Record.opcode] at hcall
  | call target selector words => exact ⟨target, selector, words, hrecord⟩

/-- A draft has as many labels as there are different labels of its lines. -/
theorem Tracks.size_labels {kinds : List LineKind} {draft : Draft} (h : Tracks kinds draft) :
    draft.labels.size = (kinds.filterMap LineKind.label?).toFinset.card := by
  have hnames : draft.labels.names.toFinset = (kinds.filterMap LineKind.label?).toFinset := by
    ext name
    rw [List.mem_toFinset, List.mem_toFinset, LabelTable.mem_names_iff, List.mem_filterMap]
    simp only [h.labels name]
    rw [exists_lastLabelled_iff]
    constructor
    · intro hmem
      exact ⟨_, hmem, rfl⟩
    · rintro ⟨kind, hmem, hlabel⟩
      cases kind with
      | blank => simp [LineKind.label?] at hlabel
      | comment => simp [LineKind.label?] at hlabel
      | call label =>
        obtain rfl : label = name := Option.some.inj hlabel
        exact hmem
  rw [← hnames, List.toFinset_card_of_nodup h.ordered.nodup_names, LabelTable.names,
    List.length_map]
  rfl

end Draft

/-! ## Programs -/

/-- **The labels of a program.** If a script compiles, every line has a kind, there is no other way to
tell the kinds of the lines, and the label table is the map of last definitions: a label stands for a
record exactly when some line has the label, and as many lines as add a record come before the last
such line. So every label stands for a call of the program, different labels stand for different
calls, and there are as many labels in the table as different labels on the lines. -/
theorem compile_labels {source : String} {program : Program} (h : compile source = .ok program) :
    ∃ kinds, List.Forall₂ HasKind (source.toList.splitOn '\n') kinds ∧
      (∀ others, List.Forall₂ HasKind (source.toList.splitOn '\n') others → others = kinds) ∧
      (∀ label index, program.labels.get? label = some index ↔ LastLabelled kinds label index) ∧
      (∀ label index, program.labels.get? label = some index →
        index < program.records.length ∧
          ∃ target selector words, program.records[index]? = some (.call target selector words)) ∧
      (∀ label label' index, program.labels.get? label = some index →
        program.labels.get? label' = some index → label = label') ∧
      program.labels.size = (kinds.filterMap LineKind.label?).toFinset.card := by
  obtain ⟨final, hfinal, rfl⟩ := compile_eq_ok_iff.1 h
  obtain ⟨kinds, hkinds, htracks⟩ := Draft.tracks_empty.addLines hfinal
  rw [map_numberedLines] at hkinds
  rw [List.nil_append] at htracks
  have hunique : Relator.RightUnique HasKind := fun _ _ _ => HasKind.unique
  refine ⟨kinds, hkinds, ?_, htracks.labels, ?_, ?_, htracks.size_labels⟩
  · intro others hothers
    exact List.right_unique_forall₂' hunique hothers hkinds
  · intro label index hlabel
    obtain ⟨target, selector, words, hcall⟩ := htracks.exists_call hlabel
    exact ⟨(List.getElem?_eq_some_iff.1 hcall).1, target, selector, words, hcall⟩
  · intro label label' index hlabel hlabel'
    exact ((htracks.labels _ _).1 hlabel).label_eq ((htracks.labels _ _).1 hlabel')

/-- A script in which a label is the name of a function first and is then written in front of another
call, with a blank line and a comment between them. -/
def relabelledScript : String :=
  "0xAb00000000000000000000000000000000000001 f()\n\n# again\n" ++
    "f = 0xAb00000000000000000000000000000000000002 g()"

/-- The label stands for the later call, which comes after a call and a padding record. -/
theorem relabelledScript_labels :
    ∃ program kinds, compile relabelledScript = .ok program ∧
      program.labels.get? "f" = some 2 ∧ LastLabelled kinds "f" 2 ∧
      (∃ target selector words, program.records[2]? = some (.call target selector words)) ∧
      program.labels.size = (kinds.filterMap LineKind.label?).toFinset.card := by
  have hindex : (compile relabelledScript).toOption.bind (·.labels.get? "f") = some 2 := by
    decide +kernel
  cases hprogram : compile relabelledScript with
  | error error => simp [hprogram, Except.toOption] at hindex
  | ok program =>
    rw [hprogram] at hindex
    obtain ⟨kinds, -, -, hlabels, hcalls, -, hsize⟩ := compile_labels hprogram
    exact ⟨program, kinds, rfl, hindex, (hlabels "f" 2).1 hindex, (hcalls "f" 2 hindex).2, hsize⟩

end CallScript.Script
