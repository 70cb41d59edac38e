import CallScript.Record
import CallScript.Script.Argument
import CallScript.Script.Labels
import CallScript.Script.Line

/-! # Programs

Compiling a script. Each blank line becomes a padding record and each instruction a call record;
comments leave nothing behind. Every instruction enters its label into the label table.

* **`Program`** is a compiled script.
* **`Draft`** is a program under construction, **`Drafting`** a step that changes it and may fail.
* **`Drafting.line`** compiles one line; **`Draft.addLine`** runs that on a draft.
* **`compile`** compiles a whole script. -/

namespace CallScript.Script

/-- A compiled script: its records and its labels. -/
structure Program where
  /-- The records, in the order of their lines. -/
  records : List Record
  /-- The labels of the records. -/
  labels : LabelTable
  deriving DecidableEq

namespace Program

/-- The bytes of a program. -/
def bytes (program : Program) : Bytes :=
  Record.encodeAll program.records

/-- The number of bytes of a program. -/
def size (program : Program) : Nat :=
  Record.sizeAll program.records

/-- A program is written as its records in a row. -/
instance : Encode Program where
  writeTo program sink := Encode.writeTo program.records sink
  map_writeTo hf program sink := Encode.map_writeTo hf program.records sink

/-- The bytes of a program as text: the marker `0x` and lowercase hexadecimal digits. -/
def hex (program : Program) : String :=
  "0x" ++ Hex.encode program.bytes

/-- The digits of the bytes stand after the marker. -/
theorem toList_hex (program : Program) :
    program.hex.toList = '0' :: 'x' :: Hex.digits program.bytes := by
  simp [hex, Hex.encode]

end Program

/-- A label was defined again. -/
structure Redefinition where
  /-- The line of the new definition. -/
  line : Nat
  /-- The label. -/
  label : String
  /-- The record for which the label stood before. -/
  previous : Nat
  /-- The record for which it stands now. -/
  current : Nat
  deriving DecidableEq

/-- The wording of the warning about a redefinition. -/
def Redefinition.message (notice : Redefinition) : String :=
  s!"line {notice.line}: label `{notice.label}` redefined " ++
    s!"(record {notice.previous} -> {notice.current})"

/-- A **draft**: what has been compiled of a script so far. -/
structure Draft where
  /-- The records so far. -/
  records : Array Record
  /-- The labels so far. -/
  labels : LabelTable
  /-- The redefinitions of labels so far. -/
  redefinitions : Array Redefinition
  deriving DecidableEq

namespace Draft

/-- The draft before the first line. -/
def empty : Draft := ⟨#[], LabelTable.empty, #[]⟩

/-- The program that a draft has become. -/
def finish (draft : Draft) : Program :=
  ⟨draft.records.toList, draft.labels⟩

end Draft

/-- The column to which a fault of the arguments is attributed: that of the argument it is about, or
else that of the signature. -/
def Instruction.columnOf (instruction : Instruction) (index : Option Nat) : Nat :=
  match index.bind (instruction.arguments[·]?) with
  | some argument => argument.column
  | none => instruction.signatureColumn

/-- A **drafting step** changes a draft and may fail. What it has changed before it fails stays
changed. -/
abbrev Drafting := ExceptT ScriptError (StateM Draft)

namespace Drafting

/-- Run a step on a draft. What comes of the step is given with the draft that it leaves, also when
it fails. -/
def run {α : Type} (step : Drafting α) (draft : Draft) : Except ScriptError α × Draft :=
  StateT.run (ExceptT.run step) draft

section Run

variable {α β : Type} (draft : Draft)

@[simp] theorem run_pure (a : α) : (pure a : Drafting α).run draft = (.ok a, draft) := rfl

@[simp] theorem run_throw (error : ScriptError) :
    (throw error : Drafting α).run draft = (.error error, draft) := rfl

@[simp] theorem run_ofExcept (result : Except ScriptError α) :
    (ofExcept result : Drafting α).run draft = (result, draft) := by
  cases result <;> rfl

/-- The second of two steps is run on the draft that the first leaves, unless the first fails. -/
theorem run_bind (step : Drafting α) (next : α → Drafting β) :
    (step >>= next).run draft =
      match step.run draft with
      | (.ok a, after) => (next a).run after
      | (.error error, after) => (.error error, after) := by
  obtain ⟨result, after, h⟩ : ∃ result after, step.run draft = (result, after) := ⟨_, _, rfl⟩
  unfold run at h ⊢
  rw [ExceptT.run_bind, StateT.run_bind, h]
  cases result <;> rfl

end Run

/-- Add a record, and give its index. -/
def push (record : Record) : Drafting Nat := do
  modify fun draft => { draft with records := draft.records.push record }
  return (← get).records.size - 1

@[simp] theorem run_push (draft : Draft) (record : Record) :
    (push record).run draft =
      (.ok draft.records.size, { draft with records := draft.records.push record }) := by
  show (Except.ok ((draft.records.push record).size - 1), _) = _
  rw [Array.size_push, Nat.add_sub_cancel]

/-- Let a label stand for the record with the given index, and give the index for which it stood
before, if any. -/
def define (label : String) (index : Nat) : Drafting (Option Nat) :=
  modifyGet fun draft =>
    let (previous?, labels) := draft.labels.define label index
    (previous?, { draft with labels })

@[simp] theorem run_define (draft : Draft) (label : String) (index : Nat) :
    (define label index).run draft =
      (.ok (draft.labels.define label index).1,
        { draft with labels := (draft.labels.define label index).2 }) := rfl

/-- Take note of a redefinition. -/
def warn (notice : Redefinition) : Drafting Unit :=
  modify fun draft => { draft with redefinitions := draft.redefinitions.push notice }

@[simp] theorem run_warn (draft : Draft) (notice : Redefinition) :
    (warn notice).run draft =
      (.ok (), { draft with redefinitions := draft.redefinitions.push notice }) := rfl

/-- Compile the instruction of the line with the given number. -/
def instruction (number : Nat) (instruction : Instruction) : Drafting Unit := do
  let signature := instruction.signature
  let words ← ofExcept <|
    (encodeArguments signature.params (instruction.arguments.map Token.text)).mapError
      fun fault => ⟨number, instruction.columnOf fault.index, fault.cause⟩
  let length := Record.payloadLength words
  if Record.maxPayloadLength < length then
    throw ⟨number, instruction.signatureColumn, .payloadTooLong length⟩
  -- Only now is the draft changed, and nothing fails any more.
  let index ← push (.call instruction.target signature.selector words)
  if let some previous ← define instruction.label index then
    warn ⟨number, instruction.label, previous, index⟩

/-- Compile the line with the given number. -/
def line (number : Nat) (raw : String) : Drafting Unit := do
  match ← ofExcept ((Line.parse raw).mapError (·.atLine number)) with
  | .blank => discard (push .pad)
  | .comment => return
  | .instruction instruction => Drafting.instruction number instruction

/-- Compile numbered lines until one fails. -/
def lines (numbered : List (Nat × String)) : Drafting Unit :=
  numbered.forM fun (number, raw) => line number raw

end Drafting

namespace Draft

/-- Compile one more line, which has the given number. There is a draft to go on with also after a
line that fails. -/
def addLine (draft : Draft) (number : Nat) (raw : String) : Except ScriptError Unit × Draft :=
  (Drafting.line number raw).run draft

/-- Compile more lines until one fails. -/
def addLines (draft : Draft) (lines : List (Nat × String)) : Except ScriptError Unit × Draft :=
  (Drafting.lines lines).run draft

end Draft

/-- Compile as much of a script as can be compiled, and say why no more. -/
def draft (source : String) : Except ScriptError Unit × Draft :=
  Draft.empty.addLines (numberedLines source)

/-- **Compile** a script. Nothing comes of a script with a fault. -/
def compile (source : String) : Except ScriptError Program :=
  match draft source with
  | (.ok (), draft) => .ok draft.finish
  | (.error error, _) => .error error

/-- The redefinitions of labels in a script, up to its first fault. -/
def redefinitions (source : String) : List Redefinition :=
  (draft source).2.redefinitions.toList

end CallScript.Script
