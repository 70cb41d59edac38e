import CallScript.Address
import CallScript.Script.Cause
import CallScript.Script.Signature
import CallScript.Script.Token

/-! # Lines

What a line of a script says. A line is blank, a comment that starts with `#`, or an instruction

    [label =] address signature argument ... argument

with blanks between the tokens.

* **`Line`** is what a line says and **`Instruction`** what an instruction says.
* **`Line.parse`** reads a line.
* **`numberedLines`** are the lines of a whole script. -/

namespace CallScript.Script

/-- An **instruction**: call a function of a contract with the given arguments. -/
structure Instruction where
  /-- The label written in front of the instruction. -/
  explicitLabel : Option String
  /-- The contract to call. -/
  target : Address
  /-- The function to call. -/
  signature : Signature
  /-- The column of the signature. -/
  signatureColumn : Nat
  /-- The arguments, one token each. -/
  arguments : List Token
  deriving DecidableEq

/-- The **label** of an instruction: the one written in front of it, or else the function's name. -/
def Instruction.label (instruction : Instruction) : String :=
  instruction.explicitLabel.getD instruction.signature.name

/-- What a **line** says. -/
inductive Line where
  /-- Nothing but blanks. -/
  | blank
  /-- A comment. -/
  | comment
  /-- An instruction. -/
  | instruction (instruction : Instruction)
  deriving DecidableEq

/-- The name and what follows it, if a text is a name, an equals sign and something more. Blanks
around the equals sign are dropped. -/
def splitLabel? (text : List Char) : Option (List Char × List Char) :=
  let name := text.takeWhile isNameChar
  match Text.trimStart (text.dropWhile isNameChar) with
  | '=' :: rest =>
    let body := Text.trimStart rest
    if name.isEmpty || body.isEmpty then none else some (name, body)
  | _ => none

/-- Read an instruction from the tokens after its label. The address is looked at before the
signature. -/
def Instruction.ofTokens (explicitLabel : Option String) (address signature : Token)
    (arguments : List Token) : Except Fault Instruction :=
  match Address.parse? address.text with
  | none => .error ⟨address.column, .invalidAddress address.text⟩
  | some target =>
    match Signature.parse? signature.text with
    | none => .error ⟨signature.column, .invalidSignature signature.text⟩
    | some parsed => .ok ⟨explicitLabel, target, parsed, signature.column, arguments⟩

/-- Read an instruction from a text without blanks at its ends that starts `start` bytes into its
line. -/
def Instruction.parse (start : Nat) (text : List Char) : Except Fault Instruction :=
  let (label, body) :=
    match splitLabel? text with
    | some (name, body) => (some (String.ofList name), body)
    | none => (none, text)
  match tokens (start + (Text.byteLength text - Text.byteLength body)) body with
  | address :: signature :: arguments => ofTokens label address signature arguments
  | _ => .error ⟨start + 1, .malformedLine (String.ofList text)⟩

/-- Read a line. -/
def Line.parse (raw : String) : Except Fault Line :=
  match Text.trim raw.toList with
  | [] => .ok .blank
  | '#' :: _ => .ok .comment
  | text =>
    (Instruction.parse (Text.byteLength (raw.toList.takeWhile Text.isBlank)) text).map .instruction

/-- The lines of a script. They end at newline characters only, so there is one more of them than
there are newlines. -/
def splitLines (source : String) : List String :=
  (source.toList.splitOn '\n').map String.ofList

/-- The lines of a script with their numbers, from 1. -/
def numberedLines (source : String) : List (Nat × String) :=
  (splitLines source).mapIdx fun i line => (i + 1, line)

end CallScript.Script
