import CallScript.Text.Quoted
import CallScript.Word.Literal

/-! # Causes of failure

What can be wrong with a script, and where.

* **`Cause`** is what is wrong, **`Cause.message`** its wording.
* **`Fault`** adds the column in the line, **`ScriptError`** also the line. -/

namespace CallScript.Script

/-- What can be wrong with a line of a script. -/
inductive Cause where
  /-- The line has too few tokens to be an instruction. -/
  | malformedLine (text : String)
  /-- The payload of the call is too long for its length field. -/
  | payloadTooLong (bytes : Nat)
  /-- A token stands for an address and is none. -/
  | invalidAddress (token : String)
  /-- A token stands for a signature and is none. -/
  | invalidSignature (token : String)
  /-- There are more or fewer arguments than parameters. -/
  | argumentCount (expected actual : Nat)
  /-- A parameter has a type that cannot be encoded. -/
  | unsupportedType (tag : String)
  /-- An argument stands for a number and is none. -/
  | invalidNumber (token : String) (reason : LiteralError)
  /-- An argument stands for up to 32 bytes and does not. -/
  | invalidBytes32 (token : String) (reason : LiteralError)
  deriving DecidableEq

/-- The wording of a cause. -/
def Cause.message : Cause → String
  | .malformedLine text => s!"invalid syntax: {text}"
  | .payloadTooLong bytes =>
    s!"invalid syntax: call payload of {bytes} bytes does not fit a 4-byte length"
  | .invalidAddress token => s!"invalid address: {token}"
  | .invalidSignature token => s!"invalid function signature: {token}"
  | .argumentCount expected actual =>
    s!"argument count mismatch: expected {expected}, got {actual}"
  | .unsupportedType tag => s!"unsupported type: {Text.quoted tag}"
  | .invalidNumber token reason =>
    s!"invalid numeric literal {Text.quoted token}: {reason.message}"
  | .invalidBytes32 token reason =>
    s!"invalid bytes32 literal {Text.quoted token}: {reason.message}"

/-- A **fault** of a line: what is wrong and at which 1-based byte column. -/
structure Fault where
  /-- The column of the offending text. -/
  column : Nat
  /-- What is wrong there. -/
  cause : Cause
  deriving DecidableEq

/-- A fault of a script: a fault and the number of the line that has it. -/
structure ScriptError where
  /-- The number of the line. -/
  line : Nat
  /-- The column of the offending text. -/
  column : Nat
  /-- What is wrong there. -/
  cause : Cause
  deriving DecidableEq

/-- A fault in the line with the given number. -/
def Fault.atLine (fault : Fault) (line : Nat) : ScriptError :=
  ⟨line, fault.column, fault.cause⟩

/-- The wording of a script error: the line and what is wrong in it. -/
def ScriptError.message (error : ScriptError) : String :=
  s!"line {error.line}: {error.cause.message}"

end CallScript.Script
