import CallScript.Script.Program

/-! # Diagnostics

The report of a fault: what is wrong, where, and the line in question with a caret below it.

* **`Diagnostic.render`** writes a report about a position of a source.
* **`ScriptError.diagnostic`** is the report of a script error. -/

namespace CallScript.Script

namespace Diagnostic

/-- A number, with spaces before it up to four characters. -/
def gutter (number : Nat) : String :=
  String.ofList ((Nat.toDigits 10 number).leftpad 4 ' ')

/-- A line as it is shown: without the carriage returns at its end. -/
def shown (line : String) : String :=
  String.ofList (line.toList.reverse.dropWhile (· = '\r')).reverse

/-- The part of a report that shows a line and points at one of its columns. -/
def excerpt (line column : Nat) (text : String) : String :=
  let indent := String.ofList (List.replicate (column - 1) ' ')
  s!"  |\n{gutter line} | {shown text}\n  | {indent}^\n"

/-- The report of a fault at a line and column of a source. A line that the source does not have is
not shown; line 0 shows the first. -/
def render (file source : String) (line column : Nat) (message : String) : String :=
  let heading := s!"error: {message}\n --> {file}:{line}:{column}\n"
  match (splitLines source)[line - 1]? with
  | some text => heading ++ excerpt line column text
  | none => heading

end Diagnostic

/-- The report of a script error in the source that has it. -/
def ScriptError.diagnostic (error : ScriptError) (file source : String) : String :=
  Diagnostic.render file source error.line error.column error.cause.message

end CallScript.Script
