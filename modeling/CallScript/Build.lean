import CallScript.Files.Access
import CallScript.Files.Path
import CallScript.Script.Diagnostic

/-! # Building files

Compiling a script file and writing the result next to it.

* **`outputPath`** names the file for the result.
* **`Compilation`** is what came of compiling a file; **`compileFile`** compiles one.
* **`build`** compiles a file and writes the result. -/

namespace CallScript

open Files Script

/-! ## Naming the result -/

/-- The ending of script files. -/
def scriptEnding : List Char := ['.', 'c', 'a', 'l', 'l']

/-- The ending of the files that hold compiled scripts. -/
def outputEnding : List Char := ['.', 'c', 'a', 'l', 'l', 'd', 'a', 't', 'a']

/-- A name without the ending of script files, if it has that ending. -/
def scriptStem? (name : List Char) : Option (List Char) :=
  if scriptEnding.isSuffixOf name then some (name.take (name.length - scriptEnding.length))
  else none

/-- The path of the result for a script file: the ending of script files gives way to that of
compiled ones, and a name without it gets the latter appended to the path. -/
def outputPath (input : String) : String :=
  let path := Path.ofText input.toList
  match path.fileName?.bind scriptStem? with
  | some stem => String.ofList (path.withFileName (stem ++ outputEnding))
  | none => String.ofList (input.toList ++ outputEnding)

/-! ## Compiling and writing -/

/-- Why nothing could be built. -/
inductive BuildError where
  /-- The script has a fault. -/
  | script (error : ScriptError)
  /-- A file could not be read or written. -/
  | file (path : String) (error : FileError)
  deriving DecidableEq

/-- The wording of a build error. -/
def BuildError.message : BuildError → String
  | .script error => error.message
  | .file path error => s!"io error on {path}: {error.message}"

/-- What came of compiling a file. -/
structure Compilation where
  /-- The redefinitions of labels that were met. -/
  redefinitions : List Redefinition
  /-- The report of a fault, empty if there is none. -/
  report : String
  /-- The program, or why there is none. -/
  result : Except BuildError Program

/-- Compile the text of a file. -/
def compileText (file source : String) : Compilation :=
  match compile source with
  | .ok program => ⟨redefinitions source, "", .ok program⟩
  | .error error => ⟨redefinitions source, error.diagnostic file source, .error (.script error)⟩

section Access

variable {m : Type → Type} [Monad m] (access : FileAccess m)

/-- Read and compile a file. -/
def compileFile (input : String) : m Compilation := do
  match ← access.readText input with
  | .ok source => return compileText input source
  | .error error => return ⟨[], "", .error (.file input error)⟩

/-- Write a program as hexadecimal text. -/
def writeProgram (output : String) (program : Program) : m (Except BuildError Unit) := do
  match ← access.write output (Text.utf8 program.hex.toList) with
  | .ok () => return .ok ()
  | .error error => return .error (.file output error)

/-- Compile a file and write the result next to it. The result is the compilation, and the program
with the path of its file, or why there is none. Nothing is written for a script with a fault. -/
def build (input : String) : m (Compilation × Except BuildError (Program × String)) := do
  let compilation ← compileFile access input
  match compilation.result with
  | .error error => return (compilation, .error error)
  | .ok program =>
    match ← writeProgram access (outputPath input) program with
    | .ok () => return (compilation, .ok (program, outputPath input))
    | .error error => return (compilation, .error error)

end Access

end CallScript
