import CallScript.Build
import CallScript.Log

/-! # The command line

What the program does with its arguments. It takes one script file, compiles it, writes the result
next to it and prints the result.

* **`Invocation`** is what the arguments ask for.
* **`Outcome`** is what the program prints and its exit status.
* **`run`** carries out an invocation. -/

namespace CallScript.CommandLine

/-- What the arguments of the program ask for. -/
inductive Invocation where
  /-- There is no argument. -/
  | missingInput
  /-- A description of the program. -/
  | help
  /-- There is an argument too many. -/
  | unexpected (argument : String)
  /-- Build a file. -/
  | build (input : String)
  deriving DecidableEq

/-- What a list of arguments asks for. A request for help in the first place wins over everything
after it. -/
def Invocation.ofArguments : List String → Invocation
  | [] => .missingInput
  | first :: rest =>
    if first = "--help" ∨ first = "-h" then .help
    else
      match rest with
      | [] => .build first
      | extra :: _ => .unexpected extra

/-- What the program prints, and its exit status. -/
structure Outcome where
  /-- The exit status: 0 when all went well. -/
  status : UInt32
  /-- What goes to the standard output. -/
  stdout : String
  /-- What goes to the standard error. -/
  stderr : String
  deriving DecidableEq

/-- The description of the program, which is called by the given name. -/
def usage (program : String) : String :=
  "Call Script Compiler\n\nUSAGE:\n    " ++ program ++ " <input.call>\n\nARGS:\n" ++
    "    <input.call>    Script to compile; output goes to <input>.calldata\n\nOPTIONS:\n" ++
    "    -h, --help      Print this help message\n"

/-- The last line of a build that went well. -/
def summary (program : Script.Program) (output : String) : String :=
  s!"Output written to: {output} ({program.records.length} records, " ++
    s!"{program.labels.size} labels)"

/-- Log lines carry their level but no time. -/
def style (color : Bool) : Log.Style := ⟨color, true⟩

/-- A log line of the program. -/
def logLine (color : Bool) (level : Log.Level) (message : String) : String :=
  (style color).line none level message

/-- What is said about compiling a file: the redefinitions and then the fault, if any. -/
def compilationLog (color : Bool) (compilation : Compilation) : String :=
  String.join (compilation.redefinitions.map fun notice => logLine color .warn notice.message) ++
    compilation.report

/-- What is printed about a build. -/
def buildOutcome (color : Bool) (compilation : Compilation) :
    Except BuildError (Script.Program × String) → Outcome
  | .ok (program, output) =>
    ⟨0, program.hex ++ "\n",
      compilationLog color compilation ++ logLine color .info (summary program output)⟩
  | .error error =>
    ⟨1, "", compilationLog color compilation ++
      logLine color .error s!"Compilation failed: {error.message}"⟩

/-- Run the program, which is called by the given name. -/
def run {m : Type → Type} [Monad m] (access : Files.FileAccess m) (color : Bool) (program : String)
    (arguments : List String) : m Outcome := do
  let help := logLine color .info (usage program)
  match Invocation.ofArguments arguments with
  | .missingInput => return ⟨1, "", help⟩
  | .help => return ⟨0, "", help⟩
  | .unexpected argument =>
    return ⟨1, "", logLine color .error s!"Unexpected argument: {argument}\n" ++ help⟩
  | .build input =>
    let (compilation, result) ← build access input
    return buildOutcome color compilation result

end CallScript.CommandLine
