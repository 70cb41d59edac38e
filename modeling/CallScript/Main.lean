import CallScript.CommandLine

/-! # The program

Reads its arguments, works on the files of the system and prints what comes of it. -/

namespace CallScript.Main

open Files

/-- The cause of an error with the given number, which the system describes in words. -/
def fileErrorOfCode (code : UInt32) (description : String) : FileError :=
  if code = 2 then .notFound
  else if code = 20 then .notADirectory
  else if code = 21 then .isADirectory
  else if code = 36 then .nameTooLong
  else .other s!"{description} (os error {code})"

/-- The cause of an error of the system. -/
def fileError : IO.Error → FileError
  | .noFileOrDirectory _ code description => fileErrorOfCode code description
  | .inappropriateType _ code description => fileErrorOfCode code description
  | .invalidArgument _ code description => fileErrorOfCode code description
  | .permissionDenied _ code description => fileErrorOfCode code description
  | error => .other (toString error)

/-- Reading and writing the files of the system. -/
def systemFiles : FileAccess IO where
  read path := do
    try
      return .ok (← IO.FS.withFile path .read (·.readBinToEnd)).data.toList
    catch error => return .error (fileError error)
  write path contents := do
    try
      IO.FS.writeBinFile path ⟨contents.toArray⟩
      return .ok ()
    catch error => return .error (fileError error)

end CallScript.Main

/-- Compile the script file named by the arguments. -/
def main (arguments : List String) : IO UInt32 := do
  let color := CallScript.Log.wantsColor (← IO.getEnv "TERM") (← IO.getEnv "NO_COLOR")
  let outcome ← CallScript.CommandLine.run CallScript.Main.systemFiles color "callc" arguments
  (← IO.getStdout).putStr outcome.stdout
  (← IO.getStderr).putStr outcome.stderr
  return outcome.status
