import CallScript.Text.Utf8

/-! # Access to files

* **`FileError`** says why a file cannot be read or written.
* **`FileAccess m`** is a way to read and write files in the monad `m`. -/

namespace CallScript.Files

/-- Why a file cannot be read or written. -/
inductive FileError where
  /-- There is no such file, or no such directory on the way to it. -/
  | notFound
  /-- A file stands where a directory should. -/
  | notADirectory
  /-- A directory stands where a file should. -/
  | isADirectory
  /-- A name, or the whole path, is longer than the system allows. -/
  | nameTooLong
  /-- The file is not UTF-8 text. -/
  | notText
  /-- The path contains a NUL character. -/
  | nulInPath
  /-- Some other reason, in the words of the system. -/
  | other (description : String)
  deriving DecidableEq

/-- The wording of a file error. -/
def FileError.message : FileError → String
  | .notFound => "No such file or directory (os error 2)"
  | .notADirectory => "Not a directory (os error 20)"
  | .isADirectory => "Is a directory (os error 21)"
  | .nameTooLong => "File name too long (os error 36)"
  | .notText => "stream did not contain valid UTF-8"
  | .nulInPath => "file name contained an unexpected NUL byte"
  | .other description => description

/-- A way to read and write whole files. -/
structure FileAccess (m : Type → Type) where
  /-- The contents of the file at a path. -/
  read : String → m (Except FileError Bytes)
  /-- Create or replace the file at a path. -/
  write : String → Bytes → m (Except FileError Unit)

/-- The text of the file at a path. -/
def FileAccess.readText {m : Type → Type} [Monad m] (access : FileAccess m) (path : String) :
    m (Except FileError String) := do
  match ← access.read path with
  | .error error => return .error error
  | .ok bytes =>
    match Text.ofUtf8? bytes with
    | some text => return .ok text
    | none => return .error .notText

end CallScript.Files
