import CallScript.Files.Access

/-! # File trees

Directories and files as a value. Reading and writing follow paths through the tree part by part;
the first part that cannot be followed decides the error.

* **`FileTree`** is a tree of directories and files with a working directory in it.
* **`FileTree.read`** and **`FileTree.write`** read and replace the file at a path.
* **`FileTree.files`** lists the files below the working directory. -/

namespace CallScript.Files

/-- Where an entry stands: the names that lead to it from the root. -/
abbrev Location := List String

/-- Where a name leads from a directory: a dot stays, two dots go up and any other name goes down. -/
def Location.step (here : Location) (name : String) : Location :=
  if name = "." then here
  else if name = ".." then here.dropLast
  else here ++ [name]

/-- What stands at a location. -/
inductive Entry where
  /-- A file with its contents. -/
  | file (contents : Bytes)
  /-- A directory. -/
  | directory
  deriving DecidableEq

/-- A **file tree**. The root, and every directory on the way to the working directory, need no entry
of their own. -/
structure FileTree where
  /-- The directory from which relative paths start. -/
  workingDirectory : Location
  /-- What stands at each location that is in use. -/
  entries : List (Location × Entry)
  deriving DecidableEq

namespace FileTree

/-- The longest name of an entry, in bytes. -/
def maxNameLength : Nat := 255

/-- The longest path, in bytes. -/
def maxPathLength : Nat := 4095

/-- What stands at a location. -/
def entry? (tree : FileTree) (location : Location) : Option Entry :=
  if location.isPrefixOf tree.workingDirectory then some .directory
  else tree.entries.lookup location

/-- Put an entry at a location, in place of what stood there. -/
def putEntry (location : Location) (entry : Entry) :
    List (Location × Entry) → List (Location × Entry)
  | [] => [(location, entry)]
  | (other, old) :: rest =>
    if location = other then (location, entry) :: rest
    else (other, old) :: putEntry location entry rest

/-- A tree with an entry put at a location. -/
def put (tree : FileTree) (location : Location) (entry : Entry) : FileTree :=
  { tree with entries := putEntry location entry tree.entries }

/-! ## Following paths -/

/-- Where a path leads, once the directories on its way have been followed. -/
inductive Target where
  /-- To a directory: the path ends in a dot, in two dots or at the root. -/
  | directory
  /-- To the entry called `name`. With `slash` the path ends in a slash after that name. -/
  | entry (directory : Location) (name : String) (slash : Bool)
  deriving DecidableEq

/-- The names of a path, in order. -/
def names (path : String) : List String :=
  ((path.toList.splitOn '/').filter (!·.isEmpty)).map String.ofList

/-- Follow one name from a directory into the next. -/
def enter (tree : FileTree) (here : Location) (name : String) : Except FileError Location :=
  if name = "." ∨ name = ".." then .ok (here.step name)
  else if maxNameLength < name.utf8ByteSize then .error .nameTooLong
  else
    match tree.entry? (here.step name) with
    | none => .error .notFound
    | some (.file _) => .error .notADirectory
    | some .directory => .ok (here.step name)

/-- Follow names from directory to directory. -/
def enterAll (tree : FileTree) : Location → List String → Except FileError Location
  | here, [] => .ok here
  | here, name :: rest =>
    match tree.enter here name with
    | .ok next => tree.enterAll next rest
    | .error error => .error error

/-- Follow a path up to its last name. -/
def locate (tree : FileTree) (path : String) : Except FileError Target :=
  if path.toList.contains '\x00' then .error .nulInPath
  else if path.isEmpty then .error .notFound
  else if maxPathLength < path.utf8ByteSize then .error .nameTooLong
  else
    let start := if path.toList.head? = some '/' then [] else tree.workingDirectory
    match (names path).getLast? with
    | none => .ok .directory
    | some last =>
      match tree.enterAll start (names path).dropLast with
      | .error error => .error error
      | .ok here =>
        if last = "." ∨ last = ".." then .ok .directory
        else .ok (.entry here last (path.toList.getLast? = some '/'))

/-! ## Reading and writing -/

/-- The contents of the file at a path. -/
def read (tree : FileTree) (path : String) : Except FileError Bytes :=
  match tree.locate path with
  | .error error => .error error
  | .ok .directory => .error .isADirectory
  | .ok (.entry here name slash) =>
    if maxNameLength < name.utf8ByteSize then .error .nameTooLong
    else
      match tree.entry? (here ++ [name]) with
      | none => .error .notFound
      | some .directory => .error .isADirectory
      | some (.file contents) => if slash then .error .notADirectory else .ok contents

/-- Create or replace the file at a path. A path that ends in a slash cannot name a file. -/
def write (tree : FileTree) (path : String) (contents : Bytes) : Except FileError FileTree :=
  match tree.locate path with
  | .error error => .error error
  | .ok .directory => .error .isADirectory
  | .ok (.entry here name slash) =>
    if slash then .error .isADirectory
    else if maxNameLength < name.utf8ByteSize then .error .nameTooLong
    else
      match tree.entry? (here ++ [name]) with
      | some .directory => .error .isADirectory
      | _ => .ok (tree.put (here ++ [name]) (.file contents))

/-- Reading and writing in a tree. A write that fails leaves the tree as it is. -/
def access : FileAccess (StateM FileTree) where
  read path := do
    return (← get).read path
  write path contents := do
    match (← get).write path contents with
    | .ok tree =>
      set tree
      return .ok ()
    | .error error => return .error error

/-! ## Building and listing trees -/

/-- Follow names from a directory, creating the directories that are missing on the way. -/
def grow (tree : FileTree) (here : Location) : List String → FileTree × Location
  | [] => (tree, here)
  | name :: rest =>
    let next := here.step name
    let grown := if (tree.entry? next).isSome then tree else tree.put next .directory
    grown.grow next rest

/-- A tree with an entry at a path from the working directory, and with the directories on the way
to it. -/
def add (tree : FileTree) (path : String) : Entry → FileTree
  | .directory => (tree.grow tree.workingDirectory (names path)).1
  | .file contents =>
    match (names path).getLast? with
    | none => tree
    | some last =>
      let (grown, here) := tree.grow tree.workingDirectory (names path).dropLast
      grown.put (here.step last) (.file contents)

/-- A file below the working directory, with its path from there. -/
def fileBelow? (tree : FileTree) : Location × Entry → Option (String × Bytes)
  | (location, .file contents) =>
    if tree.workingDirectory.isPrefixOf location then
      some ("/".intercalate (location.drop tree.workingDirectory.length), contents)
    else none
  | (_, .directory) => none

/-- The files below the working directory with their contents, in the byte order of their paths. -/
def files (tree : FileTree) : List (String × Bytes) :=
  (tree.entries.filterMap tree.fileBelow?).mergeSort fun left right =>
    !decide (Text.utf8 right.1.toList < Text.utf8 left.1.toList)

end FileTree

end CallScript.Files
