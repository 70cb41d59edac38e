/-! # Paths

File paths in which names are separated by slashes.

* **`Path`** is a path taken apart at its slashes; **`Path.text`** puts it together again.
* **`Path.components`** is what a path says: empty parts and single dots name nothing, except for a dot
  at the very start.
* **`Path.fileName?`** is the last name of a path; **`Path.withFileName`** puts another in its place. -/

namespace CallScript.Files

/-- How a path starts. -/
inductive Anchor where
  /-- With a slash: at the root. -/
  | root
  /-- With a dot: explicitly in the working directory. -/
  | here
  /-- With the first of its parts. -/
  | bare
  deriving DecidableEq

/-- The text of an anchor. -/
def Anchor.text : Anchor → List Char
  | .root => ['/']
  | .here => ['.']
  | .bare => []

/-- A **path**: how it starts, and the parts between the slashes of what follows. -/
structure Path where
  /-- How the path starts. -/
  anchor : Anchor
  /-- The parts after the start. -/
  parts : List (List Char)
  deriving DecidableEq

/-- What one part of a path stands for. -/
inductive Component where
  /-- The root directory. -/
  | root
  /-- The working directory. -/
  | here
  /-- The directory above. -/
  | up
  /-- The entry with this name. -/
  | name (text : List Char)
  deriving DecidableEq

namespace Path

/-- Take a path apart. -/
def ofText : List Char → Path
  | '/' :: rest => ⟨.root, rest.splitOn '/'⟩
  | ['.'] => ⟨.here, [[]]⟩
  | '.' :: '/' :: rest => ⟨.here, [] :: rest.splitOn '/'⟩
  | text => ⟨.bare, text.splitOn '/'⟩

/-- The text of a path. -/
def text (path : Path) : List Char :=
  path.anchor.text ++ List.intercalate ['/'] path.parts

/-- An empty part or a single dot names nothing. -/
def isFiller (part : List Char) : Bool :=
  part.isEmpty || part == ['.']

/-- Drop the parts at the end that name nothing. -/
def trimFillers (parts : List (List Char)) : List (List Char) :=
  (parts.reverse.dropWhile isFiller).reverse

/-- What a path says, from left to right. -/
def components (path : Path) : List Component :=
  let start : List Component :=
    match path.anchor with
    | .root => [.root]
    | .here => [.here]
    | .bare => []
  start ++ (path.parts.filter (!isFiller ·)).map fun part =>
    if part = ['.', '.'] then .up else .name part

/-- The name of the entry at which a path leads; none if it ends in two dots or has no parts. -/
def fileName? (path : Path) : Option (List Char) :=
  (trimFillers path.parts).getLast?.filter (· ≠ ['.', '.'])

/-- A path without its last name, and without the slashes and dots before that. -/
def parent (path : Path) : Path :=
  { path with parts := trimFillers (trimFillers path.parts).dropLast }

/-- The text of an entry in the directory at which a path leads. -/
def child (directory : List Char) (name : List Char) : List Char :=
  if directory.isEmpty || directory.getLast? = some '/' then directory ++ name
  else directory ++ '/' :: name

/-- The text of a path with another last name. -/
def withFileName (path : Path) (name : List Char) : List Char :=
  child path.parent.text name

end Path

end CallScript.Files
