import CallScript.ErrorDisplay.Implementation
import CallScript.Text.Quoted

/-! # The text of display implementations

Generated code as a sequence of tokens with single spaces between them, except on the inner sides of
parentheses.

* **`literal`** writes a text as a string literal.
* **`Implementation.code`** writes the code for a type. -/

namespace CallScript.ErrorDisplay

/-- The characters of a string literal. A single quote stands for itself. NUL is written with two
hexadecimal digits before an octal digit, so that the two cannot be taken together, and as a single
zero otherwise. -/
def literalChars : List Char → List Char
  | [] => []
  | c :: rest =>
    let written :=
      if c = '\x00' then
        match rest with
        | next :: _ => if '0' ≤ next ∧ next ≤ '7' then ['\\', 'x', '0', '0'] else ['\\', '0']
        | [] => ['\\', '0']
      else if c = '\x27' then [c]
      else Text.escape '\x22' c
    written ++ literalChars rest

/-- A text as a string literal. -/
def literal (text : String) : String :=
  String.ofList ('\x22' :: literalChars text.toList ++ ['\x22'])

/-- Items with commas between them. -/
def commaSeparated (items : List String) : String :=
  " , ".intercalate items

/-- The text of a value. -/
def Value.code : Value → String
  | .bound name => name
  | .field name => "self . " ++ name

/-- The text of a named argument. -/
def Binding.code (binding : Binding) : String :=
  binding.name ++ " = " ++ binding.value.code

/-- The text of a formatted write. A comma follows the format also when there are no arguments to
come, unless there is no list of arguments at all. -/
def Write.code (write : Write) : String :=
  let passed := match write.bindings with
    | none => ""
    | some [] => " ,"
    | some bindings => " , " ++ commaSeparated (bindings.map Binding.code)
  "write ! (" ++ formatterName ++ " , " ++ literal write.format ++ passed ++ ")"

/-- The text of a pattern, after the name of its variant. -/
def Pattern.code : Pattern → String
  | .unit => ""
  | .tuple slots => " (" ++ commaSeparated (slots.map (·.getD "_")) ++ ")"
  | .named names => " \x7b " ++ String.join (names.map (· ++ " , ")) ++ ".. \x7d"

/-- The text of a match arm. -/
def Arm.code (arm : Arm) : String :=
  "Self :: " ++ arm.variant ++ arm.pattern.code ++ " => " ++ arm.write.code ++ " ,"

/-- The text of a body. -/
def Body.code : Body → String
  | .cases arms => "match self \x7b " ++ String.join (arms.map (·.code ++ " ")) ++ "\x7d"
  | .direct write => write.code

namespace Implementation

/-- The type parameters in angle brackets, if there are any. -/
def generics (implementation : Implementation) : String :=
  if implementation.params.isEmpty then ""
  else " < " ++ commaSeparated implementation.params ++ " >"

/-- What is required of the type parameters, if anything is. -/
def whereClause (implementation : Implementation) : String :=
  if implementation.requirements.isEmpty then ""
  else " where " ++ commaSeparated implementation.requirements

/-- The start of an implementation of the given trait. -/
def heading (implementation : Implementation) (trait : String) : String :=
  "impl" ++ implementation.generics ++ " " ++ trait ++ " for " ++ implementation.name ++
    implementation.generics ++ implementation.whereClause

/-- The text of the code for a type: how it is displayed, and that it is an error. -/
def code (implementation : Implementation) : String :=
  implementation.heading ":: std :: fmt :: Display" ++
    " \x7b fn fmt (& self , " ++ formatterName ++ " : & mut :: std :: fmt :: Formatter < '_ >)" ++
    " -> :: std :: fmt :: Result \x7b " ++ implementation.body.code ++ " \x7d \x7d " ++
    implementation.heading ":: std :: error :: Error" ++ " \x7b \x7d"

end Implementation

end CallScript.ErrorDisplay
