import CallScript.Selector
import CallScript.Text.Blank

/-! # Signatures

A function's name and the type tags of its parameters, written `name(tag,...,tag)`.

* **`Signature`** is a signature and **`Signature.text`** its written form.
* **`Signature.parse?`** reads one; the tags are taken as they stand.
* **`Signature.selector`** is the selector of the function. -/

namespace CallScript.Script

/-- The characters of names: ASCII letters, digits and the underscore. -/
def isNameChar (c : Char) : Bool :=
  c.isAlphanum || c == '_'

/-- A **name** is a non-empty run of name characters. -/
def isName (text : List Char) : Bool :=
  !text.isEmpty && text.all isNameChar

/-- A function **signature**. -/
structure Signature where
  /-- The name of the function. -/
  name : String
  /-- The type tags of its parameters, as written. -/
  params : List String
  deriving DecidableEq

namespace Signature

/-- A signature as text: the name and, in parentheses, the tags with commas between them. -/
def text (signature : Signature) : List Char :=
  signature.name.toList ++
    '(' :: (List.intercalate [','] (signature.params.map String.toList) ++ [')'])

/-- The tags between the parentheses of a signature, without blanks around them. Nothing between the
parentheses means that there are none. -/
def splitParams (list : List Char) : List String :=
  if list.isEmpty then []
  else (list.splitOn ',').map fun tag => String.ofList (Text.trim tag)

/-- Read a signature. The name ends at the first opening parenthesis, the closing one is the last
character, and there is no other parenthesis between the two. -/
def parse? (token : String) : Option Signature :=
  let name := token.toList.takeWhile (· ≠ '(')
  match token.toList.dropWhile (· ≠ '(') with
  | [] => none
  | _ :: rest =>
    let list := rest.dropLast
    if rest.getLast? = some ')' ∧ isName name ∧ list.all (fun c => c ≠ '(' ∧ c ≠ ')') then
      some ⟨String.ofList name, splitParams list⟩
    else none

/-- The pieces of a signature in the order in which they are hashed: the name, the parentheses, and
between these the tags with commas between them. -/
def pieces (signature : Signature) : List (List Char) :=
  signature.name.toList :: ['('] ::
    ((signature.params.map String.toList).intersperse [','] ++ [[')']])

/-- The selector of the function with this signature. -/
def selector (signature : Signature) : Selector :=
  Selector.hashPieces signature.pieces

end Signature

end CallScript.Script
