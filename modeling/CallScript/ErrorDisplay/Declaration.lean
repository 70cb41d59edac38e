/-! # Declarations of error types

What a type declaration says, as far as its display code depends on it.

* **`Declaration`** is the declaration of a type, **`Variant`** one case of an enumeration.
* **`Attribute`** is an attribute in front of either.
* **`messageOf`** finds the message template among the attributes. -/

namespace CallScript.ErrorDisplay

/-- The fields of a type or of a variant. -/
inductive Fields where
  /-- No fields at all. -/
  | unit
  /-- Fields known by their positions. -/
  | tuple (count : Nat)
  /-- Fields with names. -/
  | named (names : List String)
  deriving DecidableEq

/-- One token among the arguments of an attribute. -/
inductive AttributeToken where
  /-- A string literal. -/
  | text (content : String)
  /-- A number literal. -/
  | number (value : Nat)
  /-- An identifier. -/
  | word (name : String)
  /-- A comma. -/
  | comma
  deriving DecidableEq

/-- What follows the path of an attribute. -/
inductive AttributeInput where
  /-- Nothing. -/
  | nothing
  /-- An equals sign and a string literal. -/
  | value (content : String)
  /-- Arguments in parentheses. -/
  | arguments (tokens : List AttributeToken)
  deriving DecidableEq

/-- An **attribute** of a type or of a variant. -/
structure Attribute where
  /-- The names of its path. -/
  path : List String
  /-- What follows the path. -/
  input : AttributeInput
  deriving DecidableEq

/-- One case of an enumeration. -/
structure Variant where
  /-- The name of the variant. -/
  name : String
  /-- Its attributes. -/
  attributes : List Attribute
  /-- Its fields. -/
  fields : Fields
  deriving DecidableEq

/-- What kind of type is declared. -/
inductive Shape where
  /-- One of several variants. -/
  | enumeration (variants : List Variant)
  /-- One group of fields. -/
  | record (fields : Fields)
  /-- Fields that share their place. -/
  | union (fields : Fields)
  deriving DecidableEq

/-- The **declaration** of a type. -/
structure Declaration where
  /-- The name of the type. -/
  name : String
  /-- Its type parameters. -/
  params : List String
  /-- What is required of the parameters, each requirement as it is written. -/
  requirements : List String
  /-- Its attributes. -/
  attributes : List Attribute
  /-- What kind of type it is. -/
  shape : Shape
  deriving DecidableEq

/-! ## Finding the message -/

/-- What a message belongs to. -/
inductive Owner where
  /-- A variant of an enumeration. -/
  | variant (name : String)
  /-- A whole type. -/
  | type (name : String)
  deriving DecidableEq

/-- The wording for what a message belongs to. -/
def Owner.description : Owner → String
  | .variant name => s!"variant `{name}`"
  | .type name => s!"type `{name}`"

/-- Why no display code can be generated. -/
inductive DeriveError where
  /-- A type or variant has no message. -/
  | missingMessage (owner : Owner)
  /-- The attribute for the message has no arguments in parentheses. -/
  | noArguments
  /-- The arguments are not a single string literal. -/
  | notText
  /-- The type is a union. -/
  | unionType
  deriving DecidableEq

/-- The wording of a derive error. -/
def DeriveError.message : DeriveError → String
  | .missingMessage owner =>
    s!"missing #[error(\"...\")] attribute on {owner.description}" ++
      "; every error needs a display message"
  | .noArguments => "invalid #[error] attribute; use #[error(\"message\")]"
  | .notText =>
    "#[error] expects a string literal, e.g. #[error(\"invalid address: \x7b0\x7d\")]"
  | .unionType => "Error derive does not support unions"

/-- The message of a type or variant. The first attribute called `error` holds it, and no other
attribute is looked at. -/
def messageOf (owner : Owner) (attributes : List Attribute) : Except DeriveError String :=
  match attributes.find? (·.path = ["error"]) with
  | none => .error (.missingMessage owner)
  | some found =>
    match found.input with
    | .arguments [.text content] => .ok content
    | .arguments _ => .error .notText
    | .nothing | .value _ => .error .noArguments

end CallScript.ErrorDisplay
