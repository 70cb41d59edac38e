import CallScript.ErrorDisplay.Declaration
import CallScript.ErrorDisplay.Template

/-! # Display implementations

The code that writes the message of an error, derived from the declaration of its type. For an
enumeration it is one match arm for each variant; for a record it is a single write.

* **`Write`** is a formatted write, **`Arm`** a match arm; **`formatterName`** is where they write to.
* **`Arm.derive`** and **`Write.ofRecord`** bind the fields that a message refers to.
* **`Implementation`** is the code for a whole type; **`derive`** generates it. -/

namespace CallScript.ErrorDisplay

/-- The name of the **formatter**, the variable to which all generated code writes. -/
def formatterName : String := "f"

/-- The value handed to a formatted write. -/
inductive Value where
  /-- A variable that a pattern has bound. -/
  | bound (name : String)
  /-- A field of the value being written. -/
  | field (name : String)
  deriving DecidableEq

/-- A named argument of a formatted write. -/
structure Binding where
  /-- The name under which the format refers to the argument. -/
  name : String
  /-- The argument. -/
  value : Value
  deriving DecidableEq

/-- A formatted **write**: the format and its named arguments. A type without fields has no list of
arguments at all. -/
structure Write where
  /-- The format. -/
  format : String
  /-- The named arguments. -/
  bindings : Option (List Binding)
  deriving DecidableEq

/-- The pattern of a match arm. -/
inductive Pattern where
  /-- A variant without fields. -/
  | unit
  /-- A name for each position, or none for a position that is not needed. -/
  | tuple (slots : List (Option String))
  /-- The names of the fields that are needed. -/
  | named (names : List String)
  deriving DecidableEq

/-- A match **arm**: a variant, the fields it binds, and what is written. -/
structure Arm where
  /-- The name of the variant. -/
  variant : String
  /-- How its fields are bound. -/
  pattern : Pattern
  /-- What is written. -/
  write : Write
  deriving DecidableEq

/-- What the generated code does. -/
inductive Body where
  /-- Tell the variants apart. -/
  | cases (arms : List Arm)
  /-- Write one message. -/
  | direct (write : Write)
  deriving DecidableEq

/-- The generated code for a type. -/
structure Implementation where
  /-- The name of the type. -/
  name : String
  /-- Its type parameters. -/
  params : List String
  /-- What is required of the parameters, each requirement as it is written. -/
  requirements : List String
  /-- What the code does. -/
  body : Body
  deriving DecidableEq

/-! ## Which fields are needed -/

/-- Whether a message refers to a position, written in plain decimal. -/
def usesPosition (message : String) (position : Nat) : Bool :=
  (arguments message).contains (decimal position)

/-- The positions below `count` to which a message refers. -/
def usedPositions (message : String) (count : Nat) : List Nat :=
  (List.range count).filter (usesPosition message)

/-- The field names to which a message refers, in the order of their declaration. -/
def usedNames (message : String) (names : List String) : List String :=
  names.filter fun name => (arguments message).contains name

/-! ## Generating code -/

/-- The arm of a variant with the given fields and message. -/
def Arm.derive (variant message : String) : Fields → Arm
  | .unit => ⟨variant, .unit, ⟨message, none⟩⟩
  | .tuple count =>
    let slot (position : Nat) : Option String :=
      if usesPosition message position then some (positionName position) else none
    let binding (position : Nat) : Binding :=
      ⟨positionName position, .bound (positionName position)⟩
    ⟨variant, .tuple ((List.range count).map slot),
      ⟨renamePositional count message, some ((usedPositions message count).map binding)⟩⟩
  | .named names =>
    let used := usedNames message names
    ⟨variant, .named used, ⟨message, some (used.map fun name => ⟨name, .bound name⟩)⟩⟩

/-- The write of a record with the given fields and message. -/
def Write.ofRecord (message : String) : Fields → Write
  | .unit => ⟨message, none⟩
  | .tuple count =>
    let binding (position : Nat) : Binding := ⟨positionName position, .field (decimal position)⟩
    ⟨renamePositional count message, some ((usedPositions message count).map binding)⟩
  | .named names =>
    ⟨message, some ((usedNames message names).map fun name => ⟨name, .field name⟩)⟩

/-- The arms of an enumeration. The first variant without a message decides the error. -/
def deriveArms : List Variant → Except DeriveError (List Arm)
  | [] => .ok []
  | variant :: rest =>
    match messageOf (.variant variant.name) variant.attributes with
    | .error error => .error error
    | .ok message => (deriveArms rest).map (Arm.derive variant.name message variant.fields :: ·)

/-- What the code for a type does. The message of a record stands on the type itself; the attributes
of an enumeration as a whole are not looked at. -/
def deriveBody (declaration : Declaration) : Except DeriveError Body :=
  match declaration.shape with
  | .enumeration variants => (deriveArms variants).map .cases
  | .record fields =>
    (messageOf (.type declaration.name) declaration.attributes).map fun message =>
      .direct (Write.ofRecord message fields)
  | .union _ => .error .unionType

/-- **Derive** the display code of an error type. -/
def derive (declaration : Declaration) : Except DeriveError Implementation :=
  (deriveBody declaration).map fun body =>
    ⟨declaration.name, declaration.params, declaration.requirements, body⟩

end CallScript.ErrorDisplay
