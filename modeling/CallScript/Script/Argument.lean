import CallScript.Script.Cause

/-! # Arguments

How the arguments of a call become words.

* **`ArgumentType`** is a type of arguments that can be encoded.
* **`encodeArgument`** encodes one argument under its type tag.
* **`encodeArguments`** encodes all arguments of a call. -/

namespace CallScript.Script

/-- The types of arguments. -/
inductive ArgumentType where
  /-- A contract address. -/
  | address
  /-- An unsigned number of at most 256 bits. -/
  | uint256
  /-- At most 32 bytes. -/
  | bytes32
  deriving DecidableEq

/-- The type that a tag names. -/
def ArgumentType.ofTag? (tag : String) : Option ArgumentType :=
  if tag = "address" then some .address
  else if tag = "uint256" ∨ tag = "uint" then some .uint256
  else if tag = "bytes32" then some .bytes32
  else none

/-- The type that a tag names; a tag without a type is a fault. -/
def ArgumentType.ofTag (tag : String) : Except Cause ArgumentType :=
  match ofTag? tag with
  | some type => .ok type
  | none => .error (.unsupportedType tag)

/-- Encode a literal of the given type. -/
def ArgumentType.encode (token : String) : ArgumentType → Except Cause Word
  | .address =>
    match Address.parseLenient? token with
    | some target => .ok (Word.ofAddress target)
    | none => .error (.invalidAddress token)
  | .uint256 => (Word.parseUint token).mapError (.invalidNumber token)
  | .bytes32 => (Word.parseBytes32 token).mapError (.invalidBytes32 token)

/-- Encode an argument. A dollar sign is the placeholder word whatever its tag says. -/
def encodeArgument (tag token : String) : Except Cause Word :=
  if token = "$" then .ok Word.placeholder
  else
    match ArgumentType.ofTag tag with
    | .ok type => type.encode token
    | .error cause => .error cause

/-- What is wrong with the arguments of a call, and which argument it is about, if it is about one. -/
structure ArgumentsFault where
  /-- The index of the argument; none when their number is wrong. -/
  index : Option Nat
  /-- What is wrong. -/
  cause : Cause
  deriving DecidableEq

/-- Encode arguments with their tags from left to right, counting them from `index`. -/
def encodeEach (index : Nat) : List (String × String) → Except ArgumentsFault (List Word)
  | [] => .ok []
  | (tag, token) :: rest =>
    match encodeArgument tag token with
    | .error cause => .error ⟨some index, cause⟩
    | .ok word => (encodeEach (index + 1) rest).map (word :: ·)

/-- Encode the arguments of a call under the tags of its signature. Their number is checked first. -/
def encodeArguments (tags tokens : List String) : Except ArgumentsFault (List Word) :=
  if tags.length ≠ tokens.length then
    .error ⟨none, .argumentCount tags.length tokens.length⟩
  else encodeEach 0 (tags.zip tokens)

end CallScript.Script
