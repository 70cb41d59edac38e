/-! # Message templates

The messages of error types are templates: text with placeholders `{argument}` or
`{argument:specifier}`, in which a brace that is text is doubled.

* **`Piece`** is a stretch of text or a placeholder; **`Piece.spelling`** is how it is written.
* **`scan`** takes a message apart into its pieces.
* **`arguments`** are the arguments that a message refers to.
* **`renamePositional`** gives names to the arguments that are positions. -/

namespace CallScript.ErrorDisplay

/-- A **piece** of a message template. -/
inductive Piece where
  /-- Text as it is written. -/
  | text (content : String)
  /-- A place for an argument. The specifier is empty or starts with a colon. -/
  | placeholder (argument specifier : String)
  deriving DecidableEq

/-- How a piece is written. -/
def Piece.spelling : Piece → List Char
  | .text content => content.toList
  | .placeholder argument specifier =>
    '{' :: (argument.toList ++ specifier.toList ++ ['}'])

/-- How a sequence of pieces is written. -/
def spell (pieces : List Piece) : List Char :=
  pieces.flatMap Piece.spelling

/-! ## Taking messages apart -/

/-- The characters that can start or end a placeholder. -/
def isBrace (c : Char) : Bool :=
  c == '{' || c == '}'

/-- The placeholder with the given text between its braces. The argument ends at the first colon. -/
def placeholderOf (inner : List Char) : Piece :=
  .placeholder (String.ofList (inner.takeWhile (· ≠ ':')))
    (String.ofList (inner.dropWhile (· ≠ ':')))

/-- What follows the character at which a dropped run stops is shorter than the whole text. -/
theorem length_of_dropWhile {p : Char → Bool} {c : Char} {text rest : List Char}
    (h : text.dropWhile p = c :: rest) : rest.length < text.length := by
  have le := (List.dropWhile_suffix p : text.dropWhile p <:+ text).length_le
  rw [h] at le
  exact le

/-- What is left of a text after its first character `stop`, if it has one. -/
def after? (stop : Char) (text : List Char) : Option (List Char) :=
  match text.dropWhile (· ≠ stop) with
  | [] => none
  | _ :: rest => some rest

theorem length_of_after? {stop : Char} {text rest : List Char} (h : after? stop text = some rest) :
    rest.length < text.length := by
  unfold after? at h
  split at h
  · contradiction
  · next c tail drop =>
    cases h
    exact length_of_dropWhile drop

/-- The **pieces** of a message. The text before every brace is a piece of its own, even if it is
empty, and so are a doubled brace and a closing brace that closes nothing. An opening brace that is
never closed makes text of all that follows. -/
def scan (message : List Char) : List Piece :=
  let before := Piece.text (String.ofList (message.takeWhile (!isBrace ·)))
  match h : message.dropWhile (!isBrace ·) with
  | [] => [before]
  | '{' :: '{' :: rest =>
    have : rest.length < message.length := Nat.lt_of_succ_lt (length_of_dropWhile h)
    before :: .text (String.ofList ['{', '{']) :: scan rest
  | '}' :: '}' :: rest =>
    have : rest.length < message.length := Nat.lt_of_succ_lt (length_of_dropWhile h)
    before :: .text (String.ofList ['}', '}']) :: scan rest
  | '{' :: rest =>
    match closed : after? '}' rest with
    | none => [before, .text (String.ofList ('{' :: rest))]
    | some tail =>
      have : tail.length < message.length :=
        Nat.lt_trans (length_of_after? closed) (length_of_dropWhile h)
      before :: placeholderOf (rest.takeWhile (· ≠ '}')) :: scan tail
  | brace :: rest =>
    have : rest.length < message.length := length_of_dropWhile h
    before :: .text (String.ofList [brace]) :: scan rest
termination_by message.length

/-! ## Arguments -/

/-- The argument of a placeholder. -/
def Piece.argument? : Piece → Option String
  | .text _ => none
  | .placeholder argument _ => some argument

/-- The **arguments** that a message refers to, each once, in the order of their first use. -/
def arguments (message : String) : List String :=
  ((scan message.toList).filterMap Piece.argument?).eraseDups

/-- The position that an argument stands for: a decimal number, perhaps after a plus sign. -/
def position? (argument : String) : Option Nat :=
  let digits := match argument.toList with
    | '+' :: rest => rest
    | other => other
  if digits.isEmpty || !digits.all Char.isDigit then none
  else some (Nat.ofDigitChars 10 digits 0)

/-- A number in decimal. -/
def decimal (number : Nat) : String :=
  String.ofList (Nat.toDigits 10 number)

/-- The name given to a position: the letter f and the position in decimal. -/
def positionName (position : Nat) : String :=
  "f" ++ decimal position

/-- Name the argument of a placeholder if it is a position below `count`. -/
def Piece.rename (count : Nat) : Piece → Piece
  | .text content => .text content
  | .placeholder argument specifier =>
    match position? argument with
    | some position =>
      if position < count then .placeholder (positionName position) specifier
      else .placeholder argument specifier
    | none => .placeholder argument specifier

/-- A message in which the positions below `count` have become names. -/
def renamePositional (count : Nat) (message : String) : String :=
  String.ofList (spell ((scan message.toList).map (Piece.rename count)))

end CallScript.ErrorDisplay
