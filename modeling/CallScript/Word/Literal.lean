import CallScript.Text.Quoted
import CallScript.Word

/-! # Literals

How numbers and byte strings are written in a script.

* **`LiteralError`** says what is wrong with a literal.
* **`Word.parseUint`** reads a decimal or hexadecimal number into the low end of a word.
* **`Word.parseBytes32`** reads up to 64 hexadecimal digits into the high end of a word. -/

namespace CallScript

/-- What can be wrong with a **literal**. -/
inductive LiteralError where
  /-- There is no digit at all. -/
  | noDigits
  /-- The number starts with a minus sign. -/
  | negative
  /-- A character is not a digit of the literal's base. -/
  | invalidDigit (c : Char)
  /-- The value needs more than 256 bits. -/
  | overflow
  /-- There are more than 64 digits. -/
  | tooLong
  deriving DecidableEq

/-- The wording of a literal error. -/
def LiteralError.message : LiteralError → String
  | .noDigits => "no digits"
  | .negative => "negative values are not allowed"
  | .invalidDigit c => "invalid digit " ++ Text.quotedChar c
  | .overflow => "value does not fit in 256 bits"
  | .tooLong => "more than 32 bytes of data"

/-- The base in which a number is written. -/
inductive Radix where
  /-- Digits `0` to `9`. -/
  | decimal
  /-- Digits `0` to `9` and the letters `a` to `f` of either case. -/
  | hexadecimal
  deriving DecidableEq

namespace Radix

/-- The number of digits of the base. -/
def size : Radix → Nat
  | .decimal => 10
  | .hexadecimal => 16

/-- The value of a character as a digit of the base. -/
def digit? (radix : Radix) (c : Char) : Option Nat :=
  (Hex.digit? c).filter (· < radix.size)

end Radix

namespace Word

/-- The base of a number and the characters that should be its digits: hexadecimal after `0x` or
`0X`, otherwise decimal. -/
def splitRadix : List Char → Radix × List Char
  | '0' :: 'x' :: digits => (.hexadecimal, digits)
  | '0' :: 'X' :: digits => (.hexadecimal, digits)
  | digits => (.decimal, digits)

/-- Append digits to the number in `word`, from left to right. The first character that is not a
digit, or the first digit for which there is no room, ends the reading. -/
def readDigits (radix : Radix) : Word → List Char → Except LiteralError Word
  | word, [] => .ok word
  | word, c :: rest =>
    match radix.digit? c with
    | none => .error (.invalidDigit c)
    | some digit =>
      match word.mulAdd? (UInt32.ofNat radix.size) (UInt32.ofNat digit) with
      | none => .error .overflow
      | some word => readDigits radix word rest

/-- Read an unsigned number of at most 256 bits. -/
def parseUint (token : String) : Except LiteralError Word :=
  if token.toList.head? = some '-' then .error .negative
  else
    match splitRadix token.toList with
    | (_, []) => .error .noDigits
    | (radix, digits) => readDigits radix zero digits

/-- The values of hexadecimal digits, or the first character that is not one. -/
def digitValues : List Char → Except LiteralError (List Nat)
  | [] => .ok []
  | c :: rest =>
    match Hex.digit? c with
    | none => .error (.invalidDigit c)
    | some value => (digitValues rest).map (value :: ·)

/-- Read at most 64 hexadecimal digits, with or without the marker `0x`, into the leading bytes of a
word. The number of characters is checked before the characters themselves. -/
def parseBytes32 (token : String) : Except LiteralError Word :=
  let digits := Hex.dropMarker token.toList
  if 64 < digits.length then .error .tooLong
  else (digitValues digits).map ofLeadingDigits

end Word

end CallScript
