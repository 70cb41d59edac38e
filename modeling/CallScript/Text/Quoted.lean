import CallScript.Text.DefaultIgnorable
import CallScript.Text.GraphemeExtend
import CallScript.Text.Unprintable

/-! # Quoted text

How messages show a piece of the script, so that every character in it can be seen.

* **`isHidden`** says which characters would not be seen.
* **`escape`** writes one character between quotes.
* **`quoted`** is a text in double quotes, **`quotedChar`** a character in single quotes. -/

namespace CallScript.Text

/-- The half-width voiced and semi-voiced sound marks. They extend the character before them but are
letters, with a form and a width of their own wherever they stand. -/
def isSoundMark (c : Char) : Bool :=
  c == '\uFF9E' || c == '\uFF9F'

/-- A character is **hidden** when it cannot be told from its neighbours by eye: it is unprintable or
ignorable, or it merges with the character before it. -/
def isHidden (c : Char) : Bool :=
  isUnprintable c || isDefaultIgnorable c || (isGraphemeExtend c && !isSoundMark c)

/-- A character written by its code point: a backslash, the letter u and the number in lowercase
hexadecimal between braces, without leading zeros. -/
def codePoint (c : Char) : List Char :=
  ['\\', 'u', '{'] ++ Nat.toDigits 16 c.toNat ++ ['}']

/-- How one character is written between two `quote` characters. A backslash, the quote itself, NUL,
tab, carriage return and newline have short forms; hidden characters are written by their code
point; all others stand for themselves. -/
def escape (quote c : Char) : List Char :=
  if c = '\x00' then ['\\', '0']
  else if c = '\t' then ['\\', 't']
  else if c = '\r' then ['\\', 'r']
  else if c = '\n' then ['\\', 'n']
  else if c = '\\' || c = quote then ['\\', c]
  else if isHidden c then codePoint c
  else [c]

/-- A text in double quotes. A single quote in it stands for itself. -/
def quoted (text : String) : String :=
  String.ofList ('\x22' :: text.toList.flatMap (escape '\x22') ++ ['\x22'])

/-- A character in single quotes. A double quote stands for itself. -/
def quotedChar (c : Char) : String :=
  String.ofList ('\x27' :: escape '\x27' c ++ ['\x27'])

/-- A quote is escaped only between quotes of its own kind. -/
example : quoted "a\x22b\x27" = "\"a\\\"b'\"" ∧ quotedChar '\x27' = "'\\''" := by decide +kernel

end CallScript.Text
