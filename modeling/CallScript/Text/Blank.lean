import CallScript.Text.CodeRange

/-! # Blanks

The characters that separate tokens and are trimmed from the ends of a line.

* **`isBlank`** is the Unicode property White_Space.
* **`trimStart`**, **`trimEnd`** and **`trim`** drop blanks from one or both ends of a text. -/

namespace CallScript.Text

/-- The code points of the Unicode property White_Space. -/
def blankRanges : List CodeRange := [
  (0x0009, 0x000D), (0x0020, 0x0020), (0x0085, 0x0085), (0x00A0, 0x00A0), (0x1680, 0x1680),
  (0x2000, 0x200A), (0x2028, 0x2029), (0x202F, 0x202F), (0x205F, 0x205F), (0x3000, 0x3000)]

/-- A **blank** is a character of Unicode white space. Zero-width spaces and the information
separators U+001C to U+001F are not blanks. -/
def isBlank (c : Char) : Bool :=
  CodeRange.holds blankRanges c

/-- Drop the blanks at the start of a text. -/
def trimStart (text : List Char) : List Char :=
  text.dropWhile isBlank

/-- Drop the blanks at the end of a text. -/
def trimEnd (text : List Char) : List Char :=
  (text.reverse.dropWhile isBlank).reverse

/-- Drop the blanks at both ends of a text. -/
def trim (text : List Char) : List Char :=
  trimEnd (trimStart text)

@[simp] theorem trimStart_nil : trimStart [] = [] := rfl

@[simp] theorem trimEnd_nil : trimEnd [] = [] := rfl

/-- A text is its leading blanks followed by what trimming leaves. -/
theorem takeWhile_append_trimStart (text : List Char) :
    text.takeWhile isBlank ++ trimStart text = text :=
  List.takeWhile_append_dropWhile

/-- What is left after dropping leading blanks does not start with a blank. -/
theorem isBlank_eq_false_of_trimStart {text rest : List Char} {c : Char}
    (h : trimStart text = c :: rest) : isBlank c = false := by
  have := List.head?_dropWhile_not isBlank text
  simp only [trimStart] at h
  simpa [h] using this

end CallScript.Text
