import CallScript.Text.Blank
import CallScript.Text.Utf8

/-! # Tokens

The words of a script line, with the columns at which they stand. A column is one more than the
number of bytes before the token in the UTF-8 form of its line.

* **`Token`** is a word and its column.
* **`tokens`** are the maximal runs of characters that are not blank. -/

namespace CallScript.Script

/-- A **token**: a run of characters without blanks, and its 1-based byte column in the line. -/
structure Token where
  /-- The characters of the token. -/
  text : String
  /-- One more than the number of bytes before the token. -/
  column : Nat
  deriving DecidableEq

/-- The **tokens** of a piece of a line that starts `offset` bytes into the line. -/
def tokens (offset : Nat) (text : List Char) : List Token :=
  match h : Text.trimStart text with
  | [] => []
  | c :: rest =>
    let start := offset + Text.byteLength (text.takeWhile Text.isBlank)
    let word := c :: rest.takeWhile (!Text.isBlank ·)
    have : (rest.dropWhile (!Text.isBlank ·)).length < text.length := by
      have whole : (c :: rest).length ≤ text.length := by
        rw [← h]
        exact (List.dropWhile_suffix Text.isBlank).length_le
      have tail : (rest.dropWhile (!Text.isBlank ·)).length ≤ rest.length :=
        (List.dropWhile_suffix _).length_le
      simp only [List.length_cons] at whole
      omega
    ⟨String.ofList word, start + 1⟩ ::
      tokens (start + Text.byteLength word) (rest.dropWhile (!Text.isBlank ·))
termination_by text.length

end CallScript.Script
