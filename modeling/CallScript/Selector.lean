import CallScript.Bytes.Sink
import CallScript.Hex
import CallScript.Keccak

/-! # Selectors

The four bytes by which a contract tells its functions apart.

* **`Selector`** is a selector, **`Selector.text`** its written form.
* **`Selector.hash`** is the selector taken from the hash of a text, and **`Selector.hashPieces`** that
  of a text in pieces. -/

namespace CallScript

/-- A function **selector** of four bytes. -/
@[ext] structure Selector where
  /-- The bytes of the selector. -/
  bytes : Block 4
  deriving DecidableEq

namespace Selector

/-- A selector is written as its bytes. -/
instance : Encode Selector := Encode.inOnePiece fun selector => selector.bytes.toList

/-- A selector as text: the marker `0x` and eight lowercase digits. -/
def text (selector : Selector) : String :=
  "0x" ++ Hex.encode selector.bytes.toList

/-- The first four bytes of the Keccak-256 digest of a text in UTF-8. -/
def hash (text : List Char) : Selector :=
  ⟨(Keccak.digest (Text.utf8 text)).first 4 (by decide)⟩

/-- The first four bytes of the Keccak-256 digest of a text that is hashed piece by piece. -/
def hashPieces (pieces : List (List Char)) : Selector :=
  ⟨(Keccak.Hasher.digestPieces (pieces.map Text.utf8)).first 4 (by decide)⟩

end Selector

end CallScript
