import CallScript.Address

/-! # Words

The 32-byte cells in which arguments are passed.

* **`Word`** is a cell and **`Word.toNat`** its big-endian value.
* **`Word.placeholder`** is the reserved word of all ones.
* **`Word.mulAdd`** multiplies by a small factor and adds a small number, byte by byte. -/

namespace CallScript

/-- A **word** of 32 bytes, most significant byte first. -/
@[ext] structure Word where
  /-- The bytes of the word. -/
  bytes : Block 32
  deriving DecidableEq

namespace Word

/-- A word is written as its bytes. -/
instance : Encode Word := Encode.inOnePiece fun word => word.bytes.toList

/-- The value of a word read as a big-endian number. -/
def toNat (word : Word) : Nat :=
  word.bytes.toList.value

/-- The word of value zero. -/
def zero : Word :=
  ⟨Block.fill 32 0x00⟩

/-- The reserved word in which every bit is set. It stands for an argument to be filled in later. -/
def placeholder : Word :=
  ⟨Block.fill 32 0xFF⟩

/-- An address in the last 20 bytes of a word, after 12 zero bytes. -/
def ofAddress (address : Address) : Word :=
  ⟨(Block.fill 12 0x00).append address.bytes⟩

/-- The bytes whose halves are the given digit values, followed by zeros up to 32 bytes. Digits
after the first 64 are dropped. -/
def ofLeadingDigits (values : List Nat) : Word :=
  ⟨Hex.pack ((values ++ List.replicate 64 0).take 64), by
    rw [Hex.length_pack, List.length_take, List.length_append, List.length_replicate]
    omega⟩

/-! ## Multiplying and adding -/

/-- Multiply a big-endian number by `factor` and add `addend`. Starting from the last byte, each byte
is multiplied, the carry from its right is added, the low eight bits stay and the rest is carried
on. The result is the bytes and the final carry. -/
def mulAddBytes (factor addend : UInt32) : Bytes → Bytes × UInt32
  | [] => ([], addend)
  | byte :: rest =>
    let (low, carry) := mulAddBytes factor addend rest
    let column := byte.toUInt32 * factor + carry
    (column.toUInt8 :: low, column >>> 8)

/-- As many bytes come out as went in. -/
@[simp] theorem length_mulAddBytes (factor addend : UInt32) (bytes : Bytes) :
    (mulAddBytes factor addend bytes).1.length = bytes.length := by
  induction bytes with
  | nil => rfl
  | cons byte rest ih => simp [mulAddBytes, ih]

/-- Multiply a word by `factor` and add `addend`, keeping the last 32 bytes, and what is carried out
of them. -/
def mulAdd (factor addend : UInt32) (word : Word) : Word × UInt32 :=
  (⟨(mulAddBytes factor addend word.bytes.toList).1, by simp⟩,
    (mulAddBytes factor addend word.bytes.toList).2)

/-- Multiply a word by `factor` and add `addend`, if the result fits in a word. -/
def mulAdd? (factor addend : UInt32) (word : Word) : Option Word :=
  let (result, carry) := mulAdd factor addend word
  if carry = 0 then some result else none

end Word

end CallScript
