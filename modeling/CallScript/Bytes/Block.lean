import CallScript.Text.Utf8

/-! # Blocks of bytes

Byte sequences of a fixed length and the numbers they stand for.

* **`Block n`** is a sequence of exactly `n` bytes.
* **`Bytes.value`** is the big-endian value of a byte sequence; **`Bytes.bigEndian`** writes a number
  in a given number of bytes. -/

namespace CallScript

namespace Bytes

/-- The **value** of a byte sequence, most significant byte first. -/
def value (bytes : Bytes) : Nat :=
  bytes.foldl (fun total byte => total * 256 + byte.toNat) 0

/-- The last `width` base-256 digits of a number, most significant first. -/
def bigEndian : (width : Nat) → (number : Nat) → Bytes
  | 0, _ => []
  | width + 1, number => bigEndian width (number / 256) ++ [UInt8.ofNat number]

@[simp] theorem value_nil : value [] = 0 := rfl

/-- Appending a byte shifts the value by one base-256 place. -/
@[simp] theorem value_concat (bytes : Bytes) (byte : UInt8) :
    value (bytes ++ [byte]) = value bytes * 256 + byte.toNat := by
  simp [value]

@[simp] theorem length_bigEndian (width number : Nat) : (bigEndian width number).length = width := by
  induction width generalizing number with
  | zero => rfl
  | succ width ih => simp [bigEndian, ih]

end Bytes

/-- A **block** of `n` bytes. -/
@[ext] structure Block (n : Nat) where
  /-- The bytes of the block, in order. -/
  toList : Bytes
  /-- A block of `n` bytes has `n` bytes. -/
  length_toList : toList.length = n
  deriving DecidableEq

namespace Block

attribute [simp] length_toList

/-- A byte sequence as a block, if it has the right length. -/
def ofBytes? (n : Nat) (bytes : Bytes) : Option (Block n) :=
  if h : bytes.length = n then some ⟨bytes, h⟩ else none

/-- The block in which every byte is `byte`. -/
def fill (n : Nat) (byte : UInt8) : Block n :=
  ⟨List.replicate n byte, by simp⟩

/-- The block of the first `m` bytes. -/
def first {n : Nat} (m : Nat) (block : Block n) (h : m ≤ n) : Block m :=
  ⟨block.toList.take m, by simp [Nat.min_eq_left h]⟩

/-- Two blocks in a row. -/
def append {m n : Nat} (left : Block m) (right : Block n) : Block (m + n) :=
  ⟨left.toList ++ right.toList, by simp⟩

/-- A byte sequence is a block exactly when it is that block's list of bytes. -/
theorem ofBytes?_eq_some_iff {n : Nat} {bytes : Bytes} {block : Block n} :
    ofBytes? n bytes = some block ↔ bytes = block.toList := by
  obtain ⟨list, rfl⟩ := block
  constructor
  · intro h
    unfold ofBytes? at h
    split at h <;> simp_all
  · rintro rfl
    simp [ofBytes?]

@[simp] theorem ofBytes?_toList {n : Nat} (block : Block n) :
    ofBytes? n block.toList = some block :=
  ofBytes?_eq_some_iff.2 rfl

end Block

end CallScript
