import CallScript.Bytes.Block
import Mathlib.Data.List.Induction
import Mathlib.Tactic.Ring

/-! # Big-endian numbers

Writing a number in a fixed number of bytes and taking the value of those bytes undo each other.

* **`Bytes.value_lt`**: `n` bytes stand for a number below `256 ^ n`.
* **`Bytes.value_bigEndian`** and **`Bytes.bigEndian_value`**: the two directions of the
  correspondence. -/

namespace CallScript.Bytes

/-- `value (left ++ right)`: the left part is shifted by one base-256 place for each byte on the
right. -/
theorem value_append (left right : Bytes) :
    value (left ++ right) = value left * 256 ^ right.length + value right := by
  -- From the right, because a value grows by a byte at its end.
  induction right using List.reverseRecOn with
  | nil => simp
  | append_singleton right byte ih =>
    rw [← List.append_assoc, value_concat, value_concat, ih, List.length_append,
      List.length_singleton, Nat.pow_succ]
    ring

/-- The value of one byte is the byte. -/
@[simp] theorem value_singleton (byte : UInt8) : value [byte] = byte.toNat := by
  simp [value]

/-- The first byte counts for `256 ^ n` when `n` bytes follow it. -/
theorem value_cons (byte : UInt8) (bytes : Bytes) :
    value (byte :: bytes) = byte.toNat * 256 ^ bytes.length + value bytes := by
  have h := value_append [byte] bytes
  rwa [value_singleton, List.singleton_append] at h

/-- `n` bytes stand for a number below `256 ^ n`. -/
theorem value_lt (bytes : Bytes) : value bytes < 256 ^ bytes.length := by
  induction bytes using List.reverseRecOn with
  | nil => simp
  | append_singleton bytes byte ih =>
    rw [value_concat, List.length_append, List.length_singleton, Nat.pow_succ]
    have hbyte : byte.toNat < 256 := byte.toNat_lt
    omega

/-- The bytes written for a number stand for that number, up to the places that were cut off. -/
theorem value_bigEndian (width number : Nat) :
    value (bigEndian width number) = number % 256 ^ width := by
  induction width generalizing number with
  | zero => simp [bigEndian, Nat.mod_one]
  | succ width ih =>
    -- The last byte is the remainder by 256, and the bytes before it stand for the quotient.
    have hplaces : 256 ^ (width + 1) = 256 * 256 ^ width := Nat.pow_succ'
    rw [bigEndian, value_concat, ih, UInt8.toNat_ofNat', hplaces, Nat.mod_mul]
    omega

/-- A number that fits is the value of its bytes. -/
theorem value_bigEndian_of_lt {width number : Nat} (h : number < 256 ^ width) :
    value (bigEndian width number) = number := by
  rw [value_bigEndian, Nat.mod_eq_of_lt h]

/-- Bytes are what is written for their value in as many places. -/
theorem bigEndian_value (bytes : Bytes) : bigEndian bytes.length (value bytes) = bytes := by
  induction bytes using List.reverseRecOn with
  | nil => rfl
  | append_singleton bytes byte ih =>
    have hbyte : byte.toNat < 256 := byte.toNat_lt
    -- Dividing by 256 takes the last byte off again.
    have hhigh : (value bytes * 256 + byte.toNat) / 256 = value bytes := by omega
    have hlow : UInt8.ofNat (value bytes * 256 + byte.toNat) = byte := by
      rw [← UInt8.toNat_inj, UInt8.toNat_ofNat']
      omega
    rw [List.length_append, List.length_singleton, bigEndian, value_concat, hhigh, ih, hlow]

end CallScript.Bytes
