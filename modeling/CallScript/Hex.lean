import CallScript.Bytes.Block

/-! # Hexadecimal text

Bytes written as pairs of hexadecimal digits, and read back.

* **`Hex.digit?`** is the value of a digit of either case.
* **`Hex.encode`** writes bytes in lowercase; **`Hex.decode?`** and **`Hex.decodeBlock?`** read them.
* **`Hex.dropMarker`** removes the leading `0x` by which scripts mark hexadecimal text. -/

namespace CallScript.Hex

/-- The value of a hexadecimal digit, which may be an uppercase or a lowercase letter. -/
def digit? (c : Char) : Option Nat :=
  if '0' ≤ c ∧ c ≤ '9' then some (c.toNat - 48)
  else if 'a' ≤ c ∧ c ≤ 'f' then some (c.toNat - 87)
  else if 'A' ≤ c ∧ c ≤ 'F' then some (c.toNat - 55)
  else none

/-- The two lowercase digits of a byte. -/
def byteDigits (byte : UInt8) : List Char :=
  [Nat.digitChar (byte.toNat / 16), Nat.digitChar (byte.toNat % 16)]

/-- The lowercase digits of a byte sequence. -/
def digits (bytes : Bytes) : List Char :=
  bytes.flatMap byteDigits

/-- A byte sequence in lowercase hexadecimal. -/
def encode (bytes : Bytes) : String :=
  String.ofList (digits bytes)

/-- The bytes whose halves are the given digit values, taken in pairs. A half left over at the end
is dropped. -/
def pack : List Nat → Bytes
  | high :: low :: rest => UInt8.ofNat (16 * high + low) :: pack rest
  | _ => []

/-- Read pairs of hexadecimal digits. Any other character and an odd number of digits are refused. -/
def decode? : List Char → Option Bytes
  | [] => some []
  | [_] => none
  | high :: low :: rest => do
    let high ← digit? high
    let low ← digit? low
    return UInt8.ofNat (16 * high + low) :: (← decode? rest)

/-- Read exactly `n` bytes written as `2 * n` hexadecimal digits. -/
def decodeBlock? (n : Nat) (text : String) : Option (Block n) := do
  Block.ofBytes? n (← decode? text.toList)

/-- The text after the marker `0x`, if it starts with one. The marker's letter is lowercase. -/
def afterMarker? : List Char → Option (List Char)
  | '0' :: 'x' :: rest => some rest
  | _ => none

/-- A text without the leading marker `0x`, if it has one. -/
def dropMarker (text : List Char) : List Char :=
  (afterMarker? text).getD text

@[simp] theorem digits_nil : digits [] = [] := rfl

@[simp] theorem digits_cons (byte : UInt8) (bytes : Bytes) :
    digits (byte :: bytes) = byteDigits byte ++ digits bytes := rfl

@[simp] theorem digits_append (left right : Bytes) :
    digits (left ++ right) = digits left ++ digits right := by
  simp [digits]

/-- Every byte takes two digits. -/
@[simp] theorem length_digits (bytes : Bytes) : (digits bytes).length = 2 * bytes.length := by
  induction bytes with
  | nil => rfl
  | cons byte bytes ih => simp [byteDigits, ih]; omega

/-- Packing halves the number of digits. -/
theorem length_pack (values : List Nat) : (pack values).length = values.length / 2 := by
  fun_induction pack values with
  | case1 high low rest ih => simp only [List.length_cons, ih]; omega
  | case2 values h =>
    match values, h with
    | [], _ => rfl
    | [_], _ => simp
    | high :: low :: rest, h => exact absurd rfl (h high low rest)

end CallScript.Hex
