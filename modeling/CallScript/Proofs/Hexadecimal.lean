import CallScript.Hex
import CallScript.Proofs.Bytes.BigEndian
import Mathlib.Tactic.IntervalCases

/-! # Hexadecimal text and its bytes

Printing bytes and reading them back, and printed bytes as numerals.

* **`Hex.decode?_digits`** and **`Hex.digits_of_decode?`**: reading undoes printing, and printing
  gives back what was read in lowercase.
* **`Hex.numeral`** is the numeral of a number with zeros up to a given width;
  **`Hex.digits_eq_numeral`**: bytes are printed as the numeral of their value.
* **`Hex.digits_pack`**: digit values packed into bytes are printed as these digits. -/

namespace CallScript.Hex

/-! ## Single digits -/

/-- The characters that are hexadecimal digits. -/
def alphabet : List Char :=
  ['0', '1', '2', '3', '4', '5', '6', '7', '8', '9', 'a', 'b', 'c', 'd', 'e', 'f',
    'A', 'B', 'C', 'D', 'E', 'F']

/-- A character between two others has a code point between theirs. -/
theorem exists_ofNat_of_between {first last c : Char} (h : first ≤ c ∧ c ≤ last) :
    ∃ n, first.toNat ≤ n ∧ n ≤ last.toNat ∧ c = Char.ofNat n :=
  ⟨c.toNat, h.1, h.2, (Char.ofNat_toNat c).symm⟩

/-- Only the characters of the alphabet have a digit value. -/
theorem mem_alphabet_of_digit? {c : Char} {value : Nat} (h : digit? c = some value) :
    c ∈ alphabet := by
  unfold digit? at h
  -- The three ranges are short enough to go through all their characters.
  split at h
  · next hrange =>
    obtain ⟨n, hfirst, hlast, rfl⟩ := exists_ofNat_of_between hrange
    change 48 ≤ n at hfirst
    change n ≤ 57 at hlast
    interval_cases n <;> decide
  split at h
  · next hrange =>
    obtain ⟨n, hfirst, hlast, rfl⟩ := exists_ofNat_of_between hrange
    change 97 ≤ n at hfirst
    change n ≤ 102 at hlast
    interval_cases n <;> decide
  split at h
  · next hrange =>
    obtain ⟨n, hfirst, hlast, rfl⟩ := exists_ofNat_of_between hrange
    change 65 ≤ n at hfirst
    change n ≤ 70 at hlast
    interval_cases n <;> decide
  · simp at h

/-- The **value of a digit** is its place among the sixteen digits, in which letters of either case
count alike. -/
def digitValue (c : Char) : Nat :=
  ['0', '1', '2', '3', '4', '5', '6', '7', '8', '9', 'a', 'b', 'c', 'd', 'e', 'f'].idxOf c.toLower

/-- What is read as a digit is one, with its value; the digit of that value is the character in
lowercase, and the values below ten are those of the decimal digits. -/
theorem digit?_eq_some {c : Char} {value : Nat} (h : digit? c = some value) :
    c.isHexDigit = true ∧ value = digitValue c ∧ value < 16 ∧ Nat.digitChar value = c.toLower ∧
      (value < 10 ↔ c.isDigit = true) := by
  have table : (alphabet.all fun c => decide (∀ value ∈ digit? c,
      c.isHexDigit = true ∧ value = digitValue c ∧ value < 16 ∧ Nat.digitChar value = c.toLower ∧
        (value < 10 ↔ c.isDigit = true))) = true := by decide
  have hrow := List.all_eq_true.1 table c (mem_alphabet_of_digit? h)
  exact of_decide_eq_true hrow value h

/-- Every hexadecimal digit is read as one. -/
theorem exists_digit? {c : Char} (h : c.isHexDigit = true) : ∃ value, digit? c = some value := by
  simp only [Char.isHexDigit, Char.isDigit, Bool.or_eq_true, Bool.and_eq_true,
    decide_eq_true_eq] at h
  unfold digit?
  split
  · exact ⟨_, rfl⟩
  · next hdecimal =>
    split
    · exact ⟨_, rfl⟩
    · next hlower => exact ⟨_, if_pos ((h.resolve_left fun h => h.elim hdecimal hlower))⟩

/-- The digit of a value is read as that value. -/
theorem digit?_digitChar {value : Nat} (h : value < 16) :
    digit? (Nat.digitChar value) = some value := by
  interval_cases value <;> decide

/-! ## Printing and reading -/

/-- A byte is put together again from its two halves. -/
theorem ofNat_halves (byte : UInt8) :
    UInt8.ofNat (16 * (byte.toNat / 16) + byte.toNat % 16) = byte := by
  rw [Nat.div_add_mod, UInt8.ofNat_toNat]

/-- The halves of a byte made of two digit values are these values. -/
theorem byteDigits_ofNat {high low : Nat} (hhigh : high < 16) (hlow : low < 16) :
    byteDigits (UInt8.ofNat (16 * high + low)) = [Nat.digitChar high, Nat.digitChar low] := by
  have hbyte : (UInt8.ofNat (16 * high + low)).toNat = 16 * high + low := by
    rw [UInt8.toNat_ofNat']
    omega
  have hdiv : (16 * high + low) / 16 = high := by omega
  have hmod : (16 * high + low) % 16 = low := by omega
  rw [byteDigits, hbyte, hdiv, hmod]

/-- Reading undoes printing. -/
theorem decode?_digits (bytes : Bytes) : decode? (digits bytes) = some bytes := by
  induction bytes with
  | nil => rfl
  | cons byte bytes ih =>
    -- Both halves of a byte are below 16, so that their digits are read as themselves.
    have hbyte : byte.toNat < 256 := byte.toNat_lt
    have hhigh : digit? (Nat.digitChar (byte.toNat / 16)) = some (byte.toNat / 16) :=
      digit?_digitChar (by omega)
    have hlow : digit? (Nat.digitChar (byte.toNat % 16)) = some (byte.toNat % 16) :=
      digit?_digitChar (by omega)
    simp only [digits_cons, byteDigits, List.cons_append, List.nil_append, decode?, hhigh, hlow, ih,
      Option.bind_eq_bind, Option.bind_some, ofNat_halves, Option.pure_def]

/-- Bytes are determined by how they are printed. -/
theorem digits_injective : Function.Injective digits := by
  intro left right h
  have hread := decode?_digits left
  rw [h, decode?_digits] at hread
  exact (Option.some.inj hread).symm

/-- Bytes are printed in the digits of values below 16. -/
theorem exists_digitChar_of_mem_digits {bytes : Bytes} {c : Char} (h : c ∈ digits bytes) :
    ∃ value < 16, c = Nat.digitChar value := by
  obtain ⟨byte, -, hc⟩ := List.mem_flatMap.1 h
  have hbyte : byte.toNat < 256 := byte.toNat_lt
  simp only [byteDigits, List.mem_cons, List.not_mem_nil, or_false] at hc
  rcases hc with rfl | rfl
  · exact ⟨byte.toNat / 16, by omega, rfl⟩
  · exact ⟨byte.toNat % 16, by omega, rfl⟩

/-- Bytes are printed in decimal digits and the letters `a` to `f`. -/
theorem lowercase_of_mem_digits {bytes : Bytes} {c : Char} (h : c ∈ digits bytes) :
    '0' ≤ c ∧ c ≤ '9' ∨ 'a' ≤ c ∧ c ≤ 'f' := by
  obtain ⟨value, hvalue, rfl⟩ := exists_digitChar_of_mem_digits h
  interval_cases value <;> decide

/-- Printing what was read gives the text back in lowercase. -/
theorem digits_of_decode? {text : List Char} {bytes : Bytes} (h : decode? text = some bytes) :
    digits bytes = text.map Char.toLower := by
  fun_induction decode? text generalizing bytes with
  | case1 =>
    obtain rfl := Option.some.inj h
    rfl
  | case2 => simp at h
  | case3 high low rest ih =>
    simp only [Option.bind_eq_bind, Option.bind_eq_some_iff, Option.pure_def,
      Option.some.injEq] at h
    obtain ⟨highValue, hhigh, lowValue, hlow, others, hothers, rfl⟩ := h
    obtain ⟨-, -, hhigh16, hhighDigit, -⟩ := digit?_eq_some hhigh
    obtain ⟨-, -, hlow16, hlowDigit, -⟩ := digit?_eq_some hlow
    rw [digits_cons, byteDigits_ofNat hhigh16 hlow16, hhighDigit, hlowDigit, ih hothers]
    rfl

/-- Only hexadecimal digits are read. -/
theorem isHexDigit_of_decode? {text : List Char} {bytes : Bytes} (h : decode? text = some bytes) :
    ∀ c ∈ text, c.isHexDigit = true := by
  fun_induction decode? text generalizing bytes with
  | case1 => simp
  | case2 => simp at h
  | case3 high low rest ih =>
    simp only [Option.bind_eq_bind, Option.bind_eq_some_iff, Option.pure_def,
      Option.some.injEq] at h
    obtain ⟨highValue, hhigh, lowValue, hlow, others, hothers, rfl⟩ := h
    have hothers' := ih hothers
    exact List.forall_mem_cons.2
      ⟨(digit?_eq_some hhigh).1, List.forall_mem_cons.2 ⟨(digit?_eq_some hlow).1, hothers'⟩⟩

/-- Every even number of hexadecimal digits is read. -/
theorem exists_decode? {text : List Char} (hdigits : ∀ c ∈ text, c.isHexDigit = true)
    (heven : text.length % 2 = 0) : ∃ bytes, decode? text = some bytes := by
  fun_induction decode? text with
  | case1 => exact ⟨[], rfl⟩
  | case2 c => simp at heven
  | case3 high low rest ih =>
    obtain ⟨hhigh, hlow, hrest⟩ : high.isHexDigit = true ∧ low.isHexDigit = true ∧
        ∀ c ∈ rest, c.isHexDigit = true := by simpa using hdigits
    have hevenRest : rest.length % 2 = 0 := by
      simp only [List.length_cons] at heven
      omega
    obtain ⟨highValue, hhighValue⟩ := exists_digit? hhigh
    obtain ⟨lowValue, hlowValue⟩ := exists_digit? hlow
    obtain ⟨bytes, hbytes⟩ := ih hrest hevenRest
    exact ⟨_, by simp [hhighValue, hlowValue, hbytes]; rfl⟩

/-- Two digits are read for every byte. -/
theorem length_of_decode? {text : List Char} {bytes : Bytes} (h : decode? text = some bytes) :
    text.length = 2 * bytes.length := by
  rw [← length_digits, digits_of_decode? h, List.length_map]

/-- Reading a block is reading its bytes. -/
theorem decodeBlock?_eq_some_iff {n : Nat} {text : String} {block : Block n} :
    decodeBlock? n text = some block ↔ decode? text.toList = some block.toList := by
  simp only [decodeBlock?, Option.bind_eq_bind, Option.bind_eq_some_iff, Block.ofBytes?_eq_some_iff,
    exists_eq_right]

/-! ## Printed bytes as numerals -/

/-- The **numeral** of a number in lowercase hexadecimal, with zeros before it up to the given
width. -/
def numeral (width number : Nat) : List Char :=
  (Nat.toDigits 16 number).leftpad width '0'

/-- One more digit at the end of a numeral that has at least one digit already. -/
theorem numeral_succ {width digit : Nat} (hwidth : 0 < width) (number : Nat) (hdigit : digit < 16) :
    numeral (width + 1) (16 * number + digit) = numeral width number ++ [Nat.digitChar digit] := by
  have hlast : Nat.toDigits 16 digit = [Nat.digitChar digit] := Nat.toDigits_of_lt_base hdigit
  unfold numeral List.leftpad
  rcases Nat.eq_zero_or_pos number with rfl | hpos
  · -- Zero is written `0`, which is one of the padding zeros of the longer numeral.
    rw [Nat.mul_zero, Nat.zero_add, hlast, Nat.toDigits_zero, ← List.replicate_succ']
    congr 2
    simp only [List.length_singleton]
    omega
  · rw [← Nat.toDigits_append_toDigits (by decide) hpos hdigit, hlast, List.length_append,
      List.length_singleton, Nat.add_sub_add_right, List.append_assoc]

/-- A single digit is a numeral of width one. -/
theorem numeral_one {digit : Nat} (h : digit < 16) : numeral 1 digit = [Nat.digitChar digit] := by
  rw [numeral, Nat.toDigits_of_lt_base h]
  rfl

/-- Bytes are printed as the numeral of their value. -/
theorem digits_eq_numeral {bytes : Bytes} (h : bytes ≠ []) :
    digits bytes = numeral (2 * bytes.length) bytes.value := by
  -- From the right: one more byte is two more digits at the end of the numeral.
  induction bytes using List.reverseRecOn with
  | nil => exact absurd rfl h
  | append_singleton bytes byte ih =>
    have hbyte : byte.toNat < 256 := byte.toNat_lt
    have hhigh : byte.toNat / 16 < 16 := by omega
    have hlow : byte.toNat % 16 < 16 := by omega
    have hvalue : Bytes.value bytes * 256 + byte.toNat =
        16 * (16 * Bytes.value bytes + byte.toNat / 16) + byte.toNat % 16 := by omega
    have hwidth : 2 * (bytes ++ [byte]).length = 2 * bytes.length + 1 + 1 := by
      rw [List.length_append, List.length_singleton]
      omega
    rw [digits_append, Bytes.value_concat, hvalue, hwidth, numeral_succ (Nat.succ_pos _) _ hlow]
    by_cases hnil : bytes = []
    · -- The first digit of all starts the numeral; there is no shorter one to add it to.
      subst hnil
      show digits [byte] = numeral 1 (16 * 0 + byte.toNat / 16) ++ [Nat.digitChar (byte.toNat % 16)]
      rw [Nat.mul_zero, Nat.zero_add, numeral_one hhigh]
      rfl
    · have hpos : 0 < 2 * bytes.length := by
        have := List.length_pos_iff.2 hnil
        omega
      rw [numeral_succ hpos _ hhigh, ← ih hnil, List.append_assoc]
      rfl

/-- A block is printed as the numeral of its value, two digits for every byte. -/
theorem digits_toList {n : Nat} (hn : 0 < n) (block : Block n) :
    digits block.toList = numeral (2 * n) block.toList.value := by
  have hlength := block.length_toList
  have hne : block.toList ≠ [] := by
    intro hnil
    rw [hnil, List.length_nil] at hlength
    omega
  rw [digits_eq_numeral hne, hlength]

/-! ## Repeated bytes and packed digits -/

/-- A byte with two equal digits, repeated, is that digit repeated. -/
theorem digits_replicate {byte : UInt8} {c : Char} (h : byteDigits byte = [c, c]) (n : Nat) :
    digits (List.replicate n byte) = List.replicate (2 * n) c := by
  induction n with
  | zero => rfl
  | succ n ih =>
    rw [List.replicate_succ, digits_cons, ih, h]
    rfl

/-- Digit values packed into bytes are printed as these digits. -/
theorem digits_pack {values : List Nat} (hsmall : ∀ value ∈ values, value < 16)
    (heven : values.length % 2 = 0) : digits (pack values) = values.map Nat.digitChar := by
  fun_induction pack values with
  | case1 high low rest ih =>
    have hrest : ∀ value ∈ rest, value < 16 := fun value hmem => hsmall value (by simp [hmem])
    have heven' : rest.length % 2 = 0 := by
      simp only [List.length_cons] at heven
      omega
    rw [digits_cons, byteDigits_ofNat (hsmall high (by simp)) (hsmall low (by simp)),
      ih hrest heven']
    rfl
  | case2 values hshort =>
    cases values with
    | nil => rfl
    | cons high values =>
      cases values with
      | nil => simp at heven
      | cons low rest => exact absurd rfl (hshort high low rest)

end CallScript.Hex
