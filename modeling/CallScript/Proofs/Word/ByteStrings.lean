import CallScript.Proofs.Word.Numbers

/-! # Reading byte strings

What comes of reading a byte string, for every text, and how byte strings and numbers with the same
digits are related: a byte string stands at the front of its word, a number at the end.

* **`digitsValue_digits`**: printed bytes are a numeral for their value.
* **`Word.toNat_of_parseBytes32`**: the value of a byte string is that of its digits, shifted to the
  front.
* **`Word.parseBytes32_exact`**: what is read from a text, and why nothing is read from it. -/

namespace CallScript

/-! ## Values of hexadecimal digits -/

/-- Hexadecimal digits have values below 16, and letters of either case count alike. -/
theorem Hex.digitValue_of_isHexDigit {c : Char} (h : c.isHexDigit = true) :
    Hex.digitValue c < 16 ∧ Hex.digitValue c.toLower = Hex.digitValue c := by
  obtain ⟨value, hvalue⟩ := Hex.exists_digit? h
  obtain ⟨-, rfl, hlt, hlower, -⟩ := Hex.digit?_eq_some hvalue
  refine ⟨hlt, ?_⟩
  obtain ⟨-, hsame, -⟩ := Hex.digit?_eq_some (Hex.digit?_digitChar hlt)
  rw [← hlower, ← hsame]

/-- The digit of a value has that value. -/
theorem Hex.digitValue_digitChar {value : Nat} (h : value < 16) :
    Hex.digitValue (Nat.digitChar value) = value := by
  obtain ⟨-, hsame, -⟩ := Hex.digit?_eq_some (Hex.digit?_digitChar h)
  exact hsame.symm

/-- `n` hexadecimal digits stand for a number below `16 ^ n`. -/
theorem digitsValue_lt {digits : List Char} (h : ∀ c ∈ digits, c.isHexDigit = true) :
    digitsValue 16 digits < 16 ^ digits.length := by
  induction digits with
  | nil => decide
  | cons c digits ih =>
    obtain ⟨hc, hdigits⟩ := List.forall_mem_cons.1 h
    have hlt := ih hdigits
    have hvalue : Hex.digitValue c ≤ 15 := Nat.le_of_lt_succ (Hex.digitValue_of_isHexDigit hc).1
    have hplace := Nat.mul_le_mul_right (16 ^ digits.length) hvalue
    rw [digitsValue_cons, List.length_cons, Nat.pow_succ]
    omega

/-- Digits in lowercase have the same value. -/
theorem digitsValue_toLower {digits : List Char} (h : ∀ c ∈ digits, c.isHexDigit = true) :
    digitsValue 16 (digits.map Char.toLower) = digitsValue 16 digits := by
  induction digits with
  | nil => rfl
  | cons c digits ih =>
    obtain ⟨hc, hdigits⟩ := List.forall_mem_cons.1 h
    rw [List.map_cons, digitsValue_cons, digitsValue_cons, List.length_map, ih hdigits,
      (Hex.digitValue_of_isHexDigit hc).2]

/-- Every zero after digits multiplies their value by the base. -/
theorem digitsValue_append_zeros (digits : List Char) (count : Nat) :
    digitsValue 16 (digits ++ List.replicate count '0') = digitsValue 16 digits * 16 ^ count := by
  induction count with
  | zero => simp
  | succ count ih =>
    have hzero : Hex.digitValue '0' = 0 := by decide
    rw [List.replicate_succ', ← List.append_assoc, digitsValue_concat, ih, hzero, Nat.add_zero,
      Nat.pow_succ, Nat.mul_assoc]

/-- Printed bytes are a numeral for their value. -/
theorem digitsValue_digits (bytes : Bytes) : digitsValue 16 (Hex.digits bytes) = bytes.value := by
  induction bytes with
  | nil => rfl
  | cons byte bytes ih =>
    have hbyte : byte.toNat < 256 := byte.toNat_lt
    have hhigh : Hex.digitValue (Nat.digitChar (byte.toNat / 16)) = byte.toNat / 16 :=
      Hex.digitValue_digitChar (by omega)
    have hlow : Hex.digitValue (Nat.digitChar (byte.toNat % 16)) = byte.toNat % 16 :=
      Hex.digitValue_digitChar (by omega)
    -- The two digits of the first byte stand before two digits for each of the others.
    have hplaces : (16 : Nat) ^ (2 * bytes.length) = 256 ^ bytes.length := Nat.pow_mul 16 2 _
    rw [Hex.digits_cons, Hex.byteDigits, List.cons_append, List.cons_append, List.nil_append,
      digitsValue_cons, digitsValue_cons, ih, hhigh, hlow, List.length_cons, Hex.length_digits,
      Nat.pow_succ, hplaces, Bytes.value_cons]
    calc byte.toNat / 16 * (256 ^ bytes.length * 16) +
          (byte.toNat % 16 * 256 ^ bytes.length + Bytes.value bytes)
        = (16 * (byte.toNat / 16) + byte.toNat % 16) * 256 ^ bytes.length + Bytes.value bytes := by
          ring
      _ = byte.toNat * 256 ^ bytes.length + Bytes.value bytes := by rw [Nat.div_add_mod]

namespace Word

/-! ## Byte strings -/

/-- The value of a byte string is that of its digits, shifted to the front of the word. -/
theorem toNat_of_parseBytes32 {token : String} {word : Word} (h : parseBytes32 token = .ok word) :
    word.toNat = digitsValue 16 (Hex.dropMarker token.toList) *
      16 ^ (64 - (Hex.dropMarker token.toList).length) := by
  obtain ⟨-, hdigits, hprinted⟩ := digits_parseBytes32 h
  rw [toNat, ← digitsValue_digits, hprinted, List.rightpad, List.length_map,
    digitsValue_append_zeros, digitsValue_toLower hdigits]

/-- The first character that is not a hexadecimal digit is refused. -/
theorem digitValues_of_find? {digits : List Char} {c : Char}
    (h : digits.find? (!·.isHexDigit) = some c) :
    digitValues digits = .error (.invalidDigit c) := by
  induction digits with
  | nil => simp at h
  | cons first digits ih =>
    cases hdigit : Hex.digit? first with
    | none =>
      have hfirst : ¬first.isHexDigit = true := by
        intro hhex
        obtain ⟨value, hvalue⟩ := Hex.exists_digit? hhex
        simp [hdigit] at hvalue
      obtain rfl : first = c := by simpa [hfirst] using h
      rw [digitValues, hdigit]
    | some value =>
      have hfirst : first.isHexDigit = true := (Hex.digit?_eq_some hdigit).1
      rw [List.find?_cons_of_neg (by simp [hfirst])] at h
      rw [digitValues, hdigit, ih h]
      rfl

/-- Hexadecimal digits are all read. -/
theorem exists_digitValues {digits : List Char} (h : ∀ c ∈ digits, c.isHexDigit = true) :
    ∃ values, digitValues digits = .ok values := by
  induction digits with
  | nil => exact ⟨[], rfl⟩
  | cons c digits ih =>
    obtain ⟨hc, hdigits⟩ := List.forall_mem_cons.1 h
    obtain ⟨value, hvalue⟩ := Hex.exists_digit? hc
    obtain ⟨values, hvalues⟩ := ih hdigits
    exact ⟨value :: values, by simp [digitValues, hvalue, hvalues, Except.map]⟩

/-- What is to **come of reading** digits as a byte string. Their number decides first, then the first
character that is not a digit. -/
inductive FillsWord (digits : List Char) : Except LiteralError Word → Prop
  /-- There is room for 64 digits. -/
  | tooLong (hlong : 64 < digits.length) : FillsWord digits (.error .tooLong)
  /-- All characters must be digits. -/
  | invalidDigit {c : Char} (hlength : digits.length ≤ 64)
    (hfirst : digits.find? (!·.isHexDigit) = some c) : FillsWord digits (.error (.invalidDigit c))
  /-- Then the digits stand at the front of the word. -/
  | word {word : Word} (hlength : digits.length ≤ 64)
    (hdigits : ∀ c ∈ digits, c.isHexDigit = true)
    (hvalue : word.toNat = digitsValue 16 digits * 16 ^ (64 - digits.length)) :
    FillsWord digits (.ok word)

/-- What is read from a text is what is to come of its digits. -/
theorem fillsWord_parseBytes32 (token : String) :
    FillsWord (Hex.dropMarker token.toList) (parseBytes32 token) := by
  by_cases hlong : 64 < (Hex.dropMarker token.toList).length
  · have htooLong : parseBytes32 token = .error .tooLong := if_pos hlong
    rw [htooLong]
    exact .tooLong hlong
  have hlength := Nat.not_lt.1 hlong
  have hread : parseBytes32 token =
      (digitValues (Hex.dropMarker token.toList)).map ofLeadingDigits := if_neg hlong
  cases hfirst : (Hex.dropMarker token.toList).find? (!·.isHexDigit) with
  | some c =>
    rw [hread, digitValues_of_find? hfirst]
    exact .invalidDigit hlength hfirst
  | none =>
    have hdigits : ∀ c ∈ Hex.dropMarker token.toList, c.isHexDigit = true := by
      simpa using hfirst
    obtain ⟨values, hvalues⟩ := exists_digitValues hdigits
    rw [hvalues] at hread
    have hvalue := toNat_of_parseBytes32 hread
    rw [hread]
    exact .word hlength hdigits hvalue

/-- A byte string is read as a word exactly when it is at most 64 hexadecimal digits, with or without
the marker, and the word is printed as these digits with zeros after them. -/
theorem parseBytes32_eq_ok_iff {token : String} {word : Word} :
    parseBytes32 token = .ok word ↔
      ∃ digits, MaybeMarked token.toList digits ∧ digits.length ≤ 64 ∧
        (∀ c ∈ digits, c.isHexDigit = true) ∧
        Hex.digits word.bytes.toList = (digits.map Char.toLower).rightpad 64 '0' := by
  constructor
  · exact digits_of_parseBytes32
  · rintro ⟨digits, hmarked, hlength, hdigits, hprinted⟩
    obtain ⟨values, hvalues⟩ := exists_digitValues hdigits
    have hread : parseBytes32 token = .ok (ofLeadingDigits values) := by
      simp [parseBytes32, hmarked.dropMarker_eq hdigits, Nat.not_lt.2 hlength, hvalues, Except.map]
    -- What is read is printed in the same way, so that it is the given word.
    obtain ⟨-, -, hsame⟩ := digits_parseBytes32 hread
    rw [hmarked.dropMarker_eq hdigits, ← hprinted] at hsame
    rw [hread, Word.ext (Block.ext (Hex.digits_injective hsame))]

/-! ## Byte strings and numbers -/

/-- At most 64 digits after the marker are read as the number for which they stand. -/
theorem exists_parseUint_marked {digits : List Char} (hne : digits ≠ [])
    (hdigits : ∀ c ∈ digits, c.isHexDigit = true) (hlength : digits.length ≤ 64) :
    ∃ number, parseUint ("0x" ++ String.ofList digits) = .ok number ∧
      number.toNat = digitsValue 16 digits := by
  have htext : ("0x" ++ String.ofList digits).toList = '0' :: 'x' :: digits := by simp
  have hnumeral : Numeral ("0x" ++ String.ofList digits).toList (digitsValue 16 digits) := by
    rw [htext]
    exact .hexadecimal (.inl rfl) hne hdigits
  refine exists_parseUint_of_numeral hnumeral ?_
  calc digitsValue 16 digits < 16 ^ digits.length := digitsValue_lt hdigits
    _ ≤ 16 ^ 64 := Nat.pow_le_pow_right (by decide) hlength
    _ = 2 ^ 256 := by decide

/-- A word that is shifted to the front stays the same exactly when it is not shifted at all or is
zero. -/
theorem eq_iff_of_shift {word number : Word} {places : Nat}
    (h : word.toNat = number.toNat * 16 ^ places) : word = number ↔ places = 0 ∨ number = zero := by
  have hzero : zero.toNat = 0 := by decide
  constructor
  · rintro rfl
    rcases Nat.eq_zero_or_pos places with hplaces | hplaces
    · exact .inl hplaces
    · have hpower : 1 < 16 ^ places := Nat.one_lt_pow (by omega) (by decide)
      refine .inr (eq_of_toNat_eq ?_)
      rw [hzero]
      by_contra hne
      have hgrow := (Nat.lt_mul_iff_one_lt_right (Nat.pos_of_ne_zero hne)).2 hpower
      omega
  · rintro (rfl | rfl)
    · exact eq_of_toNat_eq (by rw [h, Nat.pow_zero, Nat.mul_one])
    · exact eq_of_toNat_eq (by rw [h, hzero, Nat.zero_mul])

/-- The marker is dropped if it is there. -/
theorem dropMarker_cases (text : List Char) :
    text = '0' :: 'x' :: Hex.dropMarker text ∨
      text = Hex.dropMarker text ∧ ∀ rest, text ≠ '0' :: 'x' :: rest := by
  unfold Hex.dropMarker
  cases hmarker : Hex.afterMarker? text with
  | some rest => exact .inl (Hex.afterMarker?_eq_some_iff.1 hmarker)
  | none =>
    refine .inr ⟨rfl, ?_⟩
    intro rest hrest
    simp [Hex.afterMarker?_eq_some_iff.2 hrest] at hmarker

/-- **Byte strings are read exactly.** Take the digits to be the text without a marker `0x` at its
start. They are refused as too many exactly when there are more than 64. If there are no more, the
first that is not a hexadecimal digit is refused, and if there is none, a word is read, in which the
digits stand at the front. If there are digits at all, they can also be read as a number, which the
word is when it is shifted to the front; so the two are equal exactly when there are 64 digits or
the number is zero. -/
theorem parseBytes32_exact (token : String) :
    ∃ digits : List Char,
      (token.toList = '0' :: 'x' :: digits ∨
        token.toList = digits ∧ ∀ rest, token.toList ≠ '0' :: 'x' :: rest) ∧
      (parseBytes32 token = .error .tooLong ↔ 64 < digits.length) ∧
      (digits.length ≤ 64 →
        (∀ c, parseBytes32 token = .error (.invalidDigit c) ↔
          digits.find? (!·.isHexDigit) = some c) ∧
        ((∀ c ∈ digits, c.isHexDigit = true) → ∃ word, parseBytes32 token = .ok word ∧
          word.toNat = digitsValue 16 digits * 16 ^ (64 - digits.length) ∧
          (digits ≠ [] → ∃ number, parseUint ("0x" ++ String.ofList digits) = .ok number ∧
            word.toNat = number.toNat * 16 ^ (64 - digits.length) ∧
            (word = number ↔ digits.length = 64 ∨ number = zero)))) := by
  refine ⟨Hex.dropMarker token.toList, dropMarker_cases token.toList, ?_⟩
  have hfills := fillsWord_parseBytes32 token
  generalize Hex.dropMarker token.toList = digits at hfills ⊢
  generalize parseBytes32 token = result at hfills ⊢
  cases hfills with
  | tooLong hlong =>
    exact ⟨iff_of_true rfl hlong, fun hlength => absurd hlong (Nat.not_lt.2 hlength)⟩
  | invalidDigit hlength hfirst =>
    refine ⟨iff_of_false (by simp) (Nat.not_lt.2 hlength), fun _ => ⟨?_, ?_⟩⟩
    · intro c
      simp [hfirst]
    · intro hdigits
      have hnone : digits.find? (!·.isHexDigit) = none := by simpa using hdigits
      simp [hnone] at hfirst
  | @word word hlength hdigits hvalue =>
    have hnone : digits.find? (!·.isHexDigit) = none := by simpa using hdigits
    refine ⟨iff_of_false (by simp) (Nat.not_lt.2 hlength), fun _ => ⟨?_, fun _ => ?_⟩⟩
    · intro c
      simp [hnone]
    · refine ⟨word, rfl, hvalue, ?_⟩
      intro hne
      obtain ⟨number, hnumber, hsame⟩ := exists_parseUint_marked hne hdigits hlength
      rw [← hsame] at hvalue
      have hplaces : 64 - digits.length = 0 ↔ digits.length = 64 := by omega
      exact ⟨number, hnumber, hvalue, by rw [eq_iff_of_shift hvalue, hplaces]⟩

/-- An odd number of digits of either case stands at the front of its word, and differs from the
number with these digits. -/
theorem parseBytes32_three_digits :
    ∃ word number, parseBytes32 "0xAbc" = .ok word ∧ parseUint "0xAbc" = .ok number ∧
      word.toNat = number.toNat * 16 ^ 61 ∧ word ≠ number := by
  obtain ⟨digits, hmarked, -, hread⟩ := parseBytes32_exact "0xAbc"
  have htoken : "0xAbc".toList = ['0', 'x', 'A', 'b', 'c'] := by decide
  obtain rfl : digits = ['A', 'b', 'c'] := by
    rcases hmarked with hmarked | ⟨-, hplain⟩
    · simpa [htoken] using hmarked.symm
    · exact absurd htoken (hplain _)
  have hdigits : ∀ c ∈ ['A', 'b', 'c'], c.isHexDigit = true := List.all_eq_true.1 (by decide)
  obtain ⟨word, hword, -, hnumbers⟩ := (hread (by decide)).2 hdigits
  obtain ⟨number, hnumber, hvalue, hequal⟩ := hnumbers (by simp)
  have hsame : parseUint "0xAbc" = .ok number := hnumber
  refine ⟨word, number, hword, hsame, hvalue, ?_⟩
  intro heq
  rcases hequal.1 heq with hlength | rfl
  · simp at hlength
  · exact absurd hsame (by decide +kernel)

end Word

end CallScript
