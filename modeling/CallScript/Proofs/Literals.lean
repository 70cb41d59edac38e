import CallScript.Proofs.Hexadecimal
import CallScript.Proofs.Word.Arithmetic
import CallScript.Word.Literal

/-! # What literals stand for

The numbers, byte strings and addresses that are written in a script, and the words and addresses
they are read as.

* **`Numeral`** relates a text to the number it stands for; **`Word.numeral_of_parseUint`**: a
  number is read as the word of that value.
* **`Word.digits_of_parseBytes32`**: digits are read into the front of a word.
* **`Address.digits_of_parse?`** and **`Address.digits_of_parseLenient?`**: an address is its 40
  digits. -/

namespace CallScript

/-! ## Numbers -/

/-- The number for which digits stand in a base. -/
def digitsValue (base : Nat) (digits : List Char) : Nat :=
  digits.foldl (fun total c => total * base + Hex.digitValue c) 0

/-- A text is a **numeral** for a number when it is a non-empty run of decimal digits, or `0x` or
`0X` and a non-empty run of hexadecimal digits, with that value. -/
inductive Numeral : List Char → Nat → Prop
  /-- Digits `0` to `9`. -/
  | decimal {digits : List Char} (hne : digits ≠ []) (hdigits : ∀ c ∈ digits, c.isDigit = true) :
    Numeral digits (digitsValue 10 digits)
  /-- Digits `0` to `9` and `a` to `f` of either case, after the marker. -/
  | hexadecimal {x : Char} {digits : List Char} (hmarker : x = 'x' ∨ x = 'X') (hne : digits ≠ [])
    (hdigits : ∀ c ∈ digits, c.isHexDigit = true) :
    Numeral ('0' :: x :: digits) (digitsValue 16 digits)

/-- Decimal digits do not start with a marker. -/
theorem not_isDigit_marker {x : Char} {digits : List Char} (hmarker : x = 'x' ∨ x = 'X') :
    ¬∀ c ∈ '0' :: x :: digits, c.isDigit = true := by
  intro h
  have hx : x.isDigit = true := h x (by simp)
  rcases hmarker with rfl | rfl
  · exact absurd hx (by decide)
  · exact absurd hx (by decide)

/-- A text is a numeral for at most one number. -/
theorem Numeral.unique {text : List Char} {value value' : Nat} (h : Numeral text value)
    (h' : Numeral text value') : value = value' := by
  cases h with
  | decimal hne hdigits =>
    cases h' with
    | decimal => rfl
    | hexadecimal hmarker => exact absurd hdigits (not_isDigit_marker hmarker)
  | hexadecimal hmarker =>
    cases h' with
    | decimal hne hdigits => exact absurd hdigits (not_isDigit_marker hmarker)
    | hexadecimal => rfl

/-- The characters that are digits of a base. -/
def Radix.IsDigit : Radix → Char → Prop
  | .decimal, c => c.isDigit = true
  | .hexadecimal, c => c.isHexDigit = true

/-- How the base of a number is **marked**: `0x` or `0X` stands before hexadecimal digits, and a text
without such a mark should be decimal digits. -/
inductive Radix.Marks : Radix → List Char → List Char → Prop
  /-- After the mark come the digits. -/
  | hexadecimal {x : Char} {digits : List Char} (hmark : x = 'x' ∨ x = 'X') :
    Radix.Marks .hexadecimal ('0' :: x :: digits) digits
  /-- Without a mark, the digits are the whole text. -/
  | decimal {digits : List Char} (hplain : ∀ x rest, digits = '0' :: x :: rest → x ≠ 'x' ∧ x ≠ 'X') :
    Radix.Marks .decimal digits digits

/-- What is read as a digit of a base is one, with its value, which is below the base. -/
theorem Radix.digit?_eq_some {radix : Radix} {c : Char} {value : Nat}
    (h : radix.digit? c = some value) :
    radix.IsDigit c ∧ value = Hex.digitValue c ∧ value < radix.size := by
  obtain ⟨hdigit, hsize⟩ := Option.filter_eq_some_iff.1 h
  obtain ⟨hhex, hvalue, -, -, hdecimal⟩ := Hex.digit?_eq_some hdigit
  have hlt : value < radix.size := by simpa using hsize
  refine ⟨?_, hvalue, hlt⟩
  cases radix with
  | decimal => exact hdecimal.1 hlt
  | hexadecimal => exact hhex

/-- Base and digit are small, so that both survive the conversion to 32 bits. -/
theorem Radix.toNat_ofNat {radix : Radix} {digit : Nat} (h : digit < radix.size) :
    radix.size ≤ 16 ∧ (UInt32.ofNat radix.size).toNat = radix.size ∧
      (UInt32.ofNat digit).toNat = digit := by
  have hsize : radix.size ≤ 16 := by cases radix <;> decide
  have hrange : UInt32.size = 4294967296 := rfl
  exact ⟨hsize, UInt32.toNat_ofNat_of_lt' (by omega), UInt32.toNat_ofNat_of_lt' (by omega)⟩

namespace Word

/-- A digit for which there is room is appended to the number in a word. -/
theorem toNat_of_append {radix : Radix} {digit : Nat} (hdigit : digit < radix.size)
    {word next : Word}
    (h : mulAdd? (UInt32.ofNat radix.size) (UInt32.ofNat digit) word = some next) :
    next.toNat = word.toNat * radix.size + digit := by
  obtain ⟨hsize, hfactor, haddend⟩ := Radix.toNat_ofNat hdigit
  have hvalue := toNat_of_mulAdd? (by omega) (by omega) h
  rwa [hfactor, haddend] at hvalue

/-- Digits that can all be read are digits of the base, and the word that comes out has the value of
the digits after those already in the word. -/
theorem toNat_of_readDigits {radix : Radix} {word result : Word} {digits : List Char}
    (h : readDigits radix word digits = .ok result) :
    (∀ c ∈ digits, radix.IsDigit c) ∧
      result.toNat =
        digits.foldl (fun total c => total * radix.size + Hex.digitValue c) word.toNat := by
  induction digits generalizing word with
  | nil =>
    obtain rfl := Except.ok.inj h
    exact ⟨by simp, rfl⟩
  | cons c digits ih =>
    rw [readDigits] at h
    split at h
    · simp at h
    · next value hdigit =>
      obtain ⟨hc, rfl, hlt⟩ := Radix.digit?_eq_some hdigit
      split at h
      · simp at h
      · next next hstep =>
        obtain ⟨hall, hresult⟩ := ih h
        have hvalue := toNat_of_append hlt hstep
        exact ⟨List.forall_mem_cons.2 ⟨hc, hall⟩, by rw [hresult, hvalue, List.foldl_cons]⟩

/-- The base is split off as it is marked. -/
theorem splitRadix_eq_iff {text digits : List Char} {radix : Radix} :
    splitRadix text = (radix, digits) ↔ radix.Marks text digits := by
  constructor
  · intro h
    unfold splitRadix at h
    split at h
    · obtain ⟨rfl, rfl⟩ := Prod.mk.inj h
      exact .hexadecimal (.inl rfl)
    · obtain ⟨rfl, rfl⟩ := Prod.mk.inj h
      exact .hexadecimal (.inr rfl)
    · next hx hX =>
      obtain ⟨rfl, rfl⟩ := Prod.mk.inj h
      refine .decimal ?_
      rintro x rest rfl
      refine ⟨?_, ?_⟩
      · rintro rfl
        exact hx rest rfl
      · rintro rfl
        exact hX rest rfl
  · intro h
    cases h with
    | hexadecimal hmark => rcases hmark with rfl | rfl <;> rfl
    | decimal hplain =>
      unfold splitRadix
      split
      · exact absurd rfl (hplain 'x' _ rfl).1
      · exact absurd rfl (hplain 'X' _ rfl).2
      · rfl

/-- A number is read as the word of its value. -/
theorem numeral_of_parseUint {token : String} {word : Word} (h : parseUint token = .ok word) :
    Numeral token.toList word.toNat := by
  unfold parseUint at h
  split at h
  · simp at h
  split at h
  · simp at h
  · next radix digits hne hsplit =>
    obtain ⟨hdigits, hvalue⟩ := toNat_of_readDigits h
    have hzero : zero.toNat = 0 := by decide
    rw [hzero] at hvalue
    have hmarks := splitRadix_eq_iff.1 hsplit
    generalize token.toList = text at hmarks
    rw [hvalue]
    cases hmarks with
    | decimal => exact .decimal hne hdigits
    | hexadecimal hmark => exact .hexadecimal hmark hne hdigits

/-- The digits of a word are the numeral of its value. -/
theorem digits_bytes (word : Word) : Hex.digits word.bytes.toList = Hex.numeral 64 word.toNat :=
  Hex.digits_toList (by decide) word.bytes

/-- Words of the same value are equal. -/
theorem eq_of_toNat_eq {word other : Word} (h : word.toNat = other.toNat) : word = other := by
  have hbytes : word.bytes.toList = other.bytes.toList := by
    rw [← Bytes.bigEndian_value word.bytes.toList, ← Bytes.bigEndian_value other.bytes.toList,
      word.bytes.length_toList, other.bytes.length_toList]
    exact congrArg (Bytes.bigEndian 32) h
  exact Word.ext (Block.ext hbytes)

end Word

/-! ## Byte strings and addresses -/

/-- Digits written with or without the marker `0x`. -/
def MaybeMarked (token digits : List Char) : Prop :=
  token = digits ∨ token = '0' :: 'x' :: digits

/-- A text is hexadecimal digits, with or without the marker, in at most one way. -/
theorem MaybeMarked.unique {token digits digits' : List Char} (h : MaybeMarked token digits)
    (h' : MaybeMarked token digits') (hdigits : ∀ c ∈ digits, c.isHexDigit = true)
    (hdigits' : ∀ c ∈ digits', c.isHexDigit = true) : digits = digits' := by
  have hx : ('x').isHexDigit = false := by decide
  rcases h with rfl | rfl
  · rcases h' with rfl | rfl
    · rfl
    · simp [hx] at hdigits
  · rcases h' with rfl | h'
    · simp [hx] at hdigits'
    · simpa using h'

/-- The text after the marker follows it. -/
theorem Hex.afterMarker?_eq_some_iff {text rest : List Char} :
    Hex.afterMarker? text = some rest ↔ text = '0' :: 'x' :: rest := by
  unfold Hex.afterMarker?
  split
  · simp
  · next h =>
    simp only [reduceCtorEq, false_iff]
    exact fun heq => h rest heq

/-- What is left without the marker was written with or without it. -/
theorem Hex.maybeMarked_dropMarker (text : List Char) : MaybeMarked text (Hex.dropMarker text) := by
  unfold Hex.dropMarker
  cases h : Hex.afterMarker? text with
  | none => exact .inl rfl
  | some rest => exact .inr (Hex.afterMarker?_eq_some_iff.1 h)

/-- Hexadecimal digits are what is left without the marker, whether they were written with it or
not. -/
theorem MaybeMarked.dropMarker_eq {token digits : List Char} (h : MaybeMarked token digits)
    (hdigits : ∀ c ∈ digits, c.isHexDigit = true) : Hex.dropMarker token = digits := by
  unfold Hex.dropMarker
  rcases h with rfl | rfl
  · cases hmarker : Hex.afterMarker? token with
    | none => rfl
    | some rest =>
      -- The letter of the marker is no digit.
      rw [Hex.afterMarker?_eq_some_iff.1 hmarker] at hdigits
      exact absurd (hdigits 'x' (by simp)) (by decide)
  · rw [Hex.afterMarker?_eq_some_iff.2 rfl, Option.getD_some]

namespace Word

/-- The placeholder is printed as the highest digit in all places. -/
theorem digits_placeholder : Hex.digits placeholder.bytes.toList = List.replicate 64 'f' :=
  Hex.digits_replicate (by decide) 32

/-- Digit values are those of digits, one for each character. -/
theorem digitValues_eq_ok {digits : List Char} {values : List Nat}
    (h : digitValues digits = .ok values) :
    (∀ c ∈ digits, c.isHexDigit = true) ∧ (∀ value ∈ values, value < 16) ∧
      values.map Nat.digitChar = digits.map Char.toLower := by
  induction digits generalizing values with
  | nil =>
    obtain rfl := Except.ok.inj h
    simp
  | cons c digits ih =>
    rw [digitValues] at h
    split at h
    · simp at h
    · next value hdigit =>
      obtain ⟨hc, -, hlt, hlower, -⟩ := Hex.digit?_eq_some hdigit
      cases hrest : digitValues digits with
      | error e => simp [hrest, Except.map] at h
      | ok others =>
        obtain rfl : value :: others = values := by simpa [hrest, Except.map] using h
        obtain ⟨hall, hsmall, hmap⟩ := ih hrest
        exact ⟨List.forall_mem_cons.2 ⟨hc, hall⟩, List.forall_mem_cons.2 ⟨hlt, hsmall⟩, by
          rw [List.map_cons, List.map_cons, hlower, hmap]⟩

/-- Digits read into the front of a word are printed in lowercase, with zeros after them. -/
theorem digits_ofLeadingDigits {values : List Nat} (hsmall : ∀ value ∈ values, value < 16)
    (hlength : values.length ≤ 64) :
    Hex.digits (ofLeadingDigits values).bytes.toList =
      (values.map Nat.digitChar).rightpad 64 '0' := by
  -- Of the 64 zeros that stand after the digits, as many are taken as there is room for.
  have hfill : (values ++ List.replicate 64 0).take 64 =
      values ++ List.replicate (64 - values.length) 0 := by
    rw [List.take_append, List.take_of_length_le hlength, List.take_replicate,
      Nat.min_eq_left (Nat.sub_le 64 values.length)]
  have hfillSmall : ∀ value ∈ values ++ List.replicate (64 - values.length) 0, value < 16 := by
    intro value hmem
    rcases List.mem_append.1 hmem with hvalue | hzero
    · exact hsmall value hvalue
    · rw [List.eq_of_mem_replicate hzero]
      decide
  have heven : (values ++ List.replicate (64 - values.length) 0).length % 2 = 0 := by
    rw [List.length_append, List.length_replicate, Nat.add_sub_cancel' hlength]
  show Hex.digits (Hex.pack ((values ++ List.replicate 64 0).take 64)) = _
  rw [hfill, Hex.digits_pack hfillSmall heven, List.map_append, List.map_replicate, List.rightpad,
    List.length_map]
  rfl

/-- A byte string is at most 64 hexadecimal digits, and is printed as them in lowercase, with zeros
after them. -/
theorem digits_parseBytes32 {token : String} {word : Word} (h : parseBytes32 token = .ok word) :
    (Hex.dropMarker token.toList).length ≤ 64 ∧
      (∀ c ∈ Hex.dropMarker token.toList, c.isHexDigit = true) ∧
      Hex.digits word.bytes.toList =
        ((Hex.dropMarker token.toList).map Char.toLower).rightpad 64 '0' := by
  simp only [parseBytes32] at h
  split at h
  · simp at h
  · next hlong =>
    cases hvalues : digitValues (Hex.dropMarker token.toList) with
    | error e => simp [hvalues, Except.map] at h
    | ok values =>
      obtain rfl : ofLeadingDigits values = word := by simpa [hvalues, Except.map] using h
      obtain ⟨hdigits, hsmall, hmap⟩ := digitValues_eq_ok hvalues
      have hlength : values.length = (Hex.dropMarker token.toList).length := by
        rw [← List.length_map Nat.digitChar, hmap, List.length_map]
      refine ⟨Nat.not_lt.1 hlong, hdigits, ?_⟩
      rw [digits_ofLeadingDigits hsmall (by omega), hmap]

/-- A byte string is written with or without the marker. -/
theorem digits_of_parseBytes32 {token : String} {word : Word} (h : parseBytes32 token = .ok word) :
    ∃ digits, MaybeMarked token.toList digits ∧ digits.length ≤ 64 ∧
      (∀ c ∈ digits, c.isHexDigit = true) ∧
      Hex.digits word.bytes.toList = (digits.map Char.toLower).rightpad 64 '0' :=
  ⟨_, Hex.maybeMarked_dropMarker token.toList, digits_parseBytes32 h⟩

end Word

namespace Address

/-- Digits read as an address are 40 hexadecimal digits, and the address is printed as them in
lowercase. -/
theorem digits_of_ofDigits? {digits : List Char} {address : Address}
    (h : ofDigits? digits = some address) :
    digits.length = 40 ∧ (∀ c ∈ digits, c.isHexDigit = true) ∧
      Hex.digits address.bytes.toList = digits.map Char.toLower := by
  simp only [ofDigits?, Option.bind_eq_bind, Option.bind_eq_some_iff, Block.ofBytes?_eq_some_iff,
    Option.pure_def, Option.some.injEq] at h
  obtain ⟨bytes, hbytes, block, rfl, rfl⟩ := h
  exact ⟨by rw [Hex.length_of_decode? hbytes, block.length_toList],
    Hex.isHexDigit_of_decode? hbytes, Hex.digits_of_decode? hbytes⟩

/-- An address written with the marker is that marker and 40 digits. -/
theorem digits_of_parse? {token : String} {address : Address} (h : parse? token = some address) :
    ∃ digits, token.toList = '0' :: 'x' :: digits ∧ digits.length = 40 ∧
      (∀ c ∈ digits, c.isHexDigit = true) ∧
      Hex.digits address.bytes.toList = digits.map Char.toLower := by
  simp only [parse?, Option.bind_eq_bind, Option.bind_eq_some_iff] at h
  obtain ⟨digits, hmarker, hdigits⟩ := h
  exact ⟨digits, Hex.afterMarker?_eq_some_iff.1 hmarker, digits_of_ofDigits? hdigits⟩

/-- Any 40 hexadecimal digits are read as an address. -/
theorem exists_ofDigits? {digits : List Char} (hlength : digits.length = 40)
    (hdigits : ∀ c ∈ digits, c.isHexDigit = true) : ∃ address, ofDigits? digits = some address := by
  obtain ⟨bytes, hbytes⟩ := Hex.exists_decode? hdigits (by rw [hlength])
  have hcount : bytes.length = 20 := by
    have := Hex.length_of_decode? hbytes
    omega
  have hblock : Block.ofBytes? 20 bytes = some ⟨bytes, hcount⟩ := Block.ofBytes?_eq_some_iff.2 rfl
  exact ⟨⟨⟨bytes, hcount⟩⟩, by simp [ofDigits?, hbytes, hblock]⟩

/-- The marker and 40 hexadecimal digits are read as an address. -/
theorem exists_parse? {token : String} {digits : List Char}
    (htoken : token.toList = '0' :: 'x' :: digits)
    (hlength : digits.length = 40) (hdigits : ∀ c ∈ digits, c.isHexDigit = true) :
    ∃ address, parse? token = some address := by
  obtain ⟨address, haddress⟩ := exists_ofDigits? hlength hdigits
  have hmarker := Hex.afterMarker?_eq_some_iff.2 htoken
  exact ⟨address, by simp [parse?, hmarker, haddress]⟩

/-- So are 40 hexadecimal digits with or without the marker, where that is not asked for. -/
theorem exists_parseLenient? {token : String} {digits : List Char}
    (hmarked : MaybeMarked token.toList digits) (hlength : digits.length = 40)
    (hdigits : ∀ c ∈ digits, c.isHexDigit = true) :
    ∃ address, parseLenient? token = some address := by
  rw [parseLenient?, hmarked.dropMarker_eq hdigits]
  exact exists_ofDigits? hlength hdigits

/-- An address written with or without the marker has 40 digits. -/
theorem digits_of_parseLenient? {token : String} {address : Address}
    (h : parseLenient? token = some address) :
    ∃ digits, MaybeMarked token.toList digits ∧ digits.length = 40 ∧
      (∀ c ∈ digits, c.isHexDigit = true) ∧
      Hex.digits address.bytes.toList = digits.map Char.toLower :=
  ⟨_, Hex.maybeMarked_dropMarker token.toList, digits_of_ofDigits? h⟩

end Address

end CallScript
