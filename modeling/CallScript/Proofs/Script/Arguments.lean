import CallScript.Proofs.Word.ByteStrings
import CallScript.Script.Argument

/-! # What comes of arguments

When an argument can be encoded, what is wrong with it when it cannot, and which argument of a call is
blamed.

* **`ArgumentFault`** says what is wrong with an argument, without an algorithm.
* **`encodeArgument_eq_error_iff`**: an argument is refused exactly for what is wrong with it.
* **`IsFirstFault`** is the first fault of the arguments of a call; **`encodeArguments_cases`**: a
  call with the right number of arguments is refused for it and for nothing else.
* **`encodeArgument_eq_placeholder_iff`**: which arguments become the placeholder word. -/

namespace CallScript.Script

/-! ## Type tags -/

/-- A tag names one of the types, or it is none of their names. -/
theorem ArgumentType.ofTag?_cases (tag : String) :
    tag = "address" ∧ ofTag? tag = some .address ∨
      (tag = "uint" ∨ tag = "uint256") ∧ ofTag? tag = some .uint256 ∨
      tag = "bytes32" ∧ ofTag? tag = some .bytes32 ∨
      tag ∉ ["address", "uint", "uint256", "bytes32"] ∧ ofTag? tag = none := by
  unfold ofTag?
  split
  · next haddress => exact .inl ⟨haddress, rfl⟩
  split
  · next huint => exact .inr (.inl ⟨huint.symm, rfl⟩)
  split
  · next hbytes => exact .inr (.inr (.inl ⟨hbytes, rfl⟩))
  · next haddress huint hbytes =>
    refine .inr (.inr (.inr ⟨?_, rfl⟩))
    simp [haddress, hbytes, not_or.1 huint]

/-- A dollar sign is the placeholder word under any tag. -/
theorem encodeArgument_dollar (tag : String) : encodeArgument tag "$" = .ok Word.placeholder :=
  if_pos rfl

/-- Any other argument is a literal of the type that its tag names. -/
theorem encodeArgument_of_ne {tag token : String} (h : token ≠ "$") :
    encodeArgument tag token =
      match ArgumentType.ofTag? tag with
      | some type => type.encode token
      | none => .error (.unsupportedType tag) := by
  rw [encodeArgument, if_neg h, ArgumentType.ofTag]
  cases ArgumentType.ofTag? tag with
  | none => rfl
  | some type => rfl

/-! ## One argument -/

/-- What is **wrong with an argument** that is not a dollar sign: its tag names no type, or it is no
literal of the type. -/
inductive ArgumentFault (tag token : String) : Cause → Prop
  /-- The tag names no type. -/
  | unsupportedType (hfilled : token ≠ "$")
    (htag : tag ∉ ["address", "uint", "uint256", "bytes32"]) :
    ArgumentFault tag token (.unsupportedType tag)
  /-- An address has 40 digits, with or without the marker. -/
  | invalidAddress (hfilled : token ≠ "$") (htag : tag = "address")
    (hliteral : ¬∃ digits, MaybeMarked token.toList digits ∧ digits.length = 40 ∧
      ∀ c ∈ digits, c.isHexDigit = true) :
    ArgumentFault tag token (.invalidAddress token)
  /-- A number is refused for the reason for which it cannot be read. -/
  | invalidNumber {reason : LiteralError} (hfilled : token ≠ "$")
    (htag : tag = "uint" ∨ tag = "uint256") (hliteral : Word.parseUint token = .error reason) :
    ArgumentFault tag token (.invalidNumber token reason)
  /-- So is a byte string. -/
  | invalidBytes32 {reason : LiteralError} (hfilled : token ≠ "$") (htag : tag = "bytes32")
    (hliteral : Word.parseBytes32 token = .error reason) :
    ArgumentFault tag token (.invalidBytes32 token reason)

/-- Nothing is wrong with a dollar sign. -/
theorem ArgumentFault.ne_dollar {tag token : String} {cause : Cause}
    (h : ArgumentFault tag token cause) : token ≠ "$" := by
  cases h with
  | unsupportedType hfilled => exact hfilled
  | invalidAddress hfilled => exact hfilled
  | invalidNumber hfilled => exact hfilled
  | invalidBytes32 hfilled => exact hfilled

/-- A text is read as an address exactly when it is 40 digits, with or without the marker. -/
theorem parseLenient?_eq_none_iff {token : String} :
    Address.parseLenient? token = none ↔
      ¬∃ digits, MaybeMarked token.toList digits ∧ digits.length = 40 ∧
        ∀ c ∈ digits, c.isHexDigit = true := by
  constructor
  · rintro hnone ⟨digits, hmarked, hlength, hdigits⟩
    obtain ⟨address, haddress⟩ := Address.exists_parseLenient? hmarked hlength hdigits
    simp [hnone] at haddress
  · intro hnot
    cases haddress : Address.parseLenient? token with
    | none => rfl
    | some address =>
      obtain ⟨digits, hmarked, hlength, hdigits, -⟩ := Address.digits_of_parseLenient? haddress
      exact absurd ⟨digits, hmarked, hlength, hdigits⟩ hnot

/-- An argument with which something is wrong is refused for it. -/
theorem ArgumentFault.encodeArgument_eq {tag token : String} {cause : Cause}
    (h : ArgumentFault tag token cause) : encodeArgument tag token = .error cause := by
  rw [encodeArgument_of_ne h.ne_dollar]
  cases h with
  | unsupportedType _ htag =>
    have htype : ArgumentType.ofTag? tag = none := by
      simp only [List.mem_cons, List.not_mem_nil, or_false, not_or] at htag
      simp [ArgumentType.ofTag?, htag]
    rw [htype]
  | invalidAddress _ htag hliteral =>
    subst htag
    show ArgumentType.encode token .address = _
    rw [ArgumentType.encode, parseLenient?_eq_none_iff.2 hliteral]
  | invalidNumber _ htag hliteral =>
    have htype : ArgumentType.ofTag? tag = some .uint256 := by
      rcases htag with rfl | rfl <;> rfl
    rw [htype]
    show (Word.parseUint token).mapError _ = _
    rw [hliteral]
    rfl
  | invalidBytes32 _ htag hliteral =>
    subst htag
    show (Word.parseBytes32 token).mapError _ = _
    rw [hliteral]
    rfl

/-- Something is wrong with an argument that is refused. -/
theorem argumentFault_of_encodeArgument {tag token : String} {cause : Cause}
    (h : encodeArgument tag token = .error cause) : ArgumentFault tag token cause := by
  have hfilled : token ≠ "$" := by
    rintro rfl
    simp [encodeArgument_dollar] at h
  rw [encodeArgument_of_ne hfilled] at h
  -- Tag by tag: each has its own kind of literal, with its own error.
  rcases ArgumentType.ofTag?_cases tag with ⟨htag, htype⟩ | ⟨htag, htype⟩ | ⟨htag, htype⟩ |
    ⟨htag, htype⟩
  · rw [htype] at h
    cases haddress : Address.parseLenient? token with
    | some target => simp [ArgumentType.encode, haddress] at h
    | none =>
      obtain rfl : .invalidAddress token = cause := by
        simpa [ArgumentType.encode, haddress] using h
      exact .invalidAddress hfilled htag (parseLenient?_eq_none_iff.1 haddress)
  · rw [htype] at h
    cases hnumber : Word.parseUint token with
    | ok word => simp [ArgumentType.encode, hnumber, Except.mapError] at h
    | error reason =>
      obtain rfl : .invalidNumber token reason = cause := by
        simpa [ArgumentType.encode, hnumber, Except.mapError] using h
      exact .invalidNumber hfilled htag hnumber
  · rw [htype] at h
    cases hstring : Word.parseBytes32 token with
    | ok word => simp [ArgumentType.encode, hstring, Except.mapError] at h
    | error reason =>
      obtain rfl : .invalidBytes32 token reason = cause := by
        simpa [ArgumentType.encode, hstring, Except.mapError] using h
      exact .invalidBytes32 hfilled htag hstring
  · rw [htype] at h
    obtain rfl := Except.error.inj h
    exact .unsupportedType hfilled htag

/-- **An argument is refused exactly for what is wrong with it.** -/
theorem encodeArgument_eq_error_iff {tag token : String} {cause : Cause} :
    encodeArgument tag token = .error cause ↔ ArgumentFault tag token cause :=
  ⟨argumentFault_of_encodeArgument, ArgumentFault.encodeArgument_eq⟩

/-! ## The arguments of a call -/

/-- The argument with the given index **has a fault** under its tag. -/
def HasFault (tags texts : List String) (index : Nat) (cause : Cause) : Prop :=
  ∃ tag text, tags[index]? = some tag ∧ texts[index]? = some text ∧ ArgumentFault tag text cause

/-- The **first fault** of arguments: no argument before the one with the given index has any. -/
structure IsFirstFault (tags texts : List String) (index : Nat) (cause : Cause) : Prop where
  /-- The argument has the fault. -/
  hasFault : HasFault tags texts index cause
  /-- The arguments before it have none. -/
  not_before : ∀ earlier < index, ∀ other, ¬HasFault tags texts earlier other

/-- The first of the arguments is refused if it has a fault. -/
theorem hasFault_zero_iff {tag text : String} {tags texts : List String} {cause : Cause} :
    HasFault (tag :: tags) (text :: texts) 0 cause ↔ encodeArgument tag text = .error cause := by
  rw [encodeArgument_eq_error_iff]
  simp [HasFault]

/-- The arguments after the first keep their faults when the first is left out. -/
theorem hasFault_succ_iff {tag text : String} {tags texts : List String} {index : Nat}
    {cause : Cause} :
    HasFault (tag :: tags) (text :: texts) (index + 1) cause ↔ HasFault tags texts index cause :=
  Iff.rfl

/-- **A call is refused for the first fault of its arguments**, at the index of that argument. -/
theorem encodeEach_of_isFirstFault {tags texts : List String} {index : Nat} {cause : Cause}
    (h : IsFirstFault tags texts index cause) (start : Nat) :
    encodeEach start (tags.zip texts) = .error ⟨some (start + index), cause⟩ := by
  induction tags generalizing texts index start with
  | nil =>
    obtain ⟨tag, text, htag, -⟩ := h.hasFault
    simp at htag
  | cons tag tags ih =>
    cases texts with
    | nil =>
      obtain ⟨tag, text, -, htext, -⟩ := h.hasFault
      simp at htext
    | cons text texts =>
      rw [List.zip_cons_cons, encodeEach]
      cases index with
      | zero =>
        rw [hasFault_zero_iff.1 h.hasFault]
        rfl
      | succ index =>
        cases hfirst : encodeArgument tag text with
        | error other => exact absurd (hasFault_zero_iff.2 hfirst) (h.not_before 0 (by omega) other)
        | ok word =>
          have hothers : IsFirstFault tags texts index cause :=
            ⟨hasFault_succ_iff.1 h.hasFault, fun earlier hlt other hfault =>
              h.not_before (earlier + 1) (by omega) other (hasFault_succ_iff.2 hfault)⟩
          simp only [ih hothers, Except.map, Nat.add_assoc, Nat.add_comm 1]

/-- Arguments have at most one first fault. -/
theorem IsFirstFault.unique {tags texts : List String} {index index' : Nat} {cause cause' : Cause}
    (h : IsFirstFault tags texts index cause) (h' : IsFirstFault tags texts index' cause') :
    index = index' ∧ cause = cause' := by
  have hsame := (encodeEach_of_isFirstFault h 0).symm.trans (encodeEach_of_isFirstFault h' 0)
  simpa using hsame

/-- Arguments without a fault are encoded, one word for each. -/
theorem exists_encodeEach {tags texts : List String} (hlength : tags.length = texts.length)
    (h : ∀ index cause, ¬HasFault tags texts index cause) (start : Nat) :
    ∃ words, encodeEach start (tags.zip texts) = .ok words ∧ words.length = texts.length := by
  induction tags generalizing texts start with
  | nil =>
    obtain rfl : texts = [] := List.length_eq_zero_iff.1 hlength.symm
    exact ⟨[], rfl, rfl⟩
  | cons tag tags ih =>
    obtain ⟨text, texts, rfl⟩ := List.exists_cons_of_length_eq_add_one hlength.symm
    rw [List.zip_cons_cons, encodeEach]
    cases hfirst : encodeArgument tag text with
    | error cause => exact absurd (hasFault_zero_iff.2 hfirst) (h 0 cause)
    | ok word =>
      have hothers : ∀ index cause, ¬HasFault tags texts index cause :=
        fun index cause hfault => h (index + 1) cause (hasFault_succ_iff.2 hfault)
      obtain ⟨words, hwords, hcount⟩ := ih (Nat.succ.inj hlength) hothers (start + 1)
      exact ⟨word :: words, by simp [hwords, Except.map], by simp [hcount]⟩

/-- If any argument has a fault, there is a first one. -/
theorem HasFault.exists_isFirstFault {tags texts : List String} {index : Nat} {cause : Cause}
    (h : HasFault tags texts index cause) :
    ∃ first other, IsFirstFault tags texts first other := by
  classical
  have hexists : ∃ index cause, HasFault tags texts index cause := ⟨index, cause, h⟩
  obtain ⟨other, hother⟩ := Nat.find_spec hexists
  exact ⟨Nat.find hexists, other, hother,
    fun earlier hlt cause hfault => Nat.find_min hexists hlt ⟨cause, hfault⟩⟩

/-- What comes of the arguments of a call: their number is wrong, or they have a first fault, or they
have none and become words. -/
theorem encodeArguments_cases (tags texts : List String) :
    tags.length ≠ texts.length ∧
        encodeArguments tags texts = .error ⟨none, .argumentCount tags.length texts.length⟩ ∨
      tags.length = texts.length ∧
        ((∃ index cause, IsFirstFault tags texts index cause ∧
            encodeArguments tags texts = .error ⟨some index, cause⟩) ∨
          (∀ index cause, ¬HasFault tags texts index cause) ∧
            ∃ words, encodeArguments tags texts = .ok words ∧ words.length = texts.length) := by
  unfold encodeArguments
  by_cases hlength : tags.length = texts.length
  · rw [if_neg (not_not.2 hlength)]
    refine .inr ⟨hlength, ?_⟩
    by_cases hfault : ∃ index cause, HasFault tags texts index cause
    · obtain ⟨index, cause, hfault⟩ := hfault
      obtain ⟨first, other, hfirst⟩ := hfault.exists_isFirstFault
      have hrefused := encodeEach_of_isFirstFault hfirst 0
      rw [Nat.zero_add] at hrefused
      exact .inl ⟨first, other, hfirst, hrefused⟩
    · have hnone : ∀ index cause, ¬HasFault tags texts index cause :=
        fun index cause h => hfault ⟨index, cause, h⟩
      exact .inr ⟨hnone, exists_encodeEach hlength hnone 0⟩
  · rw [if_pos hlength]
    exact .inl ⟨hlength, rfl⟩

/-- A fault of the arguments of a call is about their number, or about one of them. -/
theorem encodeArguments_eq_error {tags texts : List String} {fault : ArgumentsFault}
    (h : encodeArguments tags texts = .error fault) :
    fault = ⟨none, .argumentCount tags.length texts.length⟩ ∨
      ∃ index cause, fault = ⟨some index, cause⟩ ∧ HasFault tags texts index cause := by
  rcases encodeArguments_cases tags texts with ⟨-, hresult⟩ |
    ⟨-, ⟨index, cause, hfirst, hresult⟩ | ⟨-, words, hresult, -⟩⟩
  · exact .inl (Except.error.inj (h.symm.trans hresult))
  · exact .inr ⟨index, cause, Except.error.inj (h.symm.trans hresult), hfirst.hasFault⟩
  · simp [hresult] at h

/-- The argument that a fault is about is there. -/
theorem index_lt_of_encodeArguments {tags texts : List String} {fault : ArgumentsFault} {index : Nat}
    (h : encodeArguments tags texts = .error fault) (hindex : fault.index = some index) :
    index < texts.length := by
  rcases encodeArguments_eq_error h with rfl | ⟨found, cause, rfl, tag, text, -, htext, -⟩
  · simp at hindex
  · obtain rfl : found = index := Option.some.inj hindex
    exact (List.getElem?_eq_some_iff.1 htext).1

/-- The first fault depends neither on the tags of dollar signs nor on the arguments after it. -/
theorem IsFirstFault.congr {tags tags' texts texts' : List String} {index : Nat} {cause : Cause}
    (h : IsFirstFault tags texts index cause)
    (htexts : ∀ i ≤ index, texts'[i]? = texts[i]?)
    (htags : ∀ i ≤ index, texts[i]? ≠ some "$" → tags'[i]? = tags[i]?) :
    IsFirstFault tags' texts' index cause := by
  have hsame : ∀ i ≤ index, ∀ other,
      HasFault tags' texts' i other ↔ HasFault tags texts i other := by
    intro i hle other
    unfold HasFault
    rw [htexts i hle]
    by_cases hdollar : texts[i]? = some "$"
    · -- Neither has a fault, whatever the tags are.
      rw [hdollar]
      constructor
      · rintro ⟨tag, text, -, htext, hfault⟩
        exact absurd (Option.some.inj htext).symm hfault.ne_dollar
      · rintro ⟨tag, text, -, htext, hfault⟩
        exact absurd (Option.some.inj htext).symm hfault.ne_dollar
    · rw [htags i hle hdollar]
  exact ⟨(hsame index (Nat.le_refl _) cause).2 h.hasFault,
    fun earlier hlt other hfault =>
      h.not_before earlier hlt other ((hsame earlier hlt.le other).1 hfault)⟩

/-! ## The placeholder word -/

/-- The word of an address is not the placeholder, because it starts with a zero. -/
theorem ofAddress_ne_placeholder (address : Address) :
    Word.ofAddress address ≠ Word.placeholder := by
  intro h
  have hfirst := congrArg (fun word : Word => word.bytes.toList.head?) h
  exact absurd hfirst (by simp [Word.ofAddress, Word.placeholder, Block.append, Block.fill])

/-- A number is read as the placeholder exactly when it is a numeral for the greatest number. -/
theorem parseUint_eq_placeholder_iff {token : String} :
    Word.parseUint token = .ok Word.placeholder ↔ Numeral token.toList (2 ^ 256 - 1) := by
  have hvalue : Word.placeholder.toNat = 2 ^ 256 - 1 := by decide +kernel
  rw [Word.parseUint_eq_ok_iff, hvalue]

/-- The hexadecimal digits that are `f` in lowercase. -/
theorem eq_of_toLower_eq_f {c : Char} (hdigit : c.isHexDigit = true) (h : c.toLower = 'f') :
    c = 'f' ∨ c = 'F' := by
  have table : (Hex.alphabet.all fun c => decide (c.toLower = 'f' → c = 'f' ∨ c = 'F')) = true := by
    decide
  obtain ⟨value, hvalue⟩ := Hex.exists_digit? hdigit
  have hrow := List.all_eq_true.1 table c (Hex.mem_alphabet_of_digit? hvalue)
  exact of_decide_eq_true hrow h

/-- A byte string is read as the placeholder exactly when it is 64 times the highest digit. -/
theorem parseBytes32_eq_placeholder_iff {token : String} :
    Word.parseBytes32 token = .ok Word.placeholder ↔
      ∃ digits, MaybeMarked token.toList digits ∧ digits.length = 64 ∧
        ∀ c ∈ digits, c = 'f' ∨ c = 'F' := by
  rw [Word.parseBytes32_eq_ok_iff, Word.digits_placeholder]
  constructor
  · rintro ⟨digits, hmarked, hlength, hdigits, hprinted⟩
    obtain ⟨-, hall⟩ := List.eq_replicate_iff.1 hprinted.symm
    -- With fewer digits, a zero would be printed after them.
    have hfull : digits.length = 64 := by
      by_contra hshort
      have hzero : '0' ∈ (digits.map Char.toLower).rightpad 64 '0' := by
        rw [List.rightpad, List.length_map]
        exact List.mem_append_right _ (List.mem_replicate.2 ⟨by omega, rfl⟩)
      exact absurd (hall '0' hzero) (by decide)
    refine ⟨digits, hmarked, hfull, ?_⟩
    intro c hmem
    refine eq_of_toLower_eq_f (hdigits c hmem) (hall _ ?_)
    rw [List.rightpad]
    exact List.mem_append_left _ (List.mem_map_of_mem hmem)
  · rintro ⟨digits, hmarked, hlength, hdigits⟩
    have hlower : digits.map Char.toLower = List.replicate 64 'f' := by
      rw [List.eq_replicate_iff, List.length_map]
      refine ⟨hlength, ?_⟩
      intro c hmem
      obtain ⟨digit, hdigit, rfl⟩ := List.mem_map.1 hmem
      rcases hdigits digit hdigit with rfl | rfl
      · decide
      · decide
    refine ⟨digits, hmarked, hlength.le, ?_, by rw [hlower]; rfl⟩
    intro c hmem
    rcases hdigits c hmem with rfl | rfl
    · decide
    · decide

/-- A literal of a type is encoded as the placeholder exactly when it is a number or a byte string that
is read as the placeholder. -/
theorem ArgumentType.encode_eq_placeholder_iff {token : String} (type : ArgumentType) :
    type.encode token = .ok Word.placeholder ↔
      type = .uint256 ∧ Word.parseUint token = .ok Word.placeholder ∨
        type = .bytes32 ∧ Word.parseBytes32 token = .ok Word.placeholder := by
  cases type with
  | address =>
    cases haddress : Address.parseLenient? token with
    | none => simp [ArgumentType.encode, haddress]
    | some address => simp [ArgumentType.encode, haddress, ofAddress_ne_placeholder]
  | uint256 =>
    cases hnumber : Word.parseUint token with
    | error reason => simp [ArgumentType.encode, hnumber, Except.mapError]
    | ok word => simp [ArgumentType.encode, hnumber, Except.mapError]
  | bytes32 =>
    cases hstring : Word.parseBytes32 token with
    | error reason => simp [ArgumentType.encode, hstring, Except.mapError]
    | ok word => simp [ArgumentType.encode, hstring, Except.mapError]

/-- An argument is encoded as the placeholder exactly when it is a dollar sign, or a literal of its
type that is read as the placeholder. -/
theorem encodeArgument_eq_placeholder {tag token : String} :
    encodeArgument tag token = .ok Word.placeholder ↔
      token = "$" ∨
      (tag = "uint" ∨ tag = "uint256") ∧ Word.parseUint token = .ok Word.placeholder ∨
      tag = "bytes32" ∧ Word.parseBytes32 token = .ok Word.placeholder := by
  by_cases hdollar : token = "$"
  · subst hdollar
    exact iff_of_true (encodeArgument_dollar tag) (.inl rfl)
  rw [encodeArgument_of_ne hdollar]
  -- Tag by tag, only the literals of the type that it names are left.
  rcases ArgumentType.ofTag?_cases tag with ⟨rfl, htype⟩ | ⟨rfl | rfl, htype⟩ | ⟨rfl, htype⟩ |
    ⟨htag, htype⟩
  · simp [htype, ArgumentType.encode_eq_placeholder_iff, hdollar]
  · simp [htype, ArgumentType.encode_eq_placeholder_iff, hdollar]
  · simp [htype, ArgumentType.encode_eq_placeholder_iff, hdollar]
  · simp [htype, ArgumentType.encode_eq_placeholder_iff, hdollar]
  · simp only [List.mem_cons, List.not_mem_nil, or_false, not_or] at htag
    simp [htype, hdollar, htag]

/-- **Which arguments become the placeholder word.** An argument is encoded as the placeholder exactly
when it is a dollar sign, whatever its tag, or a number with the greatest value under a tag for
numbers, or 64 times the highest digit under the tag for byte strings. An address never is. -/
theorem encodeArgument_eq_placeholder_iff (tag token : String) :
    (encodeArgument tag token = .ok Word.placeholder ↔
      token = "$" ∨
      (tag = "uint" ∨ tag = "uint256") ∧ Numeral token.toList (2 ^ 256 - 1) ∨
      tag = "bytes32" ∧ ∃ digits, MaybeMarked token.toList digits ∧ digits.length = 64 ∧
        ∀ c ∈ digits, c = 'f' ∨ c = 'F') ∧
    (encodeArgument "address" token = .ok Word.placeholder ↔ token = "$") ∧
    ∀ address, Word.ofAddress address ≠ Word.placeholder := by
  refine ⟨?_, ?_, ofAddress_ne_placeholder⟩
  · rw [encodeArgument_eq_placeholder, parseUint_eq_placeholder_iff, parseBytes32_eq_placeholder_iff]
  · rw [encodeArgument_eq_placeholder]
    simp

end CallScript.Script
