import CallScript.Proofs.Literals
import Mathlib.Data.List.TakeWhile

/-! # Reading numbers

What comes of reading a number, for every text. A text is taken apart into the mark of its base, the
digits at its start and what stands after them; the outcome depends on these parts only.

* **`Word.readDigits_of_lt`** and **`Word.readDigits_of_le`**: a run of digits is read into a word if
  its value fits, and is refused otherwise, whatever follows it.
* **`NumberText`** is a text taken apart.
* **`Word.parseUint_exact`**: what is read from a text, and why nothing is read from it. -/

namespace CallScript

/-! ## Values of digits -/

/-- The value of one more digit at the end. -/
theorem digitsValue_concat (base : Nat) (digits : List Char) (c : Char) :
    digitsValue base (digits ++ [c]) = digitsValue base digits * base + Hex.digitValue c := by
  simp [digitsValue]

/-- The first digit counts for `base ^ n` when `n` digits follow it. -/
theorem digitsValue_cons (base : Nat) (c : Char) (digits : List Char) :
    digitsValue base (c :: digits) =
      Hex.digitValue c * base ^ digits.length + digitsValue base digits := by
  -- From the right, because a value grows by a digit at its end.
  induction digits using List.reverseRecOn with
  | nil => simp [digitsValue]
  | append_singleton digits last ih =>
    rw [← List.cons_append, digitsValue_concat, digitsValue_concat, ih, List.length_append,
      List.length_singleton, Nat.pow_succ]
    ring

namespace Radix

/-- Every base has digits. -/
theorem size_pos (radix : Radix) : 0 < radix.size := by
  cases radix <;> decide

/-- A digit of a base is read as its value. -/
theorem digit?_of_isDigit {radix : Radix} {c : Char} (h : radix.IsDigit c) :
    radix.digit? c = some (Hex.digitValue c) := by
  have hhex : c.isHexDigit = true := by
    cases radix with
    | decimal => exact Bool.or_eq_true_iff.2 (.inl (Bool.or_eq_true_iff.2 (.inl h)))
    | hexadecimal => exact h
  obtain ⟨value, hvalue⟩ := Hex.exists_digit? hhex
  obtain ⟨-, rfl, hlt, -, hdecimal⟩ := Hex.digit?_eq_some hvalue
  rw [digit?, hvalue, Option.filter_eq_some_iff]
  refine ⟨rfl, ?_⟩
  cases radix with
  | decimal => exact decide_eq_true (hdecimal.2 h)
  | hexadecimal => exact decide_eq_true hlt

/-- Nothing else is read as a digit. -/
theorem digit?_eq_none_of_not {radix : Radix} {c : Char} (h : ¬radix.IsDigit c) :
    radix.digit? c = none := by
  cases hdigit : radix.digit? c with
  | none => rfl
  | some value => exact absurd (digit?_eq_some hdigit).1 h

end Radix

namespace Word

/-! ## Runs of digits -/

/-- A digit for which there is no room takes the number in a word beyond 256 bits. -/
theorem le_of_append_eq_none {radix : Radix} {digit : Nat} (hdigit : digit < radix.size)
    {word : Word}
    (h : mulAdd? (UInt32.ofNat radix.size) (UInt32.ofNat digit) word = none) :
    2 ^ 256 ≤ word.toNat * radix.size + digit := by
  obtain ⟨hsize, hfactor, haddend⟩ := Radix.toNat_ofNat hdigit
  have hvalue := le_of_mulAdd?_eq_none (by omega) (by omega) h
  rwa [hfactor, haddend] at hvalue

/-- One digit is read by appending it to the number in the word. -/
theorem readDigits_cons {radix : Radix} {c : Char} (h : radix.IsDigit c) (word : Word)
    (rest : List Char) :
    (∃ next, next.toNat = word.toNat * radix.size + Hex.digitValue c ∧
      readDigits radix word (c :: rest) = readDigits radix next rest) ∨
    2 ^ 256 ≤ word.toNat * radix.size + Hex.digitValue c ∧
      readDigits radix word (c :: rest) = .error .overflow := by
  have hdigit := Radix.digit?_of_isDigit h
  obtain ⟨-, -, hlt⟩ := Radix.digit?_eq_some hdigit
  cases hstep : mulAdd? (UInt32.ofNat radix.size) (UInt32.ofNat (Hex.digitValue c)) word with
  | none => exact .inr ⟨le_of_append_eq_none hlt hstep, by simp only [readDigits, hdigit, hstep]⟩
  | some next =>
    exact .inl ⟨next, toNat_of_append hlt hstep, by simp only [readDigits, hdigit, hstep]⟩

/-- Appending digits to a number is appending the first of them and then the others. -/
theorem shift_cons (start base : Nat) (c : Char) (digits : List Char) :
    start * base ^ (c :: digits).length + digitsValue base (c :: digits) =
      (start * base + Hex.digitValue c) * base ^ digits.length + digitsValue base digits := by
  rw [digitsValue_cons, List.length_cons, Nat.pow_succ]
  ring

/-- Digits are read into a word if there is room for them, and reading goes on after them. -/
theorem readDigits_of_lt {radix : Radix} {word : Word} {digits : List Char}
    (hdigits : ∀ c ∈ digits, radix.IsDigit c)
    (hlt : word.toNat * radix.size ^ digits.length + digitsValue radix.size digits < 2 ^ 256)
    (rest : List Char) :
    ∃ next, next.toNat =
        word.toNat * radix.size ^ digits.length + digitsValue radix.size digits ∧
      readDigits radix word (digits ++ rest) = readDigits radix next rest := by
  induction digits generalizing word with
  | nil => exact ⟨word, by simp [digitsValue], rfl⟩
  | cons c digits ih =>
    obtain ⟨hc, hrest⟩ := List.forall_mem_cons.1 hdigits
    rw [shift_cons] at hlt ⊢
    rw [List.cons_append]
    rcases readDigits_cons hc word (digits ++ rest) with ⟨next, hvalue, hread⟩ | ⟨hle, -⟩
    · rw [← hvalue] at hlt ⊢
      rw [hread]
      exact ih hrest hlt
    · -- The digits after this one cannot make the number fit again.
      have hgrow : word.toNat * radix.size + Hex.digitValue c ≤
          (word.toNat * radix.size + Hex.digitValue c) * radix.size ^ digits.length :=
        Nat.le_mul_of_pos_right _ (Nat.pow_pos radix.size_pos)
      omega

/-- Digits for which there is no room are refused, whatever follows them. -/
theorem readDigits_of_le {radix : Radix} {word : Word} {digits : List Char}
    (hdigits : ∀ c ∈ digits, radix.IsDigit c)
    (hle : 2 ^ 256 ≤ word.toNat * radix.size ^ digits.length + digitsValue radix.size digits)
    (rest : List Char) : readDigits radix word (digits ++ rest) = .error .overflow := by
  induction digits generalizing word with
  | nil =>
    have hlt := word.toNat_lt
    simp only [digitsValue, List.length_nil, Nat.pow_zero, Nat.mul_one, List.foldl_nil,
      Nat.add_zero] at hle
    exact absurd hle (Nat.not_le.2 hlt)
  | cons c digits ih =>
    obtain ⟨hc, hrest⟩ := List.forall_mem_cons.1 hdigits
    rw [shift_cons] at hle
    rw [List.cons_append]
    rcases readDigits_cons hc word (digits ++ rest) with ⟨next, hvalue, hread⟩ | ⟨-, hread⟩
    · rw [← hvalue] at hle
      rw [hread]
      exact ih hrest hle
    · exact hread

end Word

/-! ## Numbers as they are written -/

/-- A **text taken apart** as a number: the mark of the base, as many digits as there are, and the
rest. -/
structure NumberText (text : List Char) where
  /-- The base. -/
  radix : Radix
  /-- The digits that come first. -/
  digits : List Char
  /-- What stands after them. -/
  rest : List Char
  /-- The base is the one that is marked, and digits and rest are what follows the mark. -/
  marks : radix.Marks text (digits ++ rest)
  /-- The digits are digits of the base. -/
  isDigit_digits : ∀ c ∈ digits, radix.IsDigit c
  /-- No further digit stands after them. -/
  not_isDigit_rest : ∀ c ∈ rest.head?, ¬radix.IsDigit c

namespace NumberText

variable {text : List Char}

/-- What follows the mark of the base. -/
def body (number : NumberText text) : List Char :=
  number.digits ++ number.rest

/-- The value of the digits. -/
def value (number : NumberText text) : Nat :=
  digitsValue number.radix.size number.digits

/-- What is to **come of reading** a number. The first that applies of these decides: a minus sign,
that there is nothing to read, the size of the digits, the character after them. -/
inductive ComesTo (number : NumberText text) : Except LiteralError Word → Prop
  /-- A minus sign at the start is refused. -/
  | negative (hsign : text.head? = some '-') : number.ComesTo (.error .negative)
  /-- There must be something after the mark. -/
  | noDigits (hsign : text.head? ≠ some '-') (hbody : number.body = []) :
    number.ComesTo (.error .noDigits)
  /-- The value of the digits must fit in 256 bits. -/
  | overflow (hsign : text.head? ≠ some '-') (hbody : number.body ≠ [])
    (hle : 2 ^ 256 ≤ number.value) : number.ComesTo (.error .overflow)
  /-- The digits must go on to the end. -/
  | invalidDigit {c : Char} (hsign : text.head? ≠ some '-') (hbody : number.body ≠ [])
    (hlt : number.value < 2 ^ 256) (hrest : number.rest.head? = some c) :
    number.ComesTo (.error (.invalidDigit c))
  /-- Then the number is the value of the digits. -/
  | word {word : Word} (hsign : text.head? ≠ some '-') (hbody : number.body ≠ [])
    (hrest : number.rest = []) (hvalue : word.toNat = number.value) : number.ComesTo (.ok word)

end NumberText

/-- Every text can be taken apart. -/
theorem nonempty_numberText (text : List Char) : Nonempty (NumberText text) := by
  obtain ⟨radix, digits, hsplit⟩ : ∃ radix digits, Word.splitRadix text = (radix, digits) :=
    ⟨_, _, rfl⟩
  -- The digits go on as long as characters are read as digits.
  refine ⟨⟨radix, digits.takeWhile fun c => (radix.digit? c).isSome,
    digits.dropWhile fun c => (radix.digit? c).isSome, ?_, ?_, ?_⟩⟩
  · rw [List.takeWhile_append_dropWhile]
    exact Word.splitRadix_eq_iff.1 hsplit
  · intro c hmem
    have hsome := List.all_eq_true.1 List.all_takeWhile c hmem
    obtain ⟨value, hvalue⟩ := Option.isSome_iff_exists.1 hsome
    exact (Radix.digit?_eq_some hvalue).1
  · intro c hmem hdigit
    have hstop := List.head?_dropWhile_not (fun c => (radix.digit? c).isSome) digits
    rw [Option.mem_def.1 hmem] at hstop
    simp [Radix.digit?_of_isDigit hdigit] at hstop

/-- A numeral is a mark and digits, and nothing after them. -/
theorem Numeral.exists_numberText {text : List Char} {value : Nat} (h : Numeral text value) :
    ∃ number : NumberText text, number.rest = [] ∧ number.digits ≠ [] ∧ number.value = value := by
  cases h with
  | decimal hne hdigits =>
    have hplain : ∀ x rest, text = '0' :: x :: rest → x ≠ 'x' ∧ x ≠ 'X' := by
      rintro x rest rfl
      exact not_or.1 fun hmarker => not_isDigit_marker hmarker hdigits
    refine ⟨⟨.decimal, text, [], ?_, hdigits, by simp⟩, rfl, hne, rfl⟩
    rw [List.append_nil]
    exact .decimal hplain
  | @hexadecimal x digits hmarker hne hdigits =>
    refine ⟨⟨.hexadecimal, digits, [], ?_, hdigits, by simp⟩, rfl, hne, rfl⟩
    rw [List.append_nil]
    exact .hexadecimal hmarker

/-- A numeral has no minus sign. -/
theorem Numeral.head?_ne_minus {text : List Char} {value : Nat} (h : Numeral text value) :
    text.head? ≠ some '-' := by
  cases h with
  | decimal hne hdigits =>
    intro hhead
    exact absurd (hdigits '-' (List.mem_of_head? hhead)) (by decide)
  | hexadecimal => simp

namespace Word

/-- A number without a minus sign is read from what follows the mark of its base. -/
theorem parseUint_eq {token : String} (number : NumberText token.toList)
    (hsign : token.toList.head? ≠ some '-') (hbody : number.body ≠ []) :
    parseUint token = readDigits number.radix zero number.body := by
  have hsplit : splitRadix token.toList = (number.radix, number.body) :=
    splitRadix_eq_iff.2 number.marks
  rw [parseUint, if_neg hsign, hsplit]
  split
  · next heq => exact absurd (Prod.mk.inj heq).2 hbody
  · next heq =>
    obtain ⟨rfl, rfl⟩ := Prod.mk.inj heq
    rfl

/-- The value of digits that are read into an empty word. -/
theorem shift_zero (base : Nat) (digits : List Char) :
    zero.toNat * base ^ digits.length + digitsValue base digits = digitsValue base digits := by
  have hzero : zero.toNat = 0 := by decide
  rw [hzero, Nat.zero_mul, Nat.zero_add]

/-- What is read from a text is what is to come of it. -/
theorem comesTo_parseUint {token : String} (number : NumberText token.toList) :
    number.ComesTo (parseUint token) := by
  by_cases hsign : token.toList.head? = some '-'
  · rw [parseUint, if_pos hsign]
    exact .negative hsign
  by_cases hbody : number.body = []
  · have hsplit : splitRadix token.toList = (number.radix, []) := by
      rw [← hbody]
      exact splitRadix_eq_iff.2 number.marks
    rw [parseUint, if_neg hsign, hsplit]
    exact .noDigits hsign hbody
  have hfits := shift_zero number.radix.size number.digits
  rw [parseUint_eq number hsign hbody, NumberText.body]
  by_cases hle : 2 ^ 256 ≤ number.value
  · rw [readDigits_of_le number.isDigit_digits (hle.trans_eq hfits.symm)]
    exact .overflow hsign hbody hle
  · -- The digits are read, and the character after them, if there is one, is refused.
    have hlt : number.value < 2 ^ 256 := Nat.lt_of_not_le hle
    obtain ⟨word, hvalue, hread⟩ :=
      readDigits_of_lt number.isDigit_digits (hfits.trans_lt hlt) number.rest
    rw [hread]
    cases hrest : number.rest with
    | nil => exact .word hsign hbody hrest (hvalue.trans hfits)
    | cons c others =>
      have hstop : ¬number.radix.IsDigit c := number.not_isDigit_rest c (by simp [hrest])
      rw [readDigits, Radix.digit?_eq_none_of_not hstop]
      exact .invalidDigit hsign hbody hlt (by simp [hrest])

/-- A numeral for a number that fits is read as the word of that number. -/
theorem exists_parseUint_of_numeral {token : String} {value : Nat}
    (h : Numeral token.toList value) (hlt : value < 2 ^ 256) :
    ∃ word, parseUint token = .ok word ∧ word.toNat = value := by
  obtain ⟨number, hrest, hdigits, rfl⟩ := h.exists_numberText
  have hsign := h.head?_ne_minus
  have hcomes := comesTo_parseUint number
  generalize parseUint token = result at hcomes ⊢
  -- Nothing is wrong with a numeral, so that only the word is left.
  cases hcomes with
  | negative hminus => exact absurd hminus hsign
  | noDigits _ hbody => exact absurd (List.append_eq_nil_iff.1 hbody).1 hdigits
  | overflow _ _ hle => exact absurd hle (Nat.not_le.2 hlt)
  | invalidDigit _ _ _ hnext => simp [hrest] at hnext
  | @word word _ _ _ hvalue => exact ⟨word, rfl, hvalue⟩

/-- A number is read as a word exactly when it is a numeral for the value of the word. -/
theorem parseUint_eq_ok_iff {token : String} {word : Word} :
    parseUint token = .ok word ↔ Numeral token.toList word.toNat := by
  constructor
  · exact numeral_of_parseUint
  · intro h
    obtain ⟨other, hread, hvalue⟩ := exists_parseUint_of_numeral h word.toNat_lt
    rw [hread, eq_of_toNat_eq hvalue]

/-- **Numbers are read exactly.** Every text can be taken apart into a mark, digits and a rest. A
number is refused as negative exactly when the text starts with a minus sign. If it does not, the
digits are missed exactly when nothing follows the mark. If something does, the number is refused as
too large exactly when the value of the digits is `2 ^ 256` or more, whatever stands after them. If
it is less, the first character after the digits is refused, and if there is none, the number is
read into the word of that value. -/
theorem parseUint_exact (token : String) :
    Nonempty (NumberText token.toList) ∧
    ∀ number : NumberText token.toList,
      (parseUint token = .error .negative ↔ token.toList.head? = some '-') ∧
      (token.toList.head? ≠ some '-' →
        (parseUint token = .error .noDigits ↔ number.digits ++ number.rest = []) ∧
        (number.digits ++ number.rest ≠ [] →
          (parseUint token = .error .overflow ↔
            2 ^ 256 ≤ digitsValue number.radix.size number.digits) ∧
          (digitsValue number.radix.size number.digits < 2 ^ 256 →
            (∀ c, parseUint token = .error (.invalidDigit c) ↔ number.rest.head? = some c) ∧
            (number.rest = [] → ∃ word, parseUint token = .ok word ∧
              word.toNat = digitsValue number.radix.size number.digits)))) := by
  refine ⟨nonempty_numberText token.toList, ?_⟩
  intro number
  have hcomes := comesTo_parseUint number
  generalize parseUint token = result at hcomes ⊢
  cases hcomes with
  | negative hsign => exact ⟨iff_of_true rfl hsign, fun h => absurd hsign h⟩
  | noDigits hsign hbody =>
    refine ⟨iff_of_false (by simp) hsign, fun _ => ⟨iff_of_true rfl hbody, ?_⟩⟩
    exact fun h => absurd hbody h
  | overflow hsign hbody hle =>
    refine ⟨iff_of_false (by simp) hsign, fun _ => ⟨iff_of_false (by simp) hbody, fun _ => ?_⟩⟩
    exact ⟨iff_of_true rfl hle, fun hlt => absurd hle (Nat.not_le.2 hlt)⟩
  | invalidDigit hsign hbody hlt hrest =>
    refine ⟨iff_of_false (by simp) hsign, fun _ => ⟨iff_of_false (by simp) hbody, fun _ => ?_⟩⟩
    refine ⟨iff_of_false (by simp) (Nat.not_le.2 hlt), fun _ => ⟨?_, ?_⟩⟩
    · intro c
      simp [hrest]
    · intro hnil
      simp [hnil] at hrest
  | @word word hsign hbody hrest hvalue =>
    have hlt : number.value < 2 ^ 256 := hvalue.symm.trans_lt word.toNat_lt
    refine ⟨iff_of_false (by simp) hsign, fun _ => ⟨iff_of_false (by simp) hbody, fun _ => ?_⟩⟩
    refine ⟨iff_of_false (by simp) (Nat.not_le.2 hlt), fun _ => ⟨?_, ?_⟩⟩
    · intro c
      simp [hrest]
    · intro _
      exact ⟨word, rfl, hvalue⟩

/-- A number with 65 hexadecimal digits and a character that is none. -/
def longNumber : String :=
  String.ofList ('0' :: 'X' :: '1' :: (List.replicate 64 '0' ++ ['z']))

/-- The long number is too large, which counts for more than the character after its digits. -/
theorem longNumber_too_large :
    ∃ number : NumberText longNumber.toList, number.radix = .hexadecimal ∧
      number.rest = ['z'] ∧ 2 ^ 256 ≤ digitsValue number.radix.size number.digits ∧
      parseUint longNumber = .error .overflow := by
  have htext : longNumber.toList = '0' :: 'X' :: '1' :: (List.replicate 64 '0' ++ ['z']) :=
    String.toList_ofList
  have hdigits : ∀ c ∈ '1' :: List.replicate 64 '0', c.isHexDigit = true :=
    List.all_eq_true.1 (by decide +kernel)
  have hrest : ∀ c ∈ ['z'].head?, ¬c.isHexDigit = true := by
    intro c hmem
    obtain rfl : 'z' = c := Option.some.inj hmem
    decide
  have hmarks : Radix.Marks .hexadecimal longNumber.toList
      (('1' :: List.replicate 64 '0') ++ ['z']) := by
    rw [htext]
    exact .hexadecimal (.inr rfl)
  have hsign : longNumber.toList.head? ≠ some '-' := by
    rw [htext]
    decide
  have hle : 2 ^ 256 ≤ digitsValue 16 ('1' :: List.replicate 64 '0') := by decide +kernel
  obtain ⟨-, hexact⟩ := parseUint_exact longNumber
  have hnumber := hexact ⟨.hexadecimal, _, ['z'], hmarks, hdigits, hrest⟩
  exact ⟨⟨.hexadecimal, _, ['z'], hmarks, hdigits, hrest⟩, rfl, rfl, hle,
    ((hnumber.2 hsign).2 (by simp)).1.2 hle⟩

end Word

end CallScript
