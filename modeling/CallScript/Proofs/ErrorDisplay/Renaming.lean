import CallScript.Proofs.ErrorDisplay.Scanning
import Mathlib.Data.List.Forall2

/-! # Naming the positions of a message

A placeholder can refer to a field by its position. Where these positions get names, nothing else of
the message changes, however it is written.

* **`Spells`** relates an argument to the position that it spells; **`position?_eq_some_iff`** says
  that it is the one that is read.
* **`Piece.Becomes`** says what a piece is once the positions have names.
* **`Scans.rename`**: a message with names in it is cut in the same places.
* **`renamePositional_keeps_pieces`**: so its pieces are those of the message with the names in
  them, and naming the positions again changes nothing. -/

namespace CallScript.ErrorDisplay

/-! ## Positions -/

/-- An argument **spells** a position: a plus sign or none, any number of zeros, and the position in
plain decimal. -/
def Spells (argument : String) (position : Nat) : Prop :=
  ∃ (sign : List Char) (zeros : Nat), (sign = [] ∨ sign = ['+']) ∧
    argument.toList = sign ++ (List.replicate zeros '0' ++ (toString position).toList)

theorem toList_decimal (number : Nat) : (decimal number).toList = Nat.toDigits 10 number :=
  String.toList_ofList

/-- Plain decimal is how numbers are written elsewhere. -/
theorem decimal_eq_toString (number : Nat) : decimal number = toString number :=
  Nat.toString_eq_ofList_toDigits.symm

/-- A number in plain decimal spells itself. -/
theorem spells_decimal (position : Nat) : Spells (decimal position) position :=
  ⟨[], 0, .inl rfl, by rw [decimal_eq_toString]; rfl⟩

/-- A digit is the digit of its value. -/
theorem toDigits_of_isDigit {c : Char} (h : c.isDigit = true) :
    c.toNat - '0'.toNat < 10 ∧ Nat.toDigits 10 (c.toNat - '0'.toNat) = [c] := by
  have hrange : 48 ≤ c.toNat ∧ c.toNat ≤ 57 := by
    simpa [Char.isDigit, Char.le_def, UInt32.le_iff_toNat_le] using h
  have hlt : c.toNat - '0'.toNat < 10 := by
    change c.toNat - 48 < 10
    omega
  refine ⟨hlt, ?_⟩
  rw [Nat.toDigits_of_lt_base hlt, List.singleton_inj, ← Char.toNat_inj,
    Nat.toNat_digitChar_of_lt_ten hlt]
  change 48 + (c.toNat - 48) = c.toNat
  omega

/-- Digits are zeros followed by their value in plain decimal. -/
theorem exists_zeros {digits : List Char} (hne : digits ≠ [])
    (hdigits : ∀ c ∈ digits, c.isDigit = true) :
    ∃ zeros, digits =
      List.replicate zeros '0' ++ Nat.toDigits 10 (Nat.ofDigitChars 10 digits 0) := by
  -- From the right, because a number in decimal grows by a digit at its end.
  induction digits using List.reverseRecOn with
  | nil => exact absurd rfl hne
  | append_singleton digits last ih =>
    obtain ⟨hlt, hlast⟩ := toDigits_of_isDigit (hdigits last (by simp))
    rw [Nat.ofDigitChars_append, Nat.ofDigitChars_cons, Nat.ofDigitChars_nil]
    by_cases hnil : digits = []
    · subst hnil
      exact ⟨0, by rw [Nat.ofDigitChars_nil, Nat.mul_zero, Nat.zero_add, hlast]; rfl⟩
    · obtain ⟨zeros, hzeros⟩ := ih hnil fun c hmem => hdigits c (by simp [hmem])
      rcases Nat.eq_zero_or_pos (Nat.ofDigitChars 10 digits 0) with hzero | hpos
      · -- So far there are only zeros; the one that stood for the number is one of them now.
        rw [hzero, Nat.toDigits_zero, ← List.replicate_succ'] at hzeros
        exact ⟨zeros + 1, by rw [hzero, Nat.mul_zero, Nat.zero_add, hlast, ← hzeros]⟩
      · refine ⟨zeros, ?_⟩
        rw [← Nat.toDigits_append_toDigits (by decide) hpos hlt, hlast, ← List.append_assoc,
          ← hzeros]

/-- Zeros followed by a number in plain decimal are digits with the value of that number. -/
theorem ofDigitChars_zeros (zeros position : Nat) :
    Nat.ofDigitChars 10 (List.replicate zeros '0' ++ Nat.toDigits 10 position) 0 = position := by
  rw [Nat.ofDigitChars_append, Nat.ofDigitChars_replicate_zero, Nat.mul_zero,
    Nat.ofDigitChars_ten_toDigits]

/-- Zeros followed by a number in plain decimal are digits, and there are some. -/
theorem isDigit_zeros (zeros position : Nat) :
    List.replicate zeros '0' ++ Nat.toDigits 10 position ≠ [] ∧
      ∀ c ∈ List.replicate zeros '0' ++ Nat.toDigits 10 position, c.isDigit = true := by
  refine ⟨by simp [Nat.toDigits_ne_nil], ?_⟩
  intro c hmem
  rcases List.mem_append.1 hmem with hzero | hdigit
  · rw [List.eq_of_mem_replicate hzero]
    rfl
  · exact Nat.isDigit_of_mem_toDigits (by decide) (by decide) hdigit

/-- The digits of an argument: what follows its plus sign, or all of it if it has none. -/
def unsigned : List Char → List Char
  | '+' :: rest => rest
  | other => other

/-- An argument without its plus sign. -/
theorem unsigned_spec (text : List Char) :
    text = unsigned text ∨ text = '+' :: unsigned text := by
  unfold unsigned
  split
  · exact .inr rfl
  · exact .inl rfl

/-- Digits have no plus sign in front of them that could be taken off. -/
theorem unsigned_of_isDigit {digits : List Char} (h : ∀ c ∈ digits, c.isDigit = true) :
    unsigned digits = digits := by
  unfold unsigned
  split
  · next rest => exact absurd (h '+' List.mem_cons_self) (by decide)
  · rfl

/-- A position is read from digits, and is their value. -/
theorem position?_eq_some_iff_unsigned {argument : String} {position : Nat} :
    position? argument = some position ↔
      (unsigned argument.toList ≠ [] ∧ ∀ c ∈ unsigned argument.toList, c.isDigit = true) ∧
        Nat.ofDigitChars 10 (unsigned argument.toList) 0 = position := by
  have hread : position? argument =
      if (unsigned argument.toList).isEmpty || !(unsigned argument.toList).all Char.isDigit then none
      else some (Nat.ofDigitChars 10 (unsigned argument.toList) 0) := rfl
  rw [hread]
  simp [and_assoc]

/-- **The position that is read** from an argument is the one that it spells. -/
theorem position?_eq_some_iff {argument : String} {position : Nat} :
    position? argument = some position ↔ Spells argument position := by
  rw [position?_eq_some_iff_unsigned]
  constructor
  · rintro ⟨⟨hne, hdigits⟩, rfl⟩
    obtain ⟨zeros, hzeros⟩ := exists_zeros hne hdigits
    rw [← toList_decimal, decimal_eq_toString] at hzeros
    rcases unsigned_spec argument.toList with hplain | hsigned
    · exact ⟨[], zeros, .inl rfl, hplain.trans hzeros⟩
    · exact ⟨['+'], zeros, .inr rfl, hsigned.trans (congrArg ('+' :: ·) hzeros)⟩
  · rintro ⟨sign, zeros, hsign, hargument⟩
    rw [← decimal_eq_toString, toList_decimal] at hargument
    obtain ⟨hne, hdigits⟩ := isDigit_zeros zeros position
    have hunsigned : unsigned argument.toList =
        List.replicate zeros '0' ++ Nat.toDigits 10 position := by
      rw [hargument]
      rcases hsign with rfl | rfl
      · exact unsigned_of_isDigit hdigits
      · rfl
    rw [hunsigned]
    exact ⟨⟨hne, hdigits⟩, ofDigitChars_zeros zeros position⟩

/-! ## Names of positions -/

theorem positionName_eq (position : Nat) : positionName position = "f" ++ toString position := by
  rw [positionName, decimal_eq_toString]

theorem toList_positionName (position : Nat) :
    (positionName position).toList = 'f' :: Nat.toDigits 10 position := by
  rw [positionName, String.toList_append, toList_decimal]
  rfl

/-- The name of a position spells none. -/
theorem not_spells_positionName (position other : Nat) :
    ¬Spells (positionName position) other := by
  rintro ⟨sign, zeros, hsign, hname⟩
  rw [toList_positionName, ← decimal_eq_toString, toList_decimal] at hname
  rcases hsign with rfl | rfl
  · rw [List.nil_append] at hname
    have hdigit := (isDigit_zeros zeros other).2 'f' (by simp [← hname])
    exact absurd hdigit (by decide)
  · simp at hname

/-- The name of a position can stand for any argument in a placeholder. -/
theorem IsPlaceholder.positionName {argument specifier : String}
    (h : IsPlaceholder argument specifier) (position : Nat) :
    IsPlaceholder (positionName position) specifier := by
  have hchar : ∀ c : Char, c ≠ 'f' → c.isDigit = false →
      c ∉ (ErrorDisplay.positionName position).toList := by
    intro c hf hdigit hmem
    rw [toList_positionName, List.mem_cons] at hmem
    have hmem' := hmem.resolve_left hf
    rw [Nat.isDigit_of_mem_toDigits (by decide) (by decide) hmem'] at hdigit
    contradiction
  exact {
    colon_notMem := hchar ':' (by decide) rfl
    close_notMem := hchar '}' (by decide) rfl
    head_ne := by simp [toList_positionName]
    specifier_start := h.specifier_start
    specifier_close_notMem := h.specifier_close_notMem }

/-! ## Pieces with names in them -/

/-- What a piece **becomes** when the positions below `count` get names. Texts and specifiers stay,
and so does every argument that spells no such position. -/
inductive Piece.Becomes (count : Nat) : Piece → Piece → Prop
  /-- Text stays. -/
  | text (content : String) : Becomes count (.text content) (.text content)
  /-- A position gets its name: the letter f and the position in plain decimal. -/
  | position {argument : String} {position : Nat} (specifier : String)
    (hspells : Spells argument position) (hlt : position < count) :
    Becomes count (.placeholder argument specifier)
      (.placeholder ("f" ++ toString position) specifier)
  /-- Any other argument stays. -/
  | other {argument : String} (specifier : String)
    (hother : ∀ position < count, ¬Spells argument position) :
    Becomes count (.placeholder argument specifier) (.placeholder argument specifier)

@[simp] theorem Piece.rename_text (count : Nat) (content : String) :
    (Piece.text content).rename count = .text content := rfl

theorem Piece.rename_of_spells {count position : Nat} {argument : String} (specifier : String)
    (hspells : Spells argument position) (hlt : position < count) :
    (Piece.placeholder argument specifier).rename count =
      .placeholder (positionName position) specifier := by
  simp only [Piece.rename, position?_eq_some_iff.2 hspells, if_pos hlt]

theorem Piece.rename_of_not_spells {count : Nat} {argument : String} (specifier : String)
    (hother : ∀ position < count, ¬Spells argument position) :
    (Piece.placeholder argument specifier).rename count = .placeholder argument specifier := by
  cases hposition : position? argument with
  | none => simp only [Piece.rename, hposition]
  | some position =>
    have hle : ¬position < count := fun hlt =>
      hother position hlt (position?_eq_some_iff.1 hposition)
    simp only [Piece.rename, hposition, if_neg hle]

/-- A piece becomes what renaming makes of it. -/
theorem Piece.becomes_rename (count : Nat) (piece : Piece) :
    piece.Becomes count (piece.rename count) := by
  cases piece with
  | text content => exact .text content
  | placeholder argument specifier =>
    by_cases h : ∃ position < count, Spells argument position
    · obtain ⟨position, hlt, hspells⟩ := h
      rw [rename_of_spells specifier hspells hlt, positionName_eq]
      exact .position specifier hspells hlt
    · have hother : ∀ position < count, ¬Spells argument position :=
        fun position hlt hspells => h ⟨position, hlt, hspells⟩
      rw [rename_of_not_spells specifier hother]
      exact .other specifier hother

/-- A piece with a name in it is not renamed again. -/
theorem Piece.Becomes.rename_eq {count : Nat} {piece named : Piece}
    (h : piece.Becomes count named) : named.rename count = named := by
  cases h with
  | text => rfl
  | @position _ position specifier =>
    rw [← positionName_eq]
    exact rename_of_not_spells specifier fun other _ => not_spells_positionName position other
  | other specifier hother => exact rename_of_not_spells specifier hother

/-- A well-formed placeholder stays one, with its specifier. -/
theorem Piece.Becomes.exists_isPlaceholder {count : Nat} {argument specifier : String}
    {named : Piece} (h : (Piece.placeholder argument specifier).Becomes count named)
    (hplaceholder : IsPlaceholder argument specifier) :
    ∃ name, named = .placeholder name specifier ∧ IsPlaceholder name specifier := by
  cases h with
  | @position _ position =>
    rw [← positionName_eq]
    exact ⟨_, rfl, hplaceholder.positionName position⟩
  | other => exact ⟨_, rfl, hplaceholder⟩

/-- What stands between the braces of a placeholder stays well formed. -/
theorem exists_rename_placeholderOf {inner : List Char} (hnext : ∀ others, inner ≠ '{' :: others)
    (hclosed : '}' ∉ inner) (count : Nat) :
    ∃ name specifier, (placeholderOf inner).rename count = .placeholder name specifier ∧
      IsPlaceholder name specifier := by
  obtain ⟨name, hname, hplaceholder⟩ := ((placeholderOf inner).becomes_rename
    count).exists_isPlaceholder (isPlaceholder_placeholderOf hnext hclosed)
  exact ⟨name, _, hname, hplaceholder⟩

/-! ## Messages with names in them -/

/-- A message with names in it starts as before: a placeholder keeps its opening brace. -/
theorem Scans.head?_rename {message : List Char} {pieces : List Piece} (h : Scans message pieces)
    (count : Nat) : (spell (pieces.map (Piece.rename count))).head? = message.head? := by
  cases h with
  | plain => simp [spell, Piece.spelling]
  | doubled => simp [spell, Piece.spelling]
  | stray => simp [spell, Piece.spelling]
  | unclosed => simp [spell, Piece.spelling]
  | placeholder _ hnext hclosed _ =>
    obtain ⟨name, specifier, hname, -⟩ := exists_rename_placeholderOf hnext hclosed count
    simp [hname, spell, Piece.spelling]

/-- **A message with names in it is cut in the same places.** -/
theorem Scans.rename {message : List Char} {pieces : List Piece} (h : Scans message pieces)
    (count : Nat) :
    Scans (spell (pieces.map (Piece.rename count))) (pieces.map (Piece.rename count)) := by
  induction h with
  | plain hbefore => simpa [spell, Piece.spelling] using Scans.plain hbefore
  | doubled hbefore hbrace _ ih =>
    simpa [spell, Piece.spelling] using Scans.doubled hbefore hbrace ih
  | @stray before rest pieces hbefore hnext hrest ih =>
    -- The stray brace could only be doubled by what follows it, which starts as before.
    have hnext' : ∀ others, spell (pieces.map (Piece.rename count)) ≠ '}' :: others := by
      intro others hothers
      have hhead := hrest.head?_rename count
      rw [hothers] at hhead
      obtain ⟨tail, rfl⟩ := List.head?_eq_some_iff.1 hhead.symm
      exact hnext tail rfl
    simpa [spell, Piece.spelling] using Scans.stray hbefore hnext' ih
  | unclosed hbefore hnext hopen =>
    simpa [spell, Piece.spelling] using Scans.unclosed hbefore hnext hopen
  | placeholder hbefore hnext hclosed _ ih =>
    obtain ⟨name, specifier, hname, hplaceholder⟩ :=
      exists_rename_placeholderOf hnext hclosed count
    have hscans := Scans.placeholder_append hbefore hplaceholder ih
    simpa [hname, spell, Piece.spelling] using hscans

/-- The pieces of a message with names in it are those of the message with the names in them. -/
theorem scan_renamePositional (count : Nat) (message : String) :
    scan (renamePositional count message).toList =
      (scan message.toList).map (Piece.rename count) := by
  rw [renamePositional, String.toList_ofList]
  exact ((scans_scan message.toList).rename count).scan_eq

/-- **Naming the positions of a message changes nothing else.** Whatever the message, the message
with names is cut into as many pieces in the same order: each piece is what the piece in its place
becomes. Naming the positions again changes nothing. -/
theorem renamePositional_keeps_pieces (count : Nat) (message : String) :
    List.Forall₂ (Piece.Becomes count) (scan message.toList)
      (scan (renamePositional count message).toList) ∧
    renamePositional count (renamePositional count message) = renamePositional count message := by
  constructor
  · rw [scan_renamePositional, List.forall₂_map_right_iff]
    exact List.forall₂_same.2 fun piece _ => piece.becomes_rename count
  · have hrename : Piece.rename count ∘ Piece.rename count = Piece.rename count :=
      funext fun piece => (piece.becomes_rename count).rename_eq
    rw [renamePositional, scan_renamePositional, List.map_map, hrename, renamePositional]

end CallScript.ErrorDisplay
