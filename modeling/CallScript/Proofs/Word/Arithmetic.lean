import CallScript.Proofs.Bytes.BigEndian
import CallScript.Word

/-! # Multiplying and adding in a word

A word is multiplied by a small factor from its last byte to its first, in 32-bit arithmetic. No
column of the multiplication overflows, and the word and the carry that come out are the two parts of
the exact result.

* **`Word.toNat_column`**: one column is computed exactly.
* **`Word.value_mulAddBytes`**: so are all columns up to any byte, with the carry out of them.
* **`Word.mulAdd_exact`**: what is left in a word, and when the result is too large for one. -/

namespace CallScript.Word

/-! ## Columns -/

/-- One column of the multiplication does not overflow: a byte times the factor plus a carry below
the factor is below 256 times the factor. -/
theorem toNat_column {factor carry : UInt32} (hfactor : factor.toNat ≤ 16)
    (hcarry : carry.toNat < factor.toNat) (byte : UInt8) :
    (byte.toUInt32 * factor + carry).toNat = byte.toNat * factor.toNat + carry.toNat ∧
      byte.toNat * factor.toNat + carry.toNat < 256 * factor.toNat := by
  have hbyte : byte.toNat ≤ 255 := by
    have := byte.toNat_lt
    omega
  have hproduct : byte.toNat * factor.toNat ≤ 255 * factor.toNat := Nat.mul_le_mul_right _ hbyte
  have hlt : byte.toNat * factor.toNat + carry.toNat < 256 * factor.toNat := by omega
  refine ⟨?_, hlt⟩
  rw [UInt32.toNat_add, UInt32.toNat_mul, UInt8.toNat_toUInt32]
  omega

/-- The first byte is multiplied last, with the carry out of the others. -/
theorem mulAddBytes_cons (factor addend : UInt32) (byte : UInt8) (bytes : Bytes) :
    mulAddBytes factor addend (byte :: bytes) =
      ((byte.toUInt32 * factor + (mulAddBytes factor addend bytes).2).toUInt8 ::
          (mulAddBytes factor addend bytes).1,
        (byte.toUInt32 * factor + (mulAddBytes factor addend bytes).2) >>> 8) := rfl

/-- **Multiplying and adding is exact.** The bytes and the carry that come out stand for the product
plus the addend, and the carry is below the factor. -/
theorem value_mulAddBytes {factor addend : UInt32} (hfactor : factor.toNat ≤ 16)
    (haddend : addend.toNat < factor.toNat) (bytes : Bytes) :
    (mulAddBytes factor addend bytes).2.toNat < factor.toNat ∧
      (mulAddBytes factor addend bytes).2.toNat * 256 ^ bytes.length +
          Bytes.value (mulAddBytes factor addend bytes).1 =
        Bytes.value bytes * factor.toNat + addend.toNat := by
  induction bytes with
  | nil => exact ⟨haddend, by simp [mulAddBytes]⟩
  | cons byte bytes ih =>
    obtain ⟨hcarry, hvalue⟩ := ih
    obtain ⟨hcolumn, hlt⟩ := toNat_column hfactor hcarry byte
    have hlength := length_mulAddBytes factor addend bytes
    -- The carry that comes into this column is the one out of the bytes after it.
    rw [mulAddBytes_cons]
    generalize (mulAddBytes factor addend bytes).1 = low at hvalue hlength ⊢
    generalize (mulAddBytes factor addend bytes).2 = carry at hcarry hvalue hcolumn hlt ⊢
    generalize byte.toUInt32 * factor + carry = column at hcolumn ⊢
    have hbyte : column.toUInt8.toNat = column.toNat % 256 := UInt32.toNat_toUInt8 column
    have hshift : (column >>> 8).toNat = column.toNat / 256 := by
      rw [UInt32.toNat_shiftRight, Nat.shiftRight_eq_div_pow]
      rfl
    refine ⟨?_, ?_⟩
    · show (column >>> 8).toNat < factor.toNat
      rw [hshift]
      omega
    · show (column >>> 8).toNat * 256 ^ (byte :: bytes).length +
        Bytes.value (column.toUInt8 :: low) = _
      rw [hshift, Bytes.value_cons, hbyte, hlength, List.length_cons, Bytes.value_cons]
      calc column.toNat / 256 * 256 ^ (bytes.length + 1) +
            (column.toNat % 256 * 256 ^ bytes.length + Bytes.value low)
          = (256 * (column.toNat / 256) + column.toNat % 256) * 256 ^ bytes.length +
              Bytes.value low := by ring
        _ = byte.toNat * factor.toNat * 256 ^ bytes.length +
              (carry.toNat * 256 ^ bytes.length + Bytes.value low) := by
            rw [Nat.div_add_mod, hcolumn]
            ring
        _ = (byte.toNat * 256 ^ bytes.length + Bytes.value bytes) * factor.toNat +
              addend.toNat := by
            rw [hvalue]
            ring

/-- Every column fits in 32 bits with room to spare, whichever bytes come after it. -/
theorem column_lt {factor addend : UInt32} (hfactor : factor.toNat ≤ 16)
    (haddend : addend.toNat < factor.toNat) (byte : UInt8) (rest : Bytes) :
    byte.toNat * factor.toNat + (mulAddBytes factor addend rest).2.toNat < 2 ^ 12 := by
  obtain ⟨hcarry, -⟩ := value_mulAddBytes hfactor haddend rest
  obtain ⟨-, hlt⟩ := toNat_column hfactor hcarry byte
  omega

/-! ## Whole words -/

/-- The value of a word has at most 256 bits. -/
theorem toNat_lt (word : Word) : word.toNat < 2 ^ 256 := by
  have hvalue := Bytes.value_lt word.bytes.toList
  rw [word.bytes.length_toList] at hvalue
  exact Nat.lt_of_lt_of_le hvalue (by decide)

/-- The carry out of a word is the quotient of the exact result by `2 ^ 256`, and the word that is
left is the remainder. -/
theorem toNat_mulAdd {factor addend : UInt32} (hfactor : factor.toNat ≤ 16)
    (haddend : addend.toNat < factor.toNat) (word : Word) :
    (mulAdd factor addend word).2.toNat =
        (word.toNat * factor.toNat + addend.toNat) / 2 ^ 256 ∧
      (mulAdd factor addend word).1.toNat =
        (word.toNat * factor.toNat + addend.toNat) % 2 ^ 256 := by
  obtain ⟨-, hvalue⟩ := value_mulAddBytes hfactor haddend word.bytes.toList
  have hplace : 256 ^ word.bytes.toList.length = 2 ^ 256 := by
    rw [word.bytes.length_toList]
    rfl
  -- Word and carry make up the exact result, and the word is below `2 ^ 256`: they are its parts.
  have hparts : (mulAdd factor addend word).1.toNat +
      2 ^ 256 * (mulAdd factor addend word).2.toNat =
        word.toNat * factor.toNat + addend.toNat := by
    rw [hplace] at hvalue
    rw [Nat.add_comm, Nat.mul_comm]
    exact hvalue
  have hunique := (Nat.div_mod_unique (by decide : 0 < 2 ^ 256)).2
    ⟨hparts, toNat_lt (mulAdd factor addend word).1⟩
  exact ⟨hunique.1.symm, hunique.2.symm⟩

/-- The result fits in a word exactly when nothing is carried out. -/
theorem mulAdd?_eq_some_iff {factor addend : UInt32} {word result : Word} :
    mulAdd? factor addend word = some result ↔
      (mulAdd factor addend word).2 = 0 ∧ (mulAdd factor addend word).1 = result := by
  simp [mulAdd?]

/-- The result is too large for a word exactly when something is carried out. -/
theorem mulAdd?_eq_none_iff {factor addend : UInt32} {word : Word} :
    mulAdd? factor addend word = none ↔ (mulAdd factor addend word).2 ≠ 0 := by
  simp [mulAdd?]

/-- Nothing is carried out exactly when the product plus the addend has at most 256 bits. -/
theorem carry_eq_zero_iff {factor addend : UInt32} (hfactor : factor.toNat ≤ 16)
    (haddend : addend.toNat < factor.toNat) (word : Word) :
    (mulAdd factor addend word).2 = 0 ↔
      word.toNat * factor.toNat + addend.toNat < 2 ^ 256 := by
  obtain ⟨hcarry, -⟩ := toNat_mulAdd hfactor haddend word
  rw [← UInt32.toNat_inj, hcarry]
  exact Nat.div_eq_zero_iff_lt (by decide)

/-- If nothing is carried out, the word that comes out has the value of the product plus the addend.
-/
theorem toNat_of_mulAdd? {factor addend : UInt32} (hfactor : factor.toNat ≤ 16)
    (haddend : addend.toNat < factor.toNat) {word result : Word}
    (h : mulAdd? factor addend word = some result) :
    result.toNat = word.toNat * factor.toNat + addend.toNat := by
  obtain ⟨hcarry, rfl⟩ := mulAdd?_eq_some_iff.1 h
  have hlt := (carry_eq_zero_iff hfactor haddend word).1 hcarry
  rw [(toNat_mulAdd hfactor haddend word).2, Nat.mod_eq_of_lt hlt]

/-- If anything is carried out, the product plus the addend does not fit in a word. -/
theorem le_of_mulAdd?_eq_none {factor addend : UInt32} (hfactor : factor.toNat ≤ 16)
    (haddend : addend.toNat < factor.toNat) {word : Word} (h : mulAdd? factor addend word = none) :
    2 ^ 256 ≤ word.toNat * factor.toNat + addend.toNat := by
  have hcarry := mulAdd?_eq_none_iff.1 h
  rw [Ne, carry_eq_zero_iff hfactor haddend] at hcarry
  exact Nat.le_of_not_lt hcarry

/-- **A word is multiplied exactly, in 32-bit arithmetic.** Let the factor be at most 16 and the
addend below the factor. Whichever byte is reached, its product with the factor and the carry out of
the bytes after it add up to a number of at most 32 bits. The word that is left has the value of the
exact result modulo `2 ^ 256`. The result is refused exactly when it is `2 ^ 256` or more, and
otherwise it is the word that is left. -/
theorem mulAdd_exact {factor addend : UInt32} (hfactor : factor ≤ 16) (haddend : addend < factor)
    (word : Word) :
    (∀ front byte rest, word.bytes.toList = front ++ byte :: rest →
      byte.toNat * factor.toNat + (mulAddBytes factor addend rest).2.toNat < 2 ^ 32) ∧
    (mulAdd factor addend word).1.toNat =
      (word.toNat * factor.toNat + addend.toNat) % 2 ^ 256 ∧
    (mulAdd? factor addend word = none ↔
      2 ^ 256 ≤ word.toNat * factor.toNat + addend.toNat) ∧
    (mulAdd? factor addend word = some (mulAdd factor addend word).1 ↔
      word.toNat * factor.toNat + addend.toNat < 2 ^ 256) := by
  have hfactor' : factor.toNat ≤ 16 := UInt32.le_iff_toNat_le.1 hfactor
  have haddend' : addend.toNat < factor.toNat := UInt32.lt_iff_toNat_lt.1 haddend
  have hfits := carry_eq_zero_iff hfactor' haddend' word
  refine ⟨?_, (toNat_mulAdd hfactor' haddend' word).2, ?_, ?_⟩
  · intro front byte rest _
    exact (column_lt hfactor' haddend' byte rest).trans (by decide)
  · rw [mulAdd?_eq_none_iff, Ne, hfits, Nat.not_lt]
  · rw [mulAdd?_eq_some_iff, hfits, and_iff_left rfl]

/-- Sixteen times the greatest word, plus 15: every byte is reached with the greatest carry, and all
the bits of the word that is left are set. -/
theorem mulAdd_placeholder :
    (16 : UInt32) ≤ 16 ∧ (15 : UInt32) < 16 ∧
      (0xFF : UInt8).toNat * 16 + (mulAddBytes 16 15 (List.replicate 31 0xFF)).2.toNat < 2 ^ 32 ∧
      (mulAdd 16 15 placeholder).1.toNat = 2 ^ 256 - 1 ∧
      mulAdd? 16 15 placeholder = none := by
  have hvalue : placeholder.toNat = 2 ^ 256 - 1 := by decide +kernel
  obtain ⟨hcolumns, hleft, hrefused, -⟩ :=
    mulAdd_exact (by decide : (16 : UInt32) ≤ 16) (by decide : (15 : UInt32) < 16) placeholder
  rw [hvalue] at hleft hrefused
  exact ⟨by decide, by decide, hcolumns [] 0xFF (List.replicate 31 0xFF) rfl,
    hleft.trans (by decide +kernel), hrefused.2 (by decide)⟩

end CallScript.Word
