import CallScript.Proofs.Literals

/-! # Printed bytes and addresses, read back

Printing fixes one way to write bytes and addresses, and reading accepts that way and the ways that
differ from it in the case of letters.

* **`Hex.decodeBlock?_eq_some_iff_toLower`**: a text is read as the bytes that are printed as the
  text in lowercase.
* **`Address.parse?_eq_some_iff`**: so is an address, after its marker.
* **`Address.parseLenient?_eq_or`**: where the marker may be left out, a text is read as it stands
  or else with the marker in front of it.
* **`Address.parse_text_inverse`** puts these together. -/

namespace CallScript

namespace Hex

/-- A character that is a digit in lowercase is a digit. -/
theorem isHexDigit_of_toLower {c : Char} (h : c.toLower.isHexDigit = true) :
    c.isHexDigit = true := by
  by_cases hupper : 'A' ≤ c ∧ c ≤ 'Z'
  · -- The capital letters are few enough to go through all of them.
    obtain ⟨n, hfirst, hlast, rfl⟩ := exists_ofNat_of_between hupper
    change 65 ≤ n at hfirst
    change n ≤ 90 at hlast
    interval_cases n <;> revert h <;> decide
  · have hsame : c.toLower = c := dif_neg hupper
    rwa [hsame] at h

/-- Bytes are printed in hexadecimal digits. -/
theorem isHexDigit_of_mem_digits {bytes : Bytes} {c : Char} (h : c ∈ digits bytes) :
    c.isHexDigit = true :=
  isHexDigit_of_decode? (decode?_digits bytes) c h

/-- A text in lowercase, character by character. -/
theorem toLower_eq_ofList (text : String) :
    text.toLower = String.ofList (text.toList.map Char.toLower) := by
  change text.map Char.toLower = _
  rw [← String.toList_map, String.ofList_toList]

/-- A text that is printed bytes but for the case of its letters is hexadecimal digits, two for
every byte. -/
theorem digits_of_encode_eq_toLower {n : Nat} {block : Block n} {text : String}
    (h : encode block.toList = text.toLower) :
    text.length = 2 * n ∧ ∀ c ∈ text.toList, c.isHexDigit = true := by
  have hlist : digits block.toList = text.toList.map Char.toLower := by
    rw [encode, toLower_eq_ofList] at h
    exact String.ofList_injective h
  constructor
  · have hlength := congrArg List.length hlist
    rw [length_digits, block.length_toList, List.length_map, String.length_toList] at hlength
    exact hlength.symm
  · intro c hmem
    apply isHexDigit_of_toLower
    apply isHexDigit_of_mem_digits
    rw [hlist]
    exact List.mem_map_of_mem hmem

/-- **A text is read as the bytes that are printed as the text in lowercase.** -/
theorem decodeBlock?_eq_some_iff_toLower {n : Nat} {block : Block n} {text : String} :
    decodeBlock? n text = some block ↔ encode block.toList = text.toLower := by
  rw [decodeBlock?_eq_some_iff]
  constructor
  · intro h
    rw [encode, digits_of_decode? h, toLower_eq_ofList]
  · intro h
    obtain ⟨hlength, hdigits⟩ := digits_of_encode_eq_toLower h
    have heven : text.toList.length % 2 = 0 := by
      rw [String.length_toList]
      omega
    obtain ⟨bytes, hbytes⟩ := exists_decode? hdigits heven
    -- What is read is printed as the same text, so that it is the same bytes.
    have hprinted : encode bytes = encode block.toList := by
      rw [h, encode, digits_of_decode? hbytes, toLower_eq_ofList]
    rw [hbytes, digits_injective (String.ofList_injective hprinted)]

end Hex

namespace Address

/-- A text with the marker in front, character by character. -/
theorem toList_marker_append (text : String) : ("0x" ++ text).toList = '0' :: 'x' :: text.toList :=
  String.toList_append

/-- The digits of an address are read as those of its bytes. -/
theorem ofDigits?_eq_some_iff {digits : String} {address : Address} :
    ofDigits? digits.toList = some address ↔ Hex.decodeBlock? 20 digits = some address.bytes := by
  simp only [ofDigits?, Hex.decodeBlock?_eq_some_iff, Option.bind_eq_bind, Option.bind_eq_some_iff,
    Block.ofBytes?_eq_some_iff, Option.pure_def, Option.some.injEq]
  constructor
  · rintro ⟨bytes, hbytes, block, rfl, rfl⟩
    exact hbytes
  · intro h
    exact ⟨_, h, _, rfl, rfl⟩

/-- After the marker, an address is read from its digits. -/
theorem parse?_marker_append (digits : String) :
    parse? ("0x" ++ digits) = ofDigits? digits.toList := by
  rw [parse?, Hex.afterMarker?_eq_some_iff.2 (toList_marker_append digits)]
  rfl

/-- Without the marker, no address is read. -/
theorem parse?_of_not_marker {token : String} (h : Hex.afterMarker? token.toList = none) :
    parse? token = none := by
  rw [parse?, h]
  rfl

/-- A text that starts with the marker is the marker and what follows it. -/
theorem eq_marker_append {token : String} {rest : List Char}
    (h : Hex.afterMarker? token.toList = some rest) : token = "0x" ++ String.ofList rest := by
  apply String.toList_injective
  rw [Hex.afterMarker?_eq_some_iff.1 h, toList_marker_append, String.toList_ofList]

/-- **An address is read from what it is printed as**, in any case of the letters after the
marker. -/
theorem parse?_eq_some_iff {token : String} {address : Address} :
    parse? token = some address ↔
      ∃ rest : String, token = "0x" ++ rest ∧ address.text = "0x" ++ rest.toLower := by
  have hdigits : ∀ rest : String, ofDigits? rest.toList = some address ↔
      address.text = "0x" ++ rest.toLower := by
    intro rest
    rw [ofDigits?_eq_some_iff, text, String.append_right_inj, Hex.decodeBlock?_eq_some_iff_toLower]
  constructor
  · intro h
    cases hmarker : Hex.afterMarker? token.toList with
    | none =>
      rw [parse?_of_not_marker hmarker] at h
      contradiction
    | some rest =>
      have htoken := eq_marker_append hmarker
      rw [htoken, parse?_marker_append] at h
      exact ⟨_, htoken, (hdigits _).1 h⟩
  · rintro ⟨rest, rfl, htext⟩
    rw [parse?_marker_append]
    exact (hdigits rest).2 htext

/-- **Where the marker may be left out**, a text is read as an address that has it, or else as one
that lacks it. -/
theorem parseLenient?_eq_or (token : String) :
    parseLenient? token = (parse? token).or (parse? ("0x" ++ token)) := by
  cases hmarker : Hex.afterMarker? token.toList with
  | none =>
    rw [parse?_of_not_marker hmarker, Option.none_or, parse?_marker_append, parseLenient?,
      Hex.dropMarker, hmarker]
    rfl
  | some rest =>
    -- A second marker in front does not help: the letter of the first is no digit.
    have hsecond : parse? ("0x" ++ token) = none := by
      rw [parse?_marker_append, Hex.afterMarker?_eq_some_iff.1 hmarker]
      exact Option.eq_none_iff_forall_ne_some.2 fun address haddress =>
        absurd ((digits_of_ofDigits? haddress).2.1 'x' (by simp)) (by decide)
    rw [hsecond, Option.or_none, parse?, parseLenient?, Hex.dropMarker, hmarker]
    rfl

/-- **Reading undoes printing, and printing undoes reading up to the case of letters.** Printed
bytes are read back. A text is read as `n` bytes exactly when it is `2 * n` hexadecimal digits and
the bytes are printed as the text in lowercase. Where the marker of an address may be left out, a
text is read as it stands or else with the marker in front of it. An address is read from a text
exactly when the text starts with the marker and the address is printed as the marker and the rest
in lowercase. -/
theorem parse_text_inverse :
    (∀ (n : Nat) (block : Block n), Hex.decodeBlock? n (Hex.encode block.toList) = some block) ∧
    (∀ (n : Nat) (block : Block n) (text : String), Hex.decodeBlock? n text = some block ↔
      text.length = 2 * n ∧ (∀ c ∈ text.toList, c.isHexDigit = true) ∧
        Hex.encode block.toList = text.toLower) ∧
    (∀ token : String, parseLenient? token = (parse? token).or (parse? ("0x" ++ token))) ∧
    (∀ (token : String) (address : Address), parse? token = some address ↔
      ∃ rest : String, token = "0x" ++ rest ∧ address.text = "0x" ++ rest.toLower) := by
  refine ⟨?_, ?_, parseLenient?_eq_or, fun _ _ => parse?_eq_some_iff⟩
  · intro n block
    rw [Hex.decodeBlock?_eq_some_iff, Hex.encode, String.toList_ofList, Hex.decode?_digits]
  · intro n block text
    rw [Hex.decodeBlock?_eq_some_iff_toLower]
    constructor
    · intro h
      obtain ⟨hlength, hdigits⟩ := Hex.digits_of_encode_eq_toLower h
      exact ⟨hlength, hdigits, h⟩
    · rintro ⟨-, -, h⟩
      exact h

end Address

end CallScript
