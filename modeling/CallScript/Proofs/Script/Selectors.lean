import CallScript.Proofs.Script.Isolation
import CallScript.Proofs.Script.Positions

/-! # Selectors and written signatures

A signature is taken apart when it is read, and its parts are hashed one after the other. What is
hashed is the signature as it stands on the line, character for character.

* **`Signature.text_of_parse?`**: the parts of a signature make up the token again.
* **`Draft.addLine_hashes_signature`**: the selector of a call is taken from the digest of the
  signature as it is written. -/

namespace CallScript.Script

open Text

namespace Signature

/-- A signature is written as the token from which it was read, if there is no blank in the token. -/
theorem text_of_parse? {token : String} {signature : Signature}
    (hplain : ∀ c ∈ token.toList, isBlank c = false) (h : parse? token = some signature) :
    signature.text = token.toList := by
  obtain ⟨name, list, htoken, -, -, rfl⟩ := parse?_eq_some_iff.1 h
  have hlist : ∀ c ∈ list, isBlank c = false := by
    intro c hmem
    exact hplain c (by simp [htoken, hmem])
  -- Without blanks, nothing is trimmed from the tags, and joining them undoes the split.
  rw [splitParams_eq hlist, text_tagTexts, htoken]

/-- The text of a signature as a string. -/
theorem toList_spelling (signature : Signature) :
    (signature.name ++ "(" ++ ",".intercalate signature.params ++ ")").toList = signature.text := by
  simp [text, String.toList_intercalate]

end Signature

namespace Draft

/-- An instruction that is compiled adds its call to the records. -/
theorem records_of_addLine {draft next : Draft} {number : Nat} {raw : String}
    {instruction : Instruction} (hparse : Line.parse raw = .ok (.instruction instruction))
    (h : draft.addLine number raw = (.ok (), next)) :
    ∃ words, next.records.toList = draft.records.toList ++
      [.call instruction.target instruction.signature.selector words] := by
  obtain ⟨emitted, hemission, rfl⟩ := addLine_eq_ok_iff.1 h
  rw [records_emit]
  rcases emission_eq_ok_iff.1 hemission with ⟨hblank, -⟩ | ⟨hcomment, -⟩ |
    ⟨other, record, hother, hrecord, rfl⟩
  · simp [hparse] at hblank
  · simp [hparse] at hcomment
  · obtain rfl : instruction = other := by simpa [hparse] using hother
    obtain ⟨words, -, rfl, -⟩ := Instruction.record_eq_ok_iff.1 hrecord
    exact ⟨words, rfl⟩

/-- **A selector is the hash of the signature as it is written.** When an instruction line is
compiled, a call is added to the records, and its selector is the first four bytes of the Keccak-256
digest of the signature in UTF-8, as the signature stands on the line. For a token without blanks
that is read as a signature, the name, the parentheses and the tags with commas between them make up
the token, and the selector is taken from the digest of the token. -/
theorem addLine_hashes_signature :
    (∀ (draft next : Draft) (number : Nat) (raw : String) (instruction : Instruction),
      Line.parse raw = .ok (.instruction instruction) → draft.addLine number raw = (.ok (), next) →
        ∃ (layout : Layout) (selector : Selector) (words : List Word),
          layout.text = raw.toList ∧
          StandsAt raw.toList instruction.signatureColumn layout.written.signature ∧
          next.records.toList =
            draft.records.toList ++ [.call instruction.target selector words] ∧
          selector.bytes.toList =
            (Keccak.digest (utf8 layout.written.signature)).toList.take 4) ∧
    ∀ (token : String) (signature : Signature), (∀ c ∈ token.toList, isBlank c = false) →
      Signature.parse? token = some signature →
        signature.name ++ "(" ++ ",".intercalate signature.params ++ ")" = token ∧
        signature.selector.bytes.toList = (Keccak.digest (utf8 token.toList)).toList.take 4 := by
  constructor
  · intro draft next number raw instruction hparse h
    obtain ⟨layout, htext, hreads⟩ := Line.exists_layout_of_parse hparse
    obtain ⟨words, hrecords⟩ := records_of_addLine hparse h
    have hstands := layout.standsAt_signature
    rw [htext, ← hreads.signatureColumn] at hstands
    refine ⟨layout, instruction.signature.selector, words, htext, hstands, hrecords, ?_⟩
    rw [hreads.selector_eq, Selector.bytes_hash]
  · intro token signature hplain h
    have htext := Signature.text_of_parse? hplain h
    refine ⟨?_, ?_⟩
    · rw [← String.toList_inj, Signature.toList_spelling, htext]
    · rw [Signature.selector_eq, htext, Selector.bytes_hash]

/-- A line whose signature has a tag that is not ASCII and an empty one. -/
def oddLine : String :=
  "0xAb00000000000000000000000000000000000001  f(é,) $ $"

/-- The instruction on the odd line. -/
def oddInstruction : Instruction where
  explicitLabel := none
  target := ⟨⟨0xAB :: (List.replicate 18 0x00 ++ [0x01]), rfl⟩⟩
  signature := ⟨"f", ["é", ""]⟩
  signatureColumn := 45
  arguments := [⟨"$", 52⟩, ⟨"$", 54⟩]

/-- The call on the odd line is hashed as it is written, with the comma at the end of its list. -/
theorem oddLine_hashes_signature :
    (∃ (next : Draft) (layout : Layout) (selector : Selector) (words : List Word),
      Line.parse oddLine = .ok (.instruction oddInstruction) ∧
      empty.addLine 1 oddLine = (.ok (), next) ∧
      layout.text = oddLine.toList ∧
      StandsAt oddLine.toList 45 layout.written.signature ∧
      next.records.toList = [.call oddInstruction.target selector words] ∧
      selector.bytes.toList = (Keccak.digest (utf8 layout.written.signature)).toList.take 4) ∧
    Signature.parse? "f(é,)" = some ⟨"f", ["é", ""]⟩ ∧
    "f" ++ "(" ++ ",".intercalate ["é", ""] ++ ")" = "f(é,)" := by
  have hparse : Line.parse oddLine = .ok (.instruction oddInstruction) := by decide +kernel
  have hok : (empty.addLine 1 oddLine).1 = .ok () := by decide +kernel
  obtain ⟨next, hnext⟩ : ∃ next, empty.addLine 1 oddLine = (.ok (), next) :=
    ⟨_, Prod.ext hok rfl⟩
  obtain ⟨layout, selector, words, hlayout⟩ :=
    addLine_hashes_signature.1 empty next 1 oddLine oddInstruction hparse hnext
  have hword : IsWord "f(é,)".toList := by decide +kernel
  have hsignature : Signature.parse? "f(é,)" = some ⟨"f", ["é", ""]⟩ := by decide +kernel
  exact ⟨⟨next, layout, selector, words, hparse, hnext, hlayout⟩, hsignature,
    (addLine_hashes_signature.2 "f(é,)" _ hword.2 hsignature).1⟩

end Draft

end CallScript.Script
