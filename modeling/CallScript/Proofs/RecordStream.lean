import CallScript.Proofs.Bytes.Decoding
import CallScript.Record

/-! # Streams of records

Records have no framing, yet a stream of them can be read in one way only: the first byte of a
record and the length of its payload say where it ends.

* **`Record.inverts_decode`**: reading one record undoes writing one that fits, whatever follows it.
* **`Record.length_encode`**: a record is written in as many bytes as are counted for it.
* **`disassemble_eq_ok_iff`**: a stream is read as the given records exactly when it is their
  encoding and all of them fit. -/

namespace CallScript

/-- A byte stands for the opcode that is written as this byte, and for no other. -/
theorem Opcode.ofByte_eq_ok_iff {byte : UInt8} {opcode : Opcode} :
    Opcode.ofByte byte = .ok opcode ↔ byte = opcode.toByte := by
  unfold Opcode.ofByte
  by_cases hcall : byte = 0x01
  · subst hcall
    cases opcode <;> simp [Opcode.toByte]
  · by_cases hpad : byte = 0xFF
    · subst hpad
      cases opcode <;> simp [Opcode.toByte]
    · cases opcode <;> simp [Opcode.toByte, hcall, hpad]

/-- Reading an opcode inverts the byte that stands for it. -/
theorem Opcode.inverts_decode :
    Opcode.decode.Inverts (fun _ => True) (fun opcode => [opcode.toByte]) := by
  intro input opcode rest
  cases input with
  | nil => simp [Opcode.decode]
  | cons byte input => simp [Opcode.decode, Opcode.ofByte_eq_ok_iff]

namespace Record

/-! ## One record -/

/-- The bytes of argument words in a row. -/
theorem length_flatMap_words (words : List Word) :
    (words.flatMap fun word => word.bytes.toList).length = 32 * words.length := by
  induction words with
  | nil => rfl
  | cons word words ih =>
    rw [List.flatMap_cons, List.length_append, word.bytes.length_toList, ih, List.length_cons]
    ring

/-- A record is written in as many bytes as are counted for it. -/
@[simp] theorem length_encode (record : Record) : record.encode.length = record.size := by
  cases record with
  | pad => rfl
  | call target selector words =>
    simp only [encode, List.length_cons, List.length_append, Block.length_toList,
      Bytes.length_bigEndian, length_flatMap_words, size, payloadLength]
    omega

/-- Reading a word inverts the listing of its bytes. -/
theorem inverts_word :
    (Word.mk <$> Decoder.block 32).Inverts (fun _ => True) (fun word => word.bytes.toList) :=
  (Decoder.inverts_block 32).map (fun _ => rfl) (fun _ => rfl)

/-- Reading a payload of a given length inverts the bytes of a selector and of as many words as that
length has room for. -/
theorem inverts_decodePayload (length : Nat) :
    (decodePayload length).Inverts (fun (_, words) => length = payloadLength words)
      (fun (selector, words) =>
        selector.bytes.toList ++ words.flatMap fun word => word.bytes.toList) := by
  rintro input ⟨selector, words⟩ rest
  unfold decodePayload payloadLength
  -- The two refused kinds of length are those that a selector and whole words never have.
  split
  · next hshort =>
    simp only [Decoder.fail, Prod.mk.injEq, reduceCtorEq, false_and, false_iff]
    omega
  split
  · next hragged =>
    simp only [Decoder.fail, Prod.mk.injEq, reduceCtorEq, false_and, false_iff]
    omega
  simp only [Decoder.bind_eq_ok_iff, Decoder.pure_eq_ok_iff]
  constructor
  · rintro ⟨bytes, middle, hselector, words', middle', hwords, hpair, rfl⟩
    obtain ⟨rfl, rfl⟩ := Prod.mk.inj hpair
    obtain ⟨-, rfl⟩ := (Decoder.inverts_block 4 _ _ _).1 hselector
    obtain ⟨hcount, rfl⟩ := (inverts_word.repeated _ _ _ _).1 hwords
    exact ⟨by omega, by rw [List.append_assoc]⟩
  · rintro ⟨hlength, rfl⟩
    refine ⟨selector.bytes, _, (Decoder.inverts_block 4 _ _ _).2 ⟨trivial, List.append_assoc ..⟩,
      words, rest, (inverts_word.repeated _ _ _ _).2 ⟨?_, rfl⟩, rfl, rfl⟩
    omega

/-- What follows the opcode of a call is its target, the length of its payload and the payload. The
payload is taken whole before it is read, and its own fields use it up. -/
theorem decodeBody_call_eq_ok_iff {input rest : Bytes} {record : Record} :
    decodeBody .call input = (.ok record, rest) ↔
      ∃ target selector words, record = .call target selector words ∧
        payloadLength words < 256 ^ 4 ∧
        input = target.bytes.toList ++ Bytes.bigEndian 4 (payloadLength words) ++
          selector.bytes.toList ++ (words.flatMap fun word => word.bytes.toList) ++ rest := by
  simp only [decodeBody, Decoder.bind_eq_ok_iff, Decoder.within_eq_ok_iff, Decoder.pure_eq_ok_iff]
  constructor
  · rintro ⟨target, _, htarget, length, _, hlength, payload, _, hpayload, ⟨selector, words⟩, _,
      ⟨⟨left, hfields⟩, rfl⟩, rfl, rfl⟩
    obtain ⟨-, rfl⟩ := (Decoder.inverts_block 20 _ _ _).1 htarget
    obtain ⟨hlt, rfl⟩ := (Decoder.inverts_length _ _ _).1 hlength
    obtain ⟨hsize, rfl⟩ := (Decoder.inverts_take _ _ _ _).1 hpayload
    obtain ⟨rfl, rfl⟩ := (inverts_decodePayload _ _ _ _).1 hfields
    -- The payload has as many bytes as its fields, so nothing of it is left.
    have hleft : left = [] := by
      simp only [List.length_append, Block.length_toList, length_flatMap_words,
        payloadLength] at hsize
      exact List.length_eq_zero_iff.1 (by omega)
    subst hleft
    exact ⟨⟨target⟩, selector, words, rfl, hlt, by simp⟩
  · rintro ⟨target, selector, words, rfl, hlt, rfl⟩
    -- Each field is followed by the fields after it and by `rest`.
    refine ⟨target.bytes, _, (Decoder.inverts_block 20 _ _ _).2 ⟨trivial, ?_⟩,
      payloadLength words, _, (Decoder.inverts_length _ _ _).2 ⟨hlt, rfl⟩,
      selector.bytes.toList ++ words.flatMap fun word => word.bytes.toList, rest,
      (Decoder.inverts_take _ _ _ _).2 ⟨?_, rfl⟩, (selector, words), rest,
      ⟨⟨[], (inverts_decodePayload _ _ _ _).2 ⟨rfl, by simp⟩⟩, rfl⟩, rfl, rfl⟩
    · simp
    · simp only [List.length_append, Block.length_toList, length_flatMap_words, payloadLength]

/-- Reading a record inverts writing one that fits. -/
theorem inverts_decode : decode.Inverts Fits encode := by
  intro input record rest
  unfold decode
  rw [Decoder.bind_eq_ok_iff]
  constructor
  · rintro ⟨opcode, middle, hopcode, hbody⟩
    obtain ⟨-, rfl⟩ := (Opcode.inverts_decode _ _ _).1 hopcode
    cases opcode with
    | pad =>
      obtain ⟨rfl, rfl⟩ := Decoder.pure_eq_ok_iff.1 hbody
      exact ⟨trivial, rfl⟩
    | call =>
      obtain ⟨target, selector, words, rfl, hlt, rfl⟩ := decodeBody_call_eq_ok_iff.1 hbody
      refine ⟨?_, by simp [encode]⟩
      simp only [Fits, maxPayloadLength]
      omega
  · rintro ⟨hfits, rfl⟩
    -- The opcode is the first byte, and the body is read from all the other bytes.
    refine ⟨record.opcode, record.encode.tail ++ rest,
      (Opcode.inverts_decode _ _ _).2 ⟨trivial, ?_⟩, ?_⟩
    · cases record <;> rfl
    · cases record with
      | pad => exact Decoder.pure_eq_ok_iff.2 ⟨rfl, rfl⟩
      | call target selector words =>
        refine decodeBody_call_eq_ok_iff.2 ⟨target, selector, words, rfl, ?_, rfl⟩
        simp only [Fits, maxPayloadLength] at hfits
        omega

/-! ## Whole streams -/

@[simp] theorem encodeAll_nil : encodeAll [] = [] := rfl

@[simp] theorem encodeAll_cons (record : Record) (records : List Record) :
    encodeAll (record :: records) = record.encode ++ encodeAll records := rfl

@[simp] theorem encodeAll_append (left right : List Record) :
    encodeAll (left ++ right) = encodeAll left ++ encodeAll right := by
  simp [encodeAll]

/-- Every record has at least one byte. -/
theorem encode_ne_nil (record : Record) : record.encode ≠ [] := by
  cases record <;> simp [encode]

/-- A stream is written in as many bytes as are counted for it. -/
@[simp] theorem length_encodeAll (records : List Record) :
    (encodeAll records).length = sizeAll records := by
  induction records with
  | nil => rfl
  | cons record records ih => simp [sizeAll, ih]

end Record

/-- A stream that is not empty starts with a record, after which the rest is read. -/
theorem disassemble_cons (byte : UInt8) (input : Bytes) :
    disassemble (byte :: input) =
      match Record.decode (byte :: input) with
      | (.ok record, rest) => (disassemble rest).map (record :: ·)
      | (.error e, _) => .error e := by
  rw [disassemble]
  split
  · next record rest h => simp only [h]
  · next e rest h => simp only [h]

/-- Only the empty stream has no records. -/
theorem disassemble_eq_ok_nil_iff {input : Bytes} : disassemble input = .ok [] ↔ input = [] := by
  cases input with
  | nil => simp [disassemble]
  | cons byte input =>
    rw [disassemble_cons]
    split
    · next record rest h => cases disassemble rest <;> simp [Except.map]
    · simp

/-- The first record of a stream is read first, and the others from what it leaves. -/
theorem disassemble_eq_ok_cons_iff {input : Bytes} {record : Record} {records : List Record} :
    disassemble input = .ok (record :: records) ↔
      ∃ rest, Record.decode input = (.ok record, rest) ∧ disassemble rest = .ok records := by
  cases input with
  | nil =>
    -- A record has at least one byte, so that none is read from the empty stream.
    simp [disassemble, Record.inverts_decode [] record, Record.encode_ne_nil]
  | cons byte input =>
    rw [disassemble_cons]
    split
    · next first rest h =>
      rw [h]
      cases hrest : disassemble rest with
      | error e => simp_all [Except.map]
      | ok others => simp_all [Except.map]
    · next e rest h => simp [h]

/-- Reading undoes writing, for records that fit. -/
theorem disassemble_encodeAll {records : List Record} (h : ∀ record ∈ records, record.Fits) :
    disassemble (Record.encodeAll records) = .ok records := by
  induction records with
  | nil => exact disassemble_eq_ok_nil_iff.2 rfl
  | cons record records ih =>
    obtain ⟨hfits, hothers⟩ := List.forall_mem_cons.1 h
    have hread := (Record.inverts_decode _ _ (Record.encodeAll records)).2 ⟨hfits, rfl⟩
    exact disassemble_eq_ok_cons_iff.2 ⟨_, hread, ih hothers⟩

/-- Writing undoes reading: whatever is read as records is their encoding, and they fit. -/
theorem encodeAll_of_disassemble {bytes : Bytes} {records : List Record}
    (h : disassemble bytes = .ok records) :
    (∀ record ∈ records, record.Fits) ∧ bytes = Record.encodeAll records := by
  induction records generalizing bytes with
  | nil =>
    obtain rfl := disassemble_eq_ok_nil_iff.1 h
    exact ⟨by simp, rfl⟩
  | cons record records ih =>
    obtain ⟨rest, hread, hothers⟩ := disassemble_eq_ok_cons_iff.1 h
    obtain ⟨hfits, rfl⟩ := (Record.inverts_decode _ _ _).1 hread
    obtain ⟨hall, rfl⟩ := ih hothers
    exact ⟨List.forall_mem_cons.2 ⟨hfits, hall⟩, rfl⟩

/-- **The record codec is a bijection.** A byte sequence is read as the given records exactly when
each of them fits and the bytes are their encoding. So no two byte sequences are read as the same
records. -/
theorem disassemble_eq_ok_iff (bytes : Bytes) (records : List Record) :
    disassemble bytes = .ok records ↔
      (∀ record ∈ records, record.Fits) ∧ bytes = Record.encodeAll records := by
  constructor
  · exact encodeAll_of_disassemble
  · rintro ⟨hfits, rfl⟩
    exact disassemble_encodeAll hfits

end CallScript
