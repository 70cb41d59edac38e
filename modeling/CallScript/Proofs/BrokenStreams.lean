import CallScript.Proofs.RecordStream

/-! # Streams that cannot be read

Where the reading of a stream stops, and why. A stream that cannot be read is records and a rest
that does not start with a record; the rest alone decides the error. A stream that is cut off is
such a stream, unless it is cut between two records.

* **`Record.Breaks`** says what is wrong with a rest, without an algorithm.
* **`BreaksOff`** divides a stream into the records that can be read and the rest.
* **`disassemble_error_exact`**: every stream that cannot be read breaks off in one place, and is
  refused for what is wrong there.
* **`disassemble_take`**: a stream that is cut off is read up to the cut, or refused as too short. -/

namespace CallScript

/-- At least `n` bytes start with a block of `n` bytes. -/
theorem Block.exists_append {n : Nat} {bytes : Bytes} (h : n ≤ bytes.length) :
    ∃ (block : Block n) (rest : Bytes), bytes = block.toList ++ rest :=
  ⟨⟨bytes.take n, by rw [List.length_take, Nat.min_eq_left h]⟩, bytes.drop n,
    (List.take_append_drop n bytes).symm⟩

namespace Record

/-! ## Payloads -/

/-- Bytes for `count` words are the bytes of `count` words. -/
theorem exists_words {count : Nat} {bytes : Bytes} (h : bytes.length = 32 * count) :
    ∃ words : List Word, words.length = count ∧
      (words.flatMap fun word => word.bytes.toList) = bytes := by
  induction count generalizing bytes with
  | zero => exact ⟨[], rfl, (List.length_eq_zero_iff.1 h).symm⟩
  | succ count ih =>
    obtain ⟨first, rest, rfl⟩ := Block.exists_append (show 32 ≤ bytes.length by omega)
    rw [List.length_append, first.length_toList] at h
    obtain ⟨words, hcount, hwords⟩ := ih (show rest.length = 32 * count by omega)
    exact ⟨⟨first⟩ :: words, by rw [List.length_cons, hcount], by rw [List.flatMap_cons, hwords]⟩

/-- A payload of a selector and whole words is read, and nothing of it is left. -/
theorem exists_decodePayload {payload : Bytes} (hroom : 4 ≤ payload.length)
    (hwhole : 32 ∣ payload.length - 4) :
    ∃ selector words,
      decodePayload payload.length payload = (.ok (selector, words), []) := by
  obtain ⟨count, hcount⟩ := hwhole
  obtain ⟨selector, rest, rfl⟩ := Block.exists_append hroom
  rw [List.length_append, selector.length_toList] at hcount
  obtain ⟨words, hwords, rfl⟩ := exists_words (show rest.length = 32 * count by omega)
  refine ⟨⟨selector⟩, words, (inverts_decodePayload _ _ _ _).2 ⟨?_, (List.append_nil _).symm⟩⟩
  rw [List.length_append, selector.length_toList, length_flatMap_words]
  rfl

/-! ## One record -/

/-- The length of the payload that a call **announces**: the value of the four bytes after the opcode
and the 20 bytes of the target. -/
def announcedLength (bytes : Bytes) : Nat :=
  Bytes.value ((bytes.drop 21).take 4)

/-- A call is **cut off** when it ends before its payload, or before the payload has as many bytes as
are announced. -/
def IsCutOff (bytes : Bytes) : Prop :=
  bytes.length < 25 ∨ (bytes.drop 25).length < announcedLength bytes

/-- Why the bytes at which a stream **breaks** are no record. The opcode is looked at first, then
whether all bytes are there, then the length of the payload. -/
inductive Breaks : Bytes → DecodeError → Prop
  /-- A record starts with one of the two opcodes. -/
  | unknownOpcode {byte : UInt8} {others : Bytes} (hcall : byte ≠ 0x01) (hpad : byte ≠ 0xFF) :
    Breaks (byte :: others) (.unknownOpcode byte)
  /-- A call is not cut off. -/
  | endOfInput {others : Bytes} (hcut : IsCutOff (0x01 :: others)) :
    Breaks (0x01 :: others) .endOfInput
  /-- A payload starts with a selector. -/
  | shortPayload {others : Bytes} (hall : ¬IsCutOff (0x01 :: others))
    (hshort : announcedLength (0x01 :: others) < 4) : Breaks (0x01 :: others) .shortPayload
  /-- After the selector come whole words. -/
  | raggedPayload {others : Bytes} (hall : ¬IsCutOff (0x01 :: others))
    (hroom : 4 ≤ announcedLength (0x01 :: others))
    (hragged : ¬32 ∣ announcedLength (0x01 :: others) - 4) :
    Breaks (0x01 :: others) .raggedPayload

namespace Breaks

variable {bytes : Bytes} {error : DecodeError}

/-- The opcode is blamed exactly when it is neither of the two. -/
theorem eq_unknownOpcode_iff (h : Breaks bytes error) {byte : UInt8} :
    error = .unknownOpcode byte ↔ bytes.head? = some byte ∧ byte ≠ 0x01 ∧ byte ≠ 0xFF := by
  have hopcode (others : Bytes) :
      ¬((0x01 :: others).head? = some byte ∧ byte ≠ 0x01 ∧ byte ≠ 0xFF) := by
    rintro ⟨hhead, hcall, -⟩
    exact hcall (Option.some.inj hhead).symm
  cases h with
  | @unknownOpcode first others hcall hpad =>
    simp only [DecodeError.unknownOpcode.injEq, List.head?_cons, Option.some.injEq]
    constructor
    · rintro rfl
      exact ⟨rfl, hcall, hpad⟩
    · rintro ⟨rfl, -⟩
      rfl
  | endOfInput => exact iff_of_false (by simp) (hopcode _)
  | shortPayload => exact iff_of_false (by simp) (hopcode _)
  | raggedPayload => exact iff_of_false (by simp) (hopcode _)

/-- A known opcode at which a stream breaks is that of a call, because padding is always a record. -/
theorem head?_eq_call (h : Breaks bytes error)
    (hknown : ∀ byte, bytes.head? = some byte → byte = 0x01 ∨ byte = 0xFF) :
    bytes.head? = some 0x01 := by
  cases h with
  | @unknownOpcode first others hcall hpad =>
    rcases hknown first rfl with rfl | rfl
    · rfl
    · exact absurd rfl hpad
  | endOfInput => rfl
  | shortPayload => rfl
  | raggedPayload => rfl

/-- A call is blamed for its end exactly when it is cut off. -/
theorem eq_endOfInput_iff (h : Breaks bytes error) (hcall : bytes.head? = some 0x01) :
    error = .endOfInput ↔ IsCutOff bytes := by
  cases h with
  | unknownOpcode hother => exact absurd (Option.some.inj hcall) hother
  | endOfInput hcut => exact iff_of_true rfl hcut
  | shortPayload hall => exact iff_of_false (by simp) hall
  | raggedPayload hall => exact iff_of_false (by simp) hall

/-- A call that is not cut off is blamed for its selector exactly when that has no room. -/
theorem eq_shortPayload_iff (h : Breaks bytes error) (hcall : bytes.head? = some 0x01)
    (hall : ¬IsCutOff bytes) : error = .shortPayload ↔ announcedLength bytes < 4 := by
  cases h with
  | unknownOpcode hother => exact absurd (Option.some.inj hcall) hother
  | endOfInput hcut => exact absurd hcut hall
  | shortPayload _ hshort => exact iff_of_true rfl hshort
  | raggedPayload _ hroom => exact iff_of_false (by simp) (Nat.not_lt.2 hroom)

/-- A call with room for its selector is blamed for its last word, which is broken. -/
theorem eq_raggedPayload (h : Breaks bytes error) (hcall : bytes.head? = some 0x01)
    (hall : ¬IsCutOff bytes) (hroom : 4 ≤ announcedLength bytes) :
    error = .raggedPayload ∧ ¬32 ∣ announcedLength bytes - 4 := by
  cases h with
  | unknownOpcode hother => exact absurd (Option.some.inj hcall) hother
  | endOfInput hcut => exact absurd hcut hall
  | shortPayload _ hshort => exact absurd hshort (Nat.not_lt.2 hroom)
  | raggedPayload _ _ hragged => exact ⟨rfl, hragged⟩

end Breaks

/-- The announced length stands after the target. -/
theorem announcedLength_append (target : Block 20) (length : Block 4) (body : Bytes) :
    announcedLength (0x01 :: (target.toList ++ (length.toList ++ body))) =
      length.toList.value := by
  have hdrop : (0x01 :: (target.toList ++ (length.toList ++ body))).drop 21 =
      length.toList ++ body := by
    rw [List.drop_succ_cons, List.drop_left' target.length_toList]
  rw [announcedLength, hdrop, List.take_left' length.length_toList]

/-- The payload stands after the announced length. -/
theorem drop_append (target : Block 20) (length : Block 4) (body : Bytes) :
    (0x01 :: (target.toList ++ (length.toList ++ body))).drop 25 = body := by
  rw [List.drop_succ_cons, ← List.append_assoc]
  refine List.drop_left' ?_
  rw [List.length_append, target.length_toList, length.length_toList]

/-- A call with at least 25 bytes has a target and announces a length. -/
theorem exists_fields {others : Bytes} (h : 25 ≤ (0x01 :: others).length) :
    ∃ (target : Block 20) (length : Block 4) (body : Bytes),
      others = target.toList ++ (length.toList ++ body) := by
  rw [List.length_cons] at h
  obtain ⟨target, rest, rfl⟩ := Block.exists_append (show 20 ≤ others.length by omega)
  rw [List.length_append, target.length_toList] at h
  obtain ⟨length, body, rfl⟩ := Block.exists_append (show 4 ≤ rest.length by omega)
  exact ⟨target, length, body, rfl⟩

/-- After the opcode of a call comes its body. -/
theorem decode_call (others : Bytes) : decode (0x01 :: others) = decodeBody .call others :=
  Decoder.bind_of_ok ((Opcode.inverts_decode _ .call _).2 ⟨trivial, rfl⟩)

/-- A call that is cut off is refused as too short, in whichever field the cut is. -/
theorem decode_of_isCutOff {others : Bytes} (h : IsCutOff (0x01 :: others)) :
    ∃ left, decode (0x01 :: others) = (.error .endOfInput, left) := by
  rw [decode_call, decodeBody]
  rcases Nat.lt_or_ge others.length 20 with htarget | htarget
  · exact ⟨_, Decoder.bind_of_error (Decoder.block_of_lt htarget)⟩
  obtain ⟨target, rest, rfl⟩ := Block.exists_append htarget
  rw [Decoder.bind_of_ok ((Decoder.inverts_block 20).read_append trivial rest)]
  rcases Nat.lt_or_ge rest.length 4 with hlength | hlength
  · exact ⟨_, Decoder.bind_of_error (Decoder.length_of_lt hlength)⟩
  obtain ⟨length, body, rfl⟩ := Block.exists_append hlength
  rw [Decoder.bind_of_ok (Decoder.length_append length body)]
  -- Both fields before the payload are there, so that the cut is in the payload.
  have hbody : body.length < length.toList.value := by
    rcases h with hshort | hpayload
    · simp only [List.length_cons, List.length_append, Block.length_toList] at hshort
      omega
    · rwa [announcedLength_append, drop_append] at hpayload
  exact ⟨_, Decoder.bind_of_error (Decoder.take_of_lt hbody)⟩

/-- A call that is not cut off is read from its payload, which is as long as is announced. -/
theorem decode_of_not_isCutOff {others : Bytes} (h : ¬IsCutOff (0x01 :: others)) :
    ∃ (target : Address) (payload rest : Bytes),
      payload.length = announcedLength (0x01 :: others) ∧
      decode (0x01 :: others) =
        ((decodePayload payload.length payload).1.map fun (selector, words) =>
          .call target selector words, rest) := by
  rw [IsCutOff, not_or, Nat.not_lt, Nat.not_lt] at h
  obtain ⟨hfields, hpayload⟩ := h
  obtain ⟨target, length, body, rfl⟩ := exists_fields hfields
  rw [announcedLength_append, drop_append] at hpayload
  have hsize : (body.take length.toList.value).length = length.toList.value := by
    rw [List.length_take, Nat.min_eq_left hpayload]
  refine ⟨⟨target⟩, body.take length.toList.value, body.drop length.toList.value, ?_, ?_⟩
  · rw [hsize, announcedLength_append]
  · rw [decode_call, decodeBody,
      Decoder.bind_of_ok ((Decoder.inverts_block 20).read_append trivial _),
      Decoder.bind_of_ok (Decoder.length_append length body),
      Decoder.bind_of_ok ((Decoder.inverts_take _ _ _ _).2
        ⟨hsize, (List.take_append_drop _ body).symm⟩), hsize]
    exact Decoder.within_map _ _ _ _

/-- From bytes that are there either a record is read, or they break and are refused for that
reason. -/
theorem decode_cases {bytes : Bytes} (hne : bytes ≠ []) :
    (∃ record rest, decode bytes = (.ok record, rest)) ∨
      ∃ error rest, Breaks bytes error ∧ decode bytes = (.error error, rest) := by
  obtain ⟨byte, others, rfl⟩ := List.exists_cons_of_ne_nil hne
  by_cases hpad : byte = 0xFF
  · subst hpad
    exact .inl ⟨.pad, others, (inverts_decode _ .pad _).2 ⟨trivial, rfl⟩⟩
  by_cases hcall : byte = 0x01
  · subst hcall
    by_cases hcut : IsCutOff (0x01 :: others)
    · obtain ⟨left, hdecode⟩ := decode_of_isCutOff hcut
      exact .inr ⟨.endOfInput, left, .endOfInput hcut, hdecode⟩
    obtain ⟨target, payload, rest, hlength, hdecode⟩ := decode_of_not_isCutOff hcut
    -- The length of the payload decides what is read from it.
    by_cases hshort : payload.length < 4
    · rw [decodePayload, if_pos hshort] at hdecode
      rw [hlength] at hshort
      exact .inr ⟨.shortPayload, rest, .shortPayload hcut hshort, hdecode⟩
    by_cases hwhole : 32 ∣ payload.length - 4
    · obtain ⟨selector, words, hpayload⟩ := exists_decodePayload (Nat.not_lt.1 hshort) hwhole
      rw [hpayload] at hdecode
      exact .inl ⟨.call target selector words, rest, hdecode⟩
    · rw [decodePayload, if_neg hshort, if_pos (mt Nat.dvd_of_mod_eq_zero hwhole)] at hdecode
      rw [hlength] at hshort hwhole
      exact .inr ⟨.raggedPayload, rest, .raggedPayload hcut (Nat.not_lt.1 hshort) hwhole, hdecode⟩
  · have hopcode : Opcode.decode (byte :: others) = (.error (.unknownOpcode byte), others) := by
      rw [Opcode.decode, Opcode.ofByte, if_neg hcall, if_neg hpad]
    exact .inr ⟨.unknownOpcode byte, others, .unknownOpcode hcall hpad,
      Decoder.bind_of_error hopcode⟩

/-- Bytes **start with a record** when the encoding of one that fits is a prefix of them. -/
def StartsWithRecord (bytes : Bytes) : Prop :=
  ∃ record : Record, record.Fits ∧ record.encode <+: bytes

/-- A record is read exactly from bytes that start with one. -/
theorem startsWithRecord_iff {bytes : Bytes} :
    StartsWithRecord bytes ↔ ∃ record rest, decode bytes = (.ok record, rest) := by
  constructor
  · rintro ⟨record, hfits, rest, rfl⟩
    exact ⟨record, rest, inverts_decode.read_append hfits rest⟩
  · rintro ⟨record, rest, hdecode⟩
    obtain ⟨hfits, rfl⟩ := (inverts_decode _ _ _).1 hdecode
    exact ⟨record, hfits, rest, rfl⟩

end Record

/-! ## Whole streams -/

/-- A stream **breaks off** after the given records: they fit, and what follows them is not empty and
does not start with a record. -/
structure BreaksOff (bytes : Bytes) (records : List Record) (rest : Bytes) : Prop where
  /-- The stream is the records and the rest. -/
  bytes_eq : bytes = Record.encodeAll records ++ rest
  /-- The records fit. -/
  fits : ∀ record ∈ records, record.Fits
  /-- There is a rest. -/
  rest_ne_nil : rest ≠ []
  /-- The rest does not start with a record. -/
  not_startsWithRecord : ¬Record.StartsWithRecord rest

/-- Records at the front of a stream are read, and then what follows them. -/
theorem disassemble_append {records : List Record} (h : ∀ record ∈ records, record.Fits)
    (rest : Bytes) :
    disassemble (Record.encodeAll records ++ rest) = (disassemble rest).map (records ++ ·) := by
  induction records with
  | nil => cases hrest : disassemble rest <;> simp [hrest, Except.map]
  | cons record records ih =>
    obtain ⟨hfits, hothers⟩ := List.forall_mem_cons.1 h
    have hread := Record.inverts_decode.read_append hfits (Record.encodeAll records ++ rest)
    obtain ⟨byte, others, hcons⟩ := List.exists_cons_of_ne_nil record.encode_ne_nil
    rw [Record.encodeAll_cons, List.append_assoc, hcons, List.cons_append, disassemble_cons]
    rw [hcons, List.cons_append] at hread
    rw [hread]
    simp only [ih hothers]
    cases disassemble rest <;> rfl

/-- A stream that breaks off is refused for what is wrong with the rest. -/
theorem BreaksOff.exists_error {bytes rest : Bytes} {records : List Record}
    (h : BreaksOff bytes records rest) :
    ∃ error, Record.Breaks rest error ∧ disassemble bytes = .error error := by
  have hdecode := Record.decode_cases h.rest_ne_nil
  rw [← Record.startsWithRecord_iff] at hdecode
  obtain ⟨error, left, hbreaks, hread⟩ := hdecode.resolve_left h.not_startsWithRecord
  refine ⟨error, hbreaks, ?_⟩
  obtain ⟨byte, others, rfl⟩ := List.exists_cons_of_ne_nil h.rest_ne_nil
  rw [h.bytes_eq, disassemble_append h.fits, disassemble_cons, hread]
  rfl

/-- A stream that is refused breaks off. -/
theorem exists_breaksOff {bytes : Bytes} {error : DecodeError} (h : disassemble bytes = .error error) :
    ∃ records rest, BreaksOff bytes records rest := by
  fun_induction disassemble bytes with
  | case1 => simp at h
  | case2 byte input record rest hread _ ih =>
    obtain ⟨hfits, hbytes⟩ := (Record.inverts_decode _ _ _).1 hread
    cases hrest : disassemble rest with
    | ok records => simp [hrest, Except.map] at h
    | error other =>
      obtain rfl : other = error := by simpa [hrest, Except.map] using h
      obtain ⟨records, last, hbreaks⟩ := ih hrest
      refine ⟨record :: records, last, ?_, List.forall_mem_cons.2 ⟨hfits, hbreaks.fits⟩,
        hbreaks.rest_ne_nil, hbreaks.not_startsWithRecord⟩
      rw [hbytes, hbreaks.bytes_eq, Record.encodeAll_cons, List.append_assoc]
  | case3 byte input other rest hread =>
    refine ⟨[], byte :: input, rfl, by simp, List.cons_ne_nil _ _, ?_⟩
    rw [Record.startsWithRecord_iff, hread]
    simp

/-- A stream breaks off in one place only. -/
theorem BreaksOff.unique {bytes rest rest' : Bytes} {records records' : List Record}
    (h : BreaksOff bytes records rest) (h' : BreaksOff bytes records' rest') :
    records = records' ∧ rest = rest' := by
  obtain ⟨rfl, hfits, hne, hnone⟩ := h
  obtain ⟨hbytes, hfits', hne', hnone'⟩ := h'
  induction records generalizing records' with
  | nil =>
    cases records' with
    | nil => exact ⟨rfl, hbytes⟩
    | cons record' records' =>
      -- The other records would start where the stream breaks off.
      refine absurd ⟨record', hfits' record' List.mem_cons_self, ?_⟩ hnone
      exact ⟨Record.encodeAll records' ++ rest', by simpa using hbytes.symm⟩
  | cons record records ih =>
    obtain ⟨hrecord, hrecords⟩ := List.forall_mem_cons.1 hfits
    cases records' with
    | nil =>
      refine absurd ⟨record, hrecord, ?_⟩ hnone'
      exact ⟨Record.encodeAll records ++ rest, by simpa using hbytes⟩
    | cons record' records' =>
      obtain ⟨hrecord', hrecords'⟩ := List.forall_mem_cons.1 hfits'
      rw [Record.encodeAll_cons, Record.encodeAll_cons, List.append_assoc,
        List.append_assoc] at hbytes
      -- The first records agree, because a stream starts with one record only.
      obtain ⟨rfl, hothers⟩ := Record.inverts_decode.append_inj hrecord hrecord' hbytes
      obtain ⟨rfl, rfl⟩ := ih hrecords hothers hrecords'
      exact ⟨rfl, rfl⟩

/-- **Streams are refused for the right reason.** A stream is refused exactly when it breaks off, and
it breaks off in one place only. An unknown opcode is reported exactly when the rest starts with
neither opcode. Otherwise the rest starts with the opcode of a call, and the end of the input is
reported exactly when fewer bytes are there than a call has before its payload, or fewer than it
announces. Otherwise a payload without a selector is reported exactly when fewer than four bytes are
announced, and otherwise a payload with a broken word, which then has one. A payload of a selector
and whole words can always be read. -/
theorem disassemble_error_exact (bytes : Bytes) :
    ((∃ error, disassemble bytes = .error error) ↔ ∃ records rest, BreaksOff bytes records rest) ∧
    (∀ records rest, BreaksOff bytes records rest →
      (∀ records' rest', BreaksOff bytes records' rest' → records' = records ∧ rest' = rest) ∧
      (∀ byte, disassemble bytes = .error (.unknownOpcode byte) ↔
        rest.head? = some byte ∧ byte ≠ 0x01 ∧ byte ≠ 0xFF) ∧
      ((∀ byte, rest.head? = some byte → byte = 0x01 ∨ byte = 0xFF) →
        rest.head? = some 0x01 ∧
        (disassemble bytes = .error .endOfInput ↔
          rest.length < 25 ∨ (rest.drop 25).length < Record.announcedLength rest) ∧
        (25 ≤ rest.length → Record.announcedLength rest ≤ (rest.drop 25).length →
          (disassemble bytes = .error .shortPayload ↔ Record.announcedLength rest < 4) ∧
          (4 ≤ Record.announcedLength rest →
            disassemble bytes = .error .raggedPayload ∧
              ¬32 ∣ Record.announcedLength rest - 4)))) ∧
    DecodeError.shortPayload.message = "invalid value: payload shorter than a selector" ∧
    DecodeError.raggedPayload.message =
      "invalid value: arguments are not a whole number of words" ∧
    ∀ payload : Bytes, 4 ≤ payload.length → 32 ∣ payload.length - 4 →
      ∃ selector words,
        Record.decodePayload payload.length payload = (.ok (selector, words), []) := by
  refine ⟨⟨?_, ?_⟩, ?_, rfl, rfl, fun payload => Record.exists_decodePayload⟩
  · rintro ⟨error, herror⟩
    exact exists_breaksOff herror
  · rintro ⟨records, rest, hbreaks⟩
    obtain ⟨error, -, herror⟩ := hbreaks.exists_error
    exact ⟨error, herror⟩
  intro records rest hbreaks
  refine ⟨fun _ _ h => h.unique hbreaks, ?_⟩
  obtain ⟨error, hreason, herror⟩ := hbreaks.exists_error
  simp only [herror, Except.error.injEq]
  refine ⟨fun byte => hreason.eq_unknownOpcode_iff, fun hknown => ?_⟩
  have hcall := hreason.head?_eq_call hknown
  refine ⟨hcall, hreason.eq_endOfInput_iff hcall, fun hfields hpayload => ?_⟩
  have hall : ¬Record.IsCutOff rest := not_or.2 ⟨Nat.not_lt.2 hfields, Nat.not_lt.2 hpayload⟩
  exact ⟨hreason.eq_shortPayload_iff hcall hall, hreason.eq_raggedPayload hcall hall⟩

/-- A call whose payload has one byte after the selector. -/
def raggedCall : Bytes :=
  0x01 :: (List.replicate 20 0x00 ++ [0x00, 0x00, 0x00, 0x05, 0xAA, 0xBB, 0xCC, 0xDD, 0xFF])

/-- A stream breaks off at the ragged call after a padding record, and is refused for its last word.
-/
theorem raggedCall_refused :
    BreaksOff (0xFF :: raggedCall) [.pad] raggedCall ∧
      disassemble (0xFF :: raggedCall) = .error .raggedPayload ∧
      ∃ selector words,
        Record.decodePayload 4 [0xAA, 0xBB, 0xCC, 0xDD] = (.ok (selector, words), []) := by
  have hread : Record.decode raggedCall = (.error .raggedPayload, []) := by decide +kernel
  have hbreaks : BreaksOff (0xFF :: raggedCall) [.pad] raggedCall := by
    refine ⟨rfl, by simp [Record.Fits], by decide, ?_⟩
    rw [Record.startsWithRecord_iff, hread]
    simp
  obtain ⟨-, hexact, -, -, hpayload⟩ := disassemble_error_exact (0xFF :: raggedCall)
  obtain ⟨-, -, hcall⟩ := hexact _ _ hbreaks
  have hopcode : ∀ byte, raggedCall.head? = some byte → byte = 0x01 ∨ byte = 0xFF := by
    intro byte hbyte
    exact .inl (Option.some.inj hbyte).symm
  obtain ⟨-, -, hwhole⟩ := hcall hopcode
  exact ⟨hbreaks, ((hwhole (by decide +kernel) (by decide +kernel)).2 (by decide +kernel)).1,
    hpayload [0xAA, 0xBB, 0xCC, 0xDD] (by decide) (by decide)⟩

/-! ## Streams that are cut off -/

namespace Record

/-- The announced length does not depend on what follows it. -/
theorem announcedLength_append_right {bytes : Bytes} (h : 25 ≤ bytes.length) (more : Bytes) :
    announcedLength (bytes ++ more) = announcedLength bytes := by
  have hdrop : (bytes ++ more).drop 21 = bytes.drop 21 ++ more :=
    List.drop_append_of_le_length (by omega)
  have htake : (bytes.drop 21 ++ more).take 4 = (bytes.drop 21).take 4 :=
    List.take_append_of_le_length (by rw [List.length_drop]; omega)
  rw [announcedLength, hdrop, htake, announcedLength]

/-- A call that fits announces the length of its payload. -/
theorem announcedLength_encode {target : Address} {selector : Selector} {words : List Word}
    (h : (call target selector words).Fits) :
    announcedLength (call target selector words).encode = payloadLength words := by
  have hlt : payloadLength words < 256 ^ 4 := by
    simp only [Fits, maxPayloadLength] at h
    omega
  let length : Block 4 := ⟨Bytes.bigEndian 4 (payloadLength words), Bytes.length_bigEndian _ _⟩
  have hfields : (call target selector words).encode =
      0x01 :: (target.bytes.toList ++ (length.toList ++
        (selector.bytes.toList ++ words.flatMap fun word => word.bytes.toList))) := by
    simp [encode, length, Opcode.toByte]
  rw [hfields, announcedLength_append]
  exact Bytes.value_bigEndian_of_lt hlt

/-- A record that is not there to its end is a call that is cut off. -/
theorem isCutOff_of_encode_eq {record : Record} (hfits : record.Fits) {bytes more : Bytes}
    (h : record.encode = bytes ++ more) (hbytes : bytes ≠ []) (hmore : more ≠ []) :
    ∃ others, bytes = 0x01 :: others ∧ IsCutOff (0x01 :: others) := by
  obtain ⟨byte, others, rfl⟩ := List.exists_cons_of_ne_nil hbytes
  have hlength := congrArg List.length h
  rw [length_encode, List.length_append] at hlength
  have hpos : 0 < more.length := List.length_pos_iff.2 hmore
  cases record with
  | pad =>
    -- Padding has one byte, and there are at least two.
    simp only [size, List.length_cons] at hlength
    omega
  | call target selector words =>
    obtain rfl : 0x01 = byte := (List.cons.inj h).1
    refine ⟨others, rfl, ?_⟩
    rcases Nat.lt_or_ge (0x01 :: others).length 25 with hshort | hfields
    · exact .inl hshort
    · have hannounced := announcedLength_append_right hfields more
      rw [← h, announcedLength_encode hfits] at hannounced
      refine .inr ?_
      rw [← hannounced, List.length_drop]
      simp only [size] at hlength
      omega

end Record

/-- A stream that ends within a record is refused as too short. -/
theorem disassemble_of_cut {records : List Record} (hrecords : ∀ record ∈ records, record.Fits)
    {record : Record} (hfits : record.Fits) {bytes more : Bytes}
    (h : record.encode = bytes ++ more) (hbytes : bytes ≠ []) (hmore : more ≠ []) :
    disassemble (Record.encodeAll records ++ bytes) = .error .endOfInput := by
  obtain ⟨others, rfl, hcut⟩ := Record.isCutOff_of_encode_eq hfits h hbytes hmore
  obtain ⟨left, hread⟩ := Record.decode_of_isCutOff hcut
  rw [disassemble_append hrecords, disassemble_cons, hread]
  rfl

/-- A cut through a stream lies between two records or within one. -/
theorem exists_cut (records : List Record) {count : Nat}
    (h : count ≤ (Record.encodeAll records).length) :
    (∃ index ≤ records.length, count = (Record.encodeAll (records.take index)).length) ∨
      ∃ before record after bytes more, records = before ++ record :: after ∧
        record.encode = bytes ++ more ∧ bytes ≠ [] ∧ more ≠ [] ∧
        (Record.encodeAll records).take count = Record.encodeAll before ++ bytes := by
  induction records generalizing count with
  | nil =>
    obtain rfl : count = 0 := Nat.le_zero.1 h
    exact .inl ⟨0, Nat.le_refl 0, rfl⟩
  | cons first records ih =>
    rw [Record.encodeAll_cons, List.length_append] at h
    rcases Nat.lt_or_ge count first.encode.length with hwithin | hbeyond
    · rcases Nat.eq_zero_or_pos count with rfl | hpos
      · exact .inl ⟨0, Nat.zero_le _, rfl⟩
      · -- The cut is within the first record.
        refine .inr ⟨[], first, records, first.encode.take count, first.encode.drop count, rfl,
          (List.take_append_drop _ _).symm, ?_, ?_, ?_⟩
        · rw [← List.length_pos_iff, List.length_take]
          omega
        · rw [← List.length_pos_iff, List.length_drop]
          omega
        · rw [Record.encodeAll_cons, List.take_append_of_le_length hwithin.le, Record.encodeAll_nil,
            List.nil_append]
    · -- The cut is after the first record, at the same place in the others.
      obtain ⟨offset, rfl⟩ := Nat.exists_eq_add_of_le hbeyond
      rcases ih (Nat.le_of_add_le_add_left h) with ⟨index, hindex, hoffset⟩ |
        ⟨before, record, after, bytes, more, rfl, hrecord, hbytes, hmore, htake⟩
      · refine .inl ⟨index + 1, Nat.succ_le_succ hindex, ?_⟩
        rw [List.take_succ_cons, Record.encodeAll_cons, List.length_append, hoffset]
      · refine .inr ⟨first :: before, record, after, bytes, more, rfl, hrecord, hbytes, hmore, ?_⟩
        rw [Record.encodeAll_cons, List.take_length_add_append, htake, Record.encodeAll_cons,
          List.append_assoc]

/-- **A stream that is cut off is noticed and not misread.** Of the encoding of records that fit, take
any number of bytes. If these are the bytes of the first records, then those records are read, and if
they are not the bytes of any first records, the stream is refused as too short. -/
theorem disassemble_take {records : List Record} (hfits : ∀ record ∈ records, record.Fits)
    {count : Nat} (hcount : count ≤ (Record.encodeAll records).length) :
    (∀ index ≤ records.length, count = (Record.encodeAll (records.take index)).length →
      disassemble ((Record.encodeAll records).take count) = .ok (records.take index)) ∧
    ((∀ index ≤ records.length, count ≠ (Record.encodeAll (records.take index)).length) →
      disassemble ((Record.encodeAll records).take count) = .error .endOfInput) := by
  refine ⟨?_, ?_⟩
  · rintro index - rfl
    have hsplit : Record.encodeAll records =
        Record.encodeAll (records.take index) ++ Record.encodeAll (records.drop index) := by
      rw [← Record.encodeAll_append, List.take_append_drop]
    rw [hsplit, List.take_left]
    exact disassemble_encodeAll fun record hmem => hfits record (List.mem_of_mem_take hmem)
  · intro hwithin
    rcases exists_cut records hcount with ⟨index, hindex, hboundary⟩ |
      ⟨before, record, after, bytes, more, rfl, hrecord, hbytes, hmore, htake⟩
    · exact absurd hboundary (hwithin index hindex)
    · rw [htake]
      exact disassemble_of_cut (fun other hmem => hfits other (by simp [hmem]))
        (hfits record (by simp)) hrecord hbytes hmore

/-- A padding record and a call in which every byte after the length looks like padding. -/
def paddedStream : List Record :=
  [.pad, .call ⟨Block.fill 20 0xFF⟩ ⟨Block.fill 4 0xFF⟩ [Word.placeholder]]

/-- After its first byte the padded stream is read as one record, and before its last byte it is
refused as too short. -/
theorem paddedStream_take :
    disassemble ((Record.encodeAll paddedStream).take 1) = .ok [.pad] ∧
      disassemble ((Record.encodeAll paddedStream).take 61) = .error .endOfInput := by
  have hfits : ∀ record ∈ paddedStream, record.Fits := by
    simp [paddedStream, Record.Fits, Record.payloadLength, Record.maxPayloadLength]
  have hlength : (Record.encodeAll paddedStream).length = 62 := by decide +kernel
  refine ⟨(disassemble_take hfits (by rw [hlength]; decide)).1 1 (by decide) (by decide +kernel),
    (disassemble_take hfits (by rw [hlength]; decide)).2 ?_⟩
  decide +kernel

end CallScript
