import CallScript.Bytes.Decoder
import CallScript.Proofs.Bytes.BigEndian

/-! # Decoders that undo an encoding

What a successful read says about its input: the value that comes out and the input that is left
determine the input, and the other way round.

* **`Decoder.Inverts`**: a decoder reads exactly the encodings of the valid values, whatever follows
  them.
* **`Decoder.bind_eq_ok_iff`** takes a sequence of reads apart into its steps.
* **`Decoder.inverts_block`**, **`Decoder.inverts_length`** and **`Decoder.Inverts.repeated`** are
  the elementary reads and a run of reads of the same kind.
* **`Decoder.take_of_lt`** and its companions: the reads that fail for want of input. -/

namespace CallScript.Decoder

variable {α β : Type}

/-- A decoder **inverts** an encoding of the valid values: it returns `a` and leaves `rest` exactly
when `a` is valid and the input is the encoding of `a` followed by `rest`. -/
def Inverts (decoder : Decoder α) (Valid : α → Prop) (encode : α → Bytes) : Prop :=
  ∀ input a rest, decoder input = (.ok a, rest) ↔ Valid a ∧ input = encode a ++ rest

/-- A valid value is read from its encoding, and what follows is left. -/
theorem Inverts.read_append {decoder : Decoder α} {Valid : α → Prop} {encode : α → Bytes}
    (h : decoder.Inverts Valid encode) {a : α} (ha : Valid a) (rest : Bytes) :
    decoder (encode a ++ rest) = (.ok a, rest) :=
  (h _ _ _).2 ⟨ha, rfl⟩

/-- The encodings of two valid values at the front of one input are the same. -/
theorem Inverts.append_inj {decoder : Decoder α} {Valid : α → Prop} {encode : α → Bytes}
    (h : decoder.Inverts Valid encode) {a b : α} (ha : Valid a) (hb : Valid b) {rest rest' : Bytes}
    (heq : encode a ++ rest = encode b ++ rest') : a = b ∧ rest = rest' := by
  have hread := h.read_append ha rest
  rw [heq, h.read_append hb rest'] at hread
  obtain ⟨hvalue, hrest⟩ := Prod.mk.inj hread
  exact ⟨(Except.ok.inj hvalue).symm, hrest.symm⟩

/-! ## Reads in a row -/

/-- A sequence of two reads succeeds exactly when the first does and the second succeeds on what the
first leaves. -/
theorem bind_eq_ok_iff {decoder : Decoder α} {next : α → Decoder β} {input rest : Bytes} {b : β} :
    (decoder >>= next) input = (.ok b, rest) ↔
      ∃ a middle, decoder input = (.ok a, middle) ∧ next a middle = (.ok b, rest) := by
  change Decoder.bind decoder next input = (.ok b, rest) ↔ _
  unfold Decoder.bind
  split
  · next a middle h =>
    rw [h]
    constructor
    · intro hnext
      exact ⟨a, middle, rfl, hnext⟩
    · rintro ⟨a', middle', heq, hnext⟩
      obtain ⟨rfl, rfl⟩ : a = a' ∧ middle = middle' := by simpa using heq
      exact hnext
  · next e middle h =>
    -- The first read fails, so that neither side holds.
    rw [h]
    constructor
    · intro hnext
      simp at hnext
    · rintro ⟨a', middle', heq, -⟩
      simp at heq

/-- Returning a value reads nothing. -/
theorem pure_eq_ok_iff {a b : α} {input rest : Bytes} :
    (pure a : Decoder α) input = (.ok b, rest) ↔ a = b ∧ input = rest := by
  change (Except.ok a, input) = (Except.ok b, rest) ↔ _
  simp

/-- Applying a function to what is read leaves the same input as the read. -/
theorem map_eq_ok_iff {decoder : Decoder α} {f : α → β} {input rest : Bytes} {b : β} :
    (f <$> decoder) input = (.ok b, rest) ↔ ∃ a, decoder input = (.ok a, rest) ∧ f a = b := by
  change (decoder >>= fun a => pure (f a)) input = (.ok b, rest) ↔ _
  rw [bind_eq_ok_iff]
  constructor
  · rintro ⟨a, middle, hread, hpure⟩
    obtain ⟨hvalue, rfl⟩ := pure_eq_ok_iff.1 hpure
    exact ⟨a, hread, hvalue⟩
  · rintro ⟨a, hread, hvalue⟩
    exact ⟨a, rest, hread, pure_eq_ok_iff.2 ⟨hvalue, rfl⟩⟩

/-- Decoding bytes that were taken before succeeds when the decoder does on these bytes. It leaves
the input alone. -/
theorem within_eq_ok_iff {decoder : Decoder α} {bytes input rest : Bytes} {a : α} :
    within bytes decoder input = (.ok a, rest) ↔
      (∃ left, decoder bytes = (.ok a, left)) ∧ input = rest := by
  unfold within
  constructor
  · intro h
    obtain ⟨hvalue, hrest⟩ := Prod.mk.inj h
    exact ⟨⟨(decoder bytes).2, Prod.ext hvalue rfl⟩, hrest⟩
  · rintro ⟨⟨left, hread⟩, rfl⟩
    rw [hread]

/-! ## Elementary reads -/

/-- Taking `n` bytes inverts the identity on byte sequences of length `n`. -/
theorem inverts_take (n : Nat) : (take n).Inverts (fun bytes => bytes.length = n) id := by
  intro input bytes rest
  unfold take
  constructor
  · intro h
    split at h
    · next hlength =>
      obtain ⟨hbytes, hrest⟩ := Prod.mk.inj h
      obtain rfl := Except.ok.inj hbytes
      exact ⟨hlength, by rw [id, ← hrest, List.take_append_drop]⟩
    · simp at h
  · rintro ⟨rfl, rfl⟩
    simp

/-- Reading a block inverts the listing of its bytes. -/
theorem inverts_block (n : Nat) : (block n).Inverts (fun _ => True) Block.toList := by
  intro input bytes rest
  unfold block
  constructor
  · intro h
    split at h
    · obtain ⟨hblock, hrest⟩ := Prod.mk.inj h
      obtain rfl := Except.ok.inj hblock
      exact ⟨trivial, by rw [← hrest, List.take_append_drop]⟩
    · simp at h
  · rintro ⟨-, rfl⟩
    obtain ⟨bytes, rfl⟩ := bytes
    simp

/-- Reading a length inverts its four big-endian bytes. -/
theorem inverts_length : length.Inverts (fun n => n < 256 ^ 4) (Bytes.bigEndian 4) := by
  intro input n rest
  unfold length
  rw [map_eq_ok_iff]
  constructor
  · rintro ⟨bytes, hread, rfl⟩
    obtain ⟨-, rfl⟩ := (inverts_block 4 _ _ _).1 hread
    -- Four bytes stand for a number below `256 ^ 4`, and they are what is written for it.
    have hwidth := bytes.length_toList
    have hlt := Bytes.value_lt bytes.toList
    rw [hwidth] at hlt
    have hbytes := Bytes.bigEndian_value bytes.toList
    rw [hwidth] at hbytes
    exact ⟨hlt, by rw [hbytes]⟩
  · rintro ⟨hlt, rfl⟩
    refine ⟨⟨Bytes.bigEndian 4 n, Bytes.length_bigEndian 4 n⟩, ?_, Bytes.value_bigEndian_of_lt hlt⟩
    exact (inverts_block 4 _ _ _).2 ⟨trivial, rfl⟩

/-- Any four bytes are read as the length for which they stand. -/
theorem length_append (bytes : Block 4) (rest : Bytes) :
    length (bytes.toList ++ rest) = (.ok bytes.toList.value, rest) :=
  map_eq_ok_iff.2 ⟨bytes, (inverts_block 4).read_append trivial rest, rfl⟩

/-! ## Reads under a renaming, and runs of reads -/

/-- A one-to-one renaming of the values carries an inverting decoder along. -/
theorem Inverts.map {decoder : Decoder α} {Valid : α → Prop} {encode : α → Bytes}
    (h : decoder.Inverts Valid encode) {f : α → β} {g : β → α} (hleft : Function.LeftInverse g f)
    (hright : Function.RightInverse g f) :
    (f <$> decoder).Inverts (fun b => Valid (g b)) (fun b => encode (g b)) := by
  intro input b rest
  rw [map_eq_ok_iff]
  constructor
  · rintro ⟨a, hread, rfl⟩
    show Valid (g (f a)) ∧ input = encode (g (f a)) ++ rest
    rw [hleft a]
    exact (h _ _ _).1 hread
  · intro hinput
    exact ⟨g b, (h _ _ _).2 hinput, hright b⟩

/-- A run of `count` reads inverts the concatenation of `count` encodings. -/
theorem Inverts.repeated {decoder : Decoder α} {encode : α → Bytes}
    (h : decoder.Inverts (fun _ => True) encode) (count : Nat) :
    (decoder.repeated count).Inverts (fun values => values.length = count)
      (fun values => values.flatMap encode) := by
  induction count with
  | zero =>
    intro input values rest
    rw [Decoder.repeated, pure_eq_ok_iff]
    constructor
    · rintro ⟨rfl, rfl⟩
      simp
    · rintro ⟨hlength, rfl⟩
      obtain rfl := List.length_eq_zero_iff.1 hlength
      simp
  | succ count ih =>
    intro input values rest
    rw [Decoder.repeated, bind_eq_ok_iff]
    simp only [bind_eq_ok_iff, pure_eq_ok_iff]
    constructor
    · rintro ⟨first, middle, hfirst, others, middle', hothers, rfl, rfl⟩
      obtain ⟨-, rfl⟩ := (h _ _ _).1 hfirst
      obtain ⟨rfl, rfl⟩ := (ih _ _ _).1 hothers
      simp
    · rintro ⟨hlength, rfl⟩
      obtain ⟨first, others, rfl⟩ := List.exists_cons_of_length_eq_add_one hlength
      rw [List.length_cons, Nat.add_right_cancel_iff] at hlength
      -- The first read leaves the encodings of the others, and those are read by induction.
      refine ⟨first, others.flatMap encode ++ rest, (h _ _ _).2 ⟨trivial, ?_⟩, others, rest,
        (ih _ _ _).2 ⟨hlength, rfl⟩, rfl, rfl⟩
      rw [List.flatMap_cons, List.append_assoc]

/-! ## Reads that fail -/

/-- After a read that succeeds, the next one goes on with what is left. -/
theorem bind_of_ok {decoder : Decoder α} {next : α → Decoder β} {input rest : Bytes} {a : α}
    (h : decoder input = (.ok a, rest)) : (decoder >>= next) input = next a rest := by
  change Decoder.bind decoder next input = _
  rw [Decoder.bind, h]

/-- After a read that fails, nothing more is read. -/
theorem bind_of_error {decoder : Decoder α} {next : α → Decoder β} {input rest : Bytes}
    {error : DecodeError} (h : decoder input = (.error error, rest)) :
    (decoder >>= next) input = (.error error, rest) := by
  change Decoder.bind decoder next input = _
  rw [Decoder.bind, h]

/-- What was taken before is decoded, and the input is left alone, whatever comes of it. -/
theorem within_map (bytes : Bytes) (decoder : Decoder α) (f : α → β) (input : Bytes) :
    (within bytes decoder >>= fun a => pure (f a)) input = ((decoder bytes).1.map f, input) := by
  change Decoder.bind (within bytes decoder) _ input = _
  unfold Decoder.bind within
  cases (decoder bytes).1 with
  | error e => rfl
  | ok a => rfl

/-- Fewer than `n` bytes cannot be taken as `n` bytes. -/
theorem take_of_lt {n : Nat} {input : Bytes} (h : input.length < n) :
    take n input = (.error .endOfInput, input) := by
  have hshort : (input.take n).length ≠ n := by
    rw [List.length_take]
    omega
  rw [take, if_neg hshort]

/-- Fewer than `n` bytes cannot be read as a block of `n` bytes. -/
theorem block_of_lt {n : Nat} {input : Bytes} (h : input.length < n) :
    block n input = (.error .endOfInput, input) := by
  have hshort : (input.take n).length ≠ n := by
    rw [List.length_take]
    omega
  rw [block, dif_neg hshort]

/-- Fewer than four bytes cannot be read as a length. -/
theorem length_of_lt {input : Bytes} (h : input.length < 4) :
    length input = (.error .endOfInput, input) :=
  bind_of_error (block_of_lt h)

end CallScript.Decoder
