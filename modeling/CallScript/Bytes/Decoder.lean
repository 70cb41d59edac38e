import CallScript.Hex

/-! # Decoders

Readers that take bytes from the front of an input. A decoder says what is left of the input also
when it fails, so that reading can go on after a failure.

* **`DecodeError`** says why a read failed.
* **`Decoder α`** reads a value of type `α`; decoders are combined as a monad.
* **`Decoder.take`**, **`Decoder.block`** and **`Decoder.length`** are the elementary reads. Each of them
  leaves the input as it was when it fails. -/

namespace CallScript

/-- Why bytes cannot be read as records. -/
inductive DecodeError where
  /-- The input ends before the value does. -/
  | endOfInput
  /-- A record starts with a byte that is no opcode. -/
  | unknownOpcode (byte : UInt8)
  /-- A payload has no room for a selector. -/
  | shortPayload
  /-- What follows the selector is not a whole number of words. -/
  | raggedPayload
  deriving DecidableEq

/-- The wording of a decode error. -/
def DecodeError.message : DecodeError → String
  | .endOfInput => "unexpected end of input"
  | .unknownOpcode byte => "unknown opcode 0x" ++ Hex.encode [byte]
  | .shortPayload => "invalid value: payload shorter than a selector"
  | .raggedPayload => "invalid value: arguments are not a whole number of words"

/-- A **decoder** takes a value from the front of its input and returns it, or the reason why it
cannot, together with the input that is left. -/
def Decoder (α : Type) : Type :=
  Bytes → Except DecodeError α × Bytes

namespace Decoder

variable {α β : Type}

/-- Return a value without reading. -/
protected def pure (a : α) : Decoder α :=
  fun input => (.ok a, input)

/-- Read with one decoder and, if that succeeds, go on with the next. -/
protected def bind (decoder : Decoder α) (next : α → Decoder β) : Decoder β :=
  fun input =>
    match decoder input with
    | (.ok a, rest) => next a rest
    | (.error e, rest) => (.error e, rest)

instance : Monad Decoder where
  pure := Decoder.pure
  bind := Decoder.bind

/-- Fail without reading. -/
def fail (error : DecodeError) : Decoder α :=
  fun input => (.error error, input)

/-- Read exactly `n` bytes. -/
def take (n : Nat) : Decoder Bytes :=
  fun input =>
    if (input.take n).length = n then (.ok (input.take n), input.drop n)
    else (.error .endOfInput, input)

/-- Read a block of `n` bytes. -/
def block (n : Nat) : Decoder (Block n) :=
  fun input =>
    if h : (input.take n).length = n then (.ok ⟨input.take n, h⟩, input.drop n)
    else (.error .endOfInput, input)

/-- Read a length: four bytes, most significant first. -/
def length : Decoder Nat :=
  (fun bytes => Bytes.value bytes.toList) <$> block 4

/-- Decode bytes that have already been taken. The input itself is left alone. -/
def within (bytes : Bytes) (decoder : Decoder α) : Decoder α :=
  fun input => ((decoder bytes).1, input)

/-- Read `count` values, one after the other. -/
def repeated (decoder : Decoder α) : (count : Nat) → Decoder (List α)
  | 0 => pure []
  | count + 1 => do
    let first ← decoder
    let others ← repeated decoder count
    return first :: others

/-! ## What is left is a suffix of the input -/

/-- A decoder **advances** when what it leaves is always a suffix of its input. -/
def Advances (decoder : Decoder α) : Prop :=
  ∀ input, (decoder input).2 <:+ input

theorem advances_pure (a : α) : Advances (pure a : Decoder α) :=
  fun input => List.suffix_refl input

theorem advances_take (n : Nat) : Advances (take n) := by
  intro input
  unfold take
  split
  · exact List.drop_suffix n input
  · exact List.suffix_refl input

theorem advances_block (n : Nat) : Advances (block n) := by
  intro input
  unfold block
  split
  · exact List.drop_suffix n input
  · exact List.suffix_refl input

theorem advances_within (bytes : Bytes) (decoder : Decoder α) : Advances (within bytes decoder) :=
  fun input => List.suffix_refl input

/-- Decoders that advance do so also in a row. -/
theorem Advances.bind {decoder : Decoder α} {next : α → Decoder β} (first : Advances decoder)
    (others : ∀ a, Advances (next a)) : Advances (decoder >>= next) := by
  intro input
  have left := first input
  change (Decoder.bind decoder next input).2 <:+ input
  unfold Decoder.bind
  split
  · next a rest h =>
    rw [h] at left
    exact (others a rest).trans left
  · next e rest h =>
    rw [h] at left
    exact left

theorem advances_length : Advances length :=
  (advances_block 4).bind fun _ => advances_pure _

end Decoder

end CallScript
