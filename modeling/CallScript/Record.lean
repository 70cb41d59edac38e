import CallScript.Bytes.Decoder
import CallScript.Selector
import CallScript.Word

/-! # Records

A compiled script is a stream of records without any framing: the first byte of each tells them
apart. A **call** is the opcode `0x01`, the target's address, the length of the payload in four
bytes, and the payload: a selector and one word for each argument. A **pad** is the single byte `0xFF`.

* **`Record`** is a record, **`Record.encode`** its bytes and **`Record.size`** their number;
  **`Record.writeTo`** writes it to any sink.
* **`Record.decode`** reads one record; **`disassemble`** reads a whole stream. -/

namespace CallScript

/-- The first byte of a record. -/
inductive Opcode where
  /-- A call with its target and payload. -/
  | call
  /-- A record that is only padding. -/
  | pad
  deriving DecidableEq

namespace Opcode

/-- The byte that stands for an opcode. -/
def toByte : Opcode → UInt8
  | .call => 0x01
  | .pad => 0xFF

/-- The opcode for which a byte stands. -/
def ofByte (byte : UInt8) : Except DecodeError Opcode :=
  if byte = 0x01 then .ok .call
  else if byte = 0xFF then .ok .pad
  else .error (.unknownOpcode byte)

/-- Read an opcode. A byte that is none is taken from the input all the same. -/
def decode : Decoder Opcode
  | [] => (.error .endOfInput, [])
  | byte :: rest => (ofByte byte, rest)

end Opcode

/-- One **record** of a compiled script. -/
inductive Record where
  /-- Call the function of `target` named by `selector` with the given argument words. -/
  | call (target : Address) (selector : Selector) (words : List Word)
  /-- One byte of padding. -/
  | pad
  deriving DecidableEq

namespace Record

/-- The opcode with which a record starts. -/
def opcode : Record → Opcode
  | .call .. => .call
  | .pad => .pad

/-! ## Writing -/

/-- The number of bytes of a payload: a selector and its argument words. -/
def payloadLength (words : List Word) : Nat :=
  4 + 32 * words.length

/-- The greatest payload length that fits in its four bytes. -/
def maxPayloadLength : Nat := 0xFFFFFFFF

/-- A record **fits** when the length of its payload can be written in four bytes. -/
def Fits : Record → Prop
  | .call _ _ words => payloadLength words ≤ maxPayloadLength
  | .pad => True

/-- The bytes of a record. -/
def encode : Record → Bytes
  | .call target selector words =>
    Opcode.call.toByte :: (target.bytes.toList ++ Bytes.bigEndian 4 (payloadLength words) ++
      selector.bytes.toList ++ words.flatMap fun word => word.bytes.toList)
  | .pad => [Opcode.pad.toByte]

/-- The number of bytes of a record, counted field by field without writing it. -/
def size : Record → Nat
  | .call _ _ words => 1 + 20 + 4 + payloadLength words
  | .pad => 1

/-- The bytes of a stream of records. -/
def encodeAll (records : List Record) : Bytes :=
  records.flatMap encode

/-- The number of bytes of a stream of records. -/
def sizeAll (records : List Record) : Nat :=
  records.foldr (fun record total => record.size + total) 0

/-- Write a record to a sink, field by field. -/
def writeTo {σ : Type} [Sink σ] (record : Record) (sink : σ) : σ :=
  let sink := Sink.write sink [record.opcode.toByte]
  match record with
  | .pad => sink
  | .call target selector words =>
    let sink := Encode.writeTo target sink
    let sink := Sink.write sink (Bytes.bigEndian 4 (payloadLength words))
    let sink := Encode.writeTo selector sink
    Encode.writeTo words sink

/-- A record is written field by field. -/
instance : Encode Record where
  writeTo := writeTo
  map_writeTo hf record sink := by
    cases record with
    | pad => exact hf.map_write sink _
    | call target selector words => simp only [writeTo, Encode.map_writeTo hf, hf.map_write]

/-! ## Reading -/

/-- Read the selector and the words of a payload of the given length. -/
def decodePayload (length : Nat) : Decoder (Selector × List Word) :=
  if length < 4 then Decoder.fail .shortPayload
  else if (length - 4) % 32 ≠ 0 then Decoder.fail .raggedPayload
  else do
    let selector ← Decoder.block 4
    let words ← Decoder.repeated (Word.mk <$> Decoder.block 32) ((length - 4) / 32)
    return (⟨selector⟩, words)

/-- Read what follows the opcode of a record. The whole payload is taken before it is looked at. -/
def decodeBody : Opcode → Decoder Record
  | .pad => pure .pad
  | .call => do
    let target ← Decoder.block 20
    let length ← Decoder.length
    let payload ← Decoder.take length
    let (selector, words) ← Decoder.within payload (decodePayload length)
    return .call ⟨target⟩ selector words

/-- Read one record. A failing read leaves the input after the fields it could take. -/
def decode : Decoder Record := do
  decodeBody (← Opcode.decode)

theorem advances_decodeBody (opcode : Opcode) : (decodeBody opcode).Advances := by
  cases opcode with
  | pad => exact Decoder.advances_pure _
  | call =>
    exact (Decoder.advances_block 20).bind fun _ => Decoder.advances_length.bind fun length =>
      (Decoder.advances_take length).bind fun _ => (Decoder.advances_within _ _).bind fun _ =>
        Decoder.advances_pure _

/-- What is left after a record is a suffix of the input without its first byte. -/
theorem decode_suffix_tail (byte : UInt8) (input : Bytes) : (decode (byte :: input)).2 <:+ input := by
  change (Decoder.bind Opcode.decode decodeBody (byte :: input)).2 <:+ input
  unfold Decoder.bind
  split
  · next opcode rest h =>
    obtain rfl : input = rest := congrArg Prod.snd h
    exact advances_decodeBody opcode input
  · next e rest h =>
    obtain rfl : input = rest := congrArg Prod.snd h
    exact List.suffix_refl input

end Record

/-- Read records until the input is used up. The first record that cannot be read decides the error. -/
def disassemble : Bytes → Except DecodeError (List Record)
  | [] => .ok []
  | byte :: input =>
    match h : Record.decode (byte :: input) with
    | (.ok record, rest) =>
      have : rest.length ≤ input.length := by
        simpa [h] using (Record.decode_suffix_tail byte input).length_le
      (disassemble rest).map (record :: ·)
    | (.error e, _) => .error e
termination_by input => input.length

end CallScript
