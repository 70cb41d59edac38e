import CallScript.Proofs.Hexadecimal
import CallScript.Proofs.RecordStream
import CallScript.Script.Program

/-! # Counting and writing

The length of an encoding is counted by writing it to a sink that keeps nothing. What is counted is
what would have been written, for every kind of value, because an encoding is the same for all sinks.

* **`Encode.encodedLength_eq_length`**: the counted length is that of the bytes.
* **`Encode.toBytes_list`** and **`Encode.encodedLength_list`**: values in a row are written in a row,
  and their lengths add up.
* **`Record.toBytes_eq`** and **`Record.encodedLength_eq`**: the bytes of a record, field by field,
  and their number.
* **`Script.Program.encodedLength_exact`**: the length of a program, its bytes and its printed form
  go together. -/

namespace CallScript

/-! ## Any encoding -/

namespace SizeCounter

/-- The counter that has counted the given bytes. -/
def ofBytes (bytes : Bytes) : SizeCounter := ⟨bytes.length⟩

/-- Counting bytes and then a piece is counting the bytes with the piece. -/
theorem keepsWrites_ofBytes : Sink.KeepsWrites ofBytes := by
  intro out piece
  show SizeCounter.mk (out ++ piece).length = ⟨out.length + piece.length⟩
  rw [List.length_append]

/-- A head start for a counter stays the same while it counts. -/
theorem keepsWrites_add (start : Nat) :
    Sink.KeepsWrites fun counter : SizeCounter => SizeCounter.mk (start + counter.count) := by
  intro counter piece
  show SizeCounter.mk (start + (counter.count + piece.length)) =
    ⟨start + counter.count + piece.length⟩
  rw [Nat.add_assoc]

end SizeCounter

/-- What stands before a byte sequence stays there while the sequence grows. -/
theorem keepsWrites_append (front : Bytes) :
    Sink.KeepsWrites fun out : Bytes => front ++ out := by
  intro out piece
  exact (List.append_assoc front out piece).symm

namespace Encode

variable {α : Type} [Encode α]

/-- **What is counted is what is written.** -/
theorem encodedLength_eq_length (value : α) : encodedLength value = (toBytes value).length := by
  -- The empty byte sequence has the counter at zero, and writing keeps the two together.
  have h := map_writeTo SizeCounter.keepsWrites_ofBytes value ([] : Bytes)
  exact (congrArg SizeCounter.count h).symm

/-- To a byte sequence, a value is written at its end. -/
theorem writeTo_bytes (value : α) (out : Bytes) : writeTo value out = out ++ toBytes value := by
  have h := map_writeTo (keepsWrites_append out) value ([] : Bytes)
  rw [List.append_nil] at h
  exact h.symm

/-- A size counter goes up by the length of the value. -/
theorem count_writeTo (value : α) (counter : SizeCounter) :
    (writeTo value counter).count = counter.count + encodedLength value := by
  have h := map_writeTo (SizeCounter.keepsWrites_add counter.count) value SizeCounter.zero
  exact (congrArg SizeCounter.count h).symm

/-- Values in a row are written in a row. -/
theorem toBytes_list (values : List α) : toBytes values = values.flatMap toBytes := by
  induction values with
  | nil => rfl
  | cons value values ih =>
    calc toBytes (value :: values)
        = writeTo values (toBytes value) := rfl
      _ = toBytes value ++ toBytes values := writeTo_bytes values (toBytes value)
      _ = (value :: values).flatMap toBytes := by rw [ih, List.flatMap_cons]

/-- The lengths of values in a row add up. -/
theorem encodedLength_list (values : List α) :
    encodedLength values = (values.map encodedLength).sum := by
  induction values with
  | nil => rfl
  | cons value values ih =>
    calc encodedLength (value :: values)
        = (writeTo values (writeTo value SizeCounter.zero)).count := rfl
      _ = encodedLength value + encodedLength values :=
          count_writeTo values (writeTo value SizeCounter.zero)
      _ = ((value :: values).map encodedLength).sum := by rw [ih, List.map_cons, List.sum_cons]

end Encode

/-! ## Records -/

namespace Record

open Encode

/-- The bytes of a record are its fields in a row. -/
theorem toBytes_eq (record : Record) : toBytes record = record.encode := by
  cases record with
  | pad => rfl
  | call target selector words =>
    -- Every field before the words is one piece, so that only the words are left to be written.
    have hwords : toBytes words = words.flatMap fun word => word.bytes.toList := toBytes_list words
    calc toBytes (call target selector words)
        = Encode.writeTo words ((([Opcode.call.toByte] ++ target.bytes.toList) ++
            Bytes.bigEndian 4 (payloadLength words)) ++ selector.bytes.toList) := rfl
      _ = (call target selector words).encode := by
          rw [writeTo_bytes, hwords, encode]
          simp only [List.append_assoc, List.cons_append, List.nil_append]

/-- The bytes of a record are counted field by field. -/
theorem encodedLength_eq (record : Record) : encodedLength record = record.size := by
  rw [encodedLength_eq_length, toBytes_eq, length_encode]

/-- The bytes of a stream are those of its records in a row. -/
theorem toBytes_records (records : List Record) : toBytes records = encodeAll records := by
  have hencode : (toBytes : Record → Bytes) = encode := funext toBytes_eq
  rw [toBytes_list, hencode, encodeAll]

/-- The sizes of the records of a stream add up. -/
theorem encodedLength_records (records : List Record) :
    encodedLength records = (records.map size).sum := by
  have hsize : (encodedLength : Record → Nat) = size := funext encodedLength_eq
  rw [encodedLength_list, hsize]

end Record

/-! ## Programs -/

namespace Script.Program

open Encode

/-- **Counting, writing and printing agree.** For every stream of records, and so for every program,
the number of bytes that a size counter comes to is the number of bytes that are written. It is the
sum of the sizes of the records, which are 1 for a pad and 25 more than the payload for a call. A
program is printed as the marker `0x` and twice as many lowercase hexadecimal digits. -/
theorem encodedLength_exact :
    (∀ records : List Record,
      encodedLength records = (toBytes records).length ∧
      encodedLength records = (records.map Record.size).sum ∧
      toBytes records = Record.encodeAll records ∧
      encodedLength records = Record.sizeAll records) ∧
    (Record.size .pad = 1 ∧ ∀ target selector words,
      (Record.call target selector words).size = 25 + Record.payloadLength words) ∧
    ∀ program : Program,
      encodedLength program = (toBytes program).length ∧
      encodedLength program = (program.records.map Record.size).sum ∧
      toBytes program = program.bytes ∧
      encodedLength program = program.size ∧
      ∃ digits : List Char, program.hex.toList = '0' :: 'x' :: digits ∧
        digits.length = 2 * encodedLength program ∧
        ∀ c ∈ digits, '0' ≤ c ∧ c ≤ '9' ∨ 'a' ≤ c ∧ c ≤ 'f' := by
  have hstream (records : List Record) : encodedLength records = Record.sizeAll records := by
    rw [encodedLength_eq_length, Record.toBytes_records, Record.length_encodeAll]
  refine ⟨?_, ⟨rfl, fun _ _ _ => rfl⟩, ?_⟩
  · intro records
    exact ⟨encodedLength_eq_length records, Record.encodedLength_records records,
      Record.toBytes_records records, hstream records⟩
  · intro program
    have hbytes : toBytes program = program.bytes := Record.toBytes_records program.records
    refine ⟨encodedLength_eq_length program, Record.encodedLength_records program.records, hbytes,
      hstream program.records, Hex.digits program.bytes, toList_hex program, ?_, ?_⟩
    · rw [Hex.length_digits, encodedLength_eq_length, hbytes]
    · intro c hmem
      exact Hex.lowercase_of_mem_digits hmem

end Script.Program

end CallScript
