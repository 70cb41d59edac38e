import CallScript.Bytes.Block

/-! # Writing to sinks

An encoding is written piece by piece, to whatever takes the pieces: a byte sequence that grows, or a
counter that only adds up their lengths.

* **`Sink`** is what can be written to; byte sequences and **`SizeCounter`** are sinks.
* **`Encode`** is a kind of value with an encoding, which is the same for all sinks.
* **`Encode.toBytes`** is the encoding and **`Encode.encodedLength`** its length, counted without
  keeping a byte of it. -/

namespace CallScript

/-! ## Sinks -/

/-- A **sink** takes bytes, one piece after another. -/
class Sink (σ : Type) where
  /-- The sink after one more piece. -/
  write : σ → Bytes → σ

namespace Sink

variable {σ τ : Type} [Sink σ] [Sink τ]

/-- A map between sinks **keeps writes** when it makes no difference whether a piece is written
before it or after it. -/
def KeepsWrites (f : σ → τ) : Prop :=
  ∀ sink piece, f (write sink piece) = write (f sink) piece

theorem KeepsWrites.map_write {f : σ → τ} (hf : KeepsWrites f) (sink : σ) (piece : Bytes) :
    f (write sink piece) = write (f sink) piece :=
  hf sink piece

end Sink

/-- Pieces are appended to a byte sequence. -/
instance : Sink Bytes where
  write out piece := out ++ piece

/-- A **size counter** is a sink that keeps the number of bytes and none of the bytes. -/
structure SizeCounter where
  /-- The number of bytes so far. -/
  count : Nat
  deriving DecidableEq

/-- The counter to which nothing has been written. -/
def SizeCounter.zero : SizeCounter := ⟨0⟩

/-- A size counter goes up by the length of each piece. -/
instance : Sink SizeCounter where
  write counter piece := ⟨counter.count + piece.length⟩

/-! ## Encodings -/

/-- A kind of value with an **encoding**. How a value is written does not depend on the sink: writing
commutes with every map between sinks that keeps writes. -/
class Encode (α : Type) where
  /-- The sink after a value has been written to it. -/
  writeTo {σ : Type} [Sink σ] (value : α) (sink : σ) : σ
  /-- A value is written in the same pieces to every sink. -/
  map_writeTo {σ τ : Type} [Sink σ] [Sink τ] {f : σ → τ} (hf : Sink.KeepsWrites f) (value : α)
    (sink : σ) : f (writeTo value sink) = writeTo value (f sink)

namespace Encode

/-- The encoding in which the bytes of a value are written in one piece. -/
abbrev inOnePiece {α : Type} (bytes : α → Bytes) : Encode α where
  writeTo value sink := Sink.write sink (bytes value)
  map_writeTo hf value sink := hf.map_write sink (bytes value)

/-- Values in a row are written one after another. -/
instance {α : Type} [Encode α] : Encode (List α) where
  writeTo values sink := values.foldl (fun sink value => writeTo value sink) sink
  map_writeTo hf values sink := by
    refine (List.foldl_hom _ ?_).symm
    intro sink value
    exact (map_writeTo hf value sink).symm

/-- The bytes that are written for a value. -/
def toBytes {α : Type} [Encode α] (value : α) : Bytes :=
  writeTo value ([] : Bytes)

/-- The number of bytes that are written for a value, as a size counter has it. -/
def encodedLength {α : Type} [Encode α] (value : α) : Nat :=
  (writeTo value SizeCounter.zero).count

end Encode

end CallScript
