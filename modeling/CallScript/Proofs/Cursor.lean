import CallScript.Proofs.RecordStream
import Mathlib.Data.List.Chain

/-! # Reads in any order at one cursor

A cursor over bytes at which reads of all kinds follow each other, also after reads that failed.
Every read is accounted for: the bytes that it removes are those of the value that it returns.

* **`Decoder.Needs`**: a decoder fails exactly on inputs that are too short, and then reads nothing.
* **`Cursor.Read`** is a kind of read, **`Read.decoder`** does it, and **`Read.encode`** writes what
  it returns.
* **`Cursor.Step`** is what came of one read, and **`Step.Accounts`** says that nothing is lost or
  invented by it.
* **`Cursor.steps`** are the steps of reads in a row at one cursor, and **`Cursor.remaining`** is
  what they leave.
* **`Cursor.steps_account`**: every step accounts for what it reads, and together they account for
  the whole input. -/

namespace CallScript

/-! ## Decoders of a fixed number of bytes -/

namespace Decoder

variable {α β : Type} {decoder : Decoder α} {count : Nat}

/-- A decoder **needs** a number of bytes when it takes as many from an input that has them, and
fails on every shorter input without reading. -/
def Needs (decoder : Decoder α) (count : Nat) : Prop :=
  ∀ input, (input.length < count → decoder input = (.error .endOfInput, input)) ∧
    (count ≤ input.length → ∃ a, decoder input = (.ok a, input.drop count))

theorem needs_take (count : Nat) : (take count).Needs count := by
  intro input
  refine ⟨take_of_lt, fun hle => ⟨input.take count, ?_⟩⟩
  rw [take, if_pos (by simpa using hle)]

theorem needs_block (count : Nat) : (block count).Needs count := by
  intro input
  refine ⟨block_of_lt, fun hle => ?_⟩
  have hlength : (input.take count).length = count := by simpa using hle
  exact ⟨⟨input.take count, hlength⟩, by rw [block, dif_pos hlength]⟩

/-- A function of what is read needs the same bytes. -/
theorem Needs.map (h : decoder.Needs count) (f : α → β) : (f <$> decoder).Needs count := by
  intro input
  constructor
  · intro hlt
    exact bind_of_error ((h input).1 hlt)
  · intro hle
    obtain ⟨a, hread⟩ := (h input).2 hle
    exact ⟨f a, map_eq_ok_iff.2 ⟨a, hread, rfl⟩⟩

end Decoder

namespace Cursor

/-! ## Kinds of reads -/

/-- A kind of **read**. -/
inductive Read where
  /-- So many bytes. -/
  | bytes (count : Nat)
  /-- A block of so many bytes. -/
  | block (count : Nat)
  /-- A length. -/
  | length
  /-- An address. -/
  | address
  /-- A selector. -/
  | selector
  /-- A word. -/
  | word
  /-- A record. -/
  | record
  deriving DecidableEq

namespace Read

/-- What a read returns. -/
abbrev Value : Read → Type
  | .bytes _ => Bytes
  | .block count => Block count
  | .length => Nat
  | .address => Address
  | .selector => Selector
  | .word => Word
  | .record => Record

/-- The decoder for a read. -/
def decoder : (read : Read) → Decoder read.Value
  | .bytes count => Decoder.take count
  | .block count => Decoder.block count
  | .length => Decoder.length
  | .address => Address.mk <$> Decoder.block 20
  | .selector => Selector.mk <$> Decoder.block 4
  | .word => Word.mk <$> Decoder.block 32
  | .record => Record.decode

/-- The bytes of a value that a read returns. -/
def encode : (read : Read) → read.Value → Bytes
  | .bytes _, value => value
  | .block _, value => value.toList
  | .length, value => Bytes.bigEndian 4 value
  | .address, value => value.bytes.toList
  | .selector, value => value.bytes.toList
  | .word, value => value.bytes.toList
  | .record, value => value.encode

/-- What a read can return: as many bytes as were asked for, a length that fits in four bytes, and a
record that fits. -/
def Fits : (read : Read) → read.Value → Prop
  | .bytes count, value => value.length = count
  | .length, value => value < 256 ^ 4
  | .record, value => value.Fits
  | _, _ => True

/-- The number of bytes that a read needs. How many a record needs is for its bytes to say. -/
def need? : Read → Option Nat
  | .bytes count => some count
  | .block count => some count
  | .length => some 4
  | .address => some 20
  | .selector => some 4
  | .word => some 32
  | .record => none

variable {read : Read}

/-- Reads other than that of a record need as many bytes as is said of them. -/
theorem needs_of_need? {count : Nat} (h : read.need? = some count) : read.decoder.Needs count := by
  cases read with
  | bytes => cases h; exact Decoder.needs_take count
  | block => cases h; exact Decoder.needs_block count
  | length => cases h; exact (Decoder.needs_block 4).map _
  | address => cases h; exact (Decoder.needs_block 20).map _
  | selector => cases h; exact (Decoder.needs_block 4).map _
  | word => cases h; exact (Decoder.needs_block 32).map _
  | record => cases h

/-- Only a record does not say beforehand how many bytes it needs. -/
theorem need?_eq_none_iff : read.need? = none ↔ read = .record := by
  cases read <;> simp [need?]

/-- A read inverts the writing of what it returns. -/
theorem inverts_decoder (read : Read) : read.decoder.Inverts read.Fits read.encode := by
  cases read with
  | bytes count => exact Decoder.inverts_take count
  | block count => exact Decoder.inverts_block count
  | length => exact Decoder.inverts_length
  | address => exact (Decoder.inverts_block 20).map (fun _ => rfl) (fun _ => rfl)
  | selector => exact (Decoder.inverts_block 4).map (fun _ => rfl) (fun _ => rfl)
  | word => exact Record.inverts_word
  | record => exact Record.inverts_decode

/-- What a read leaves is a suffix of its input. -/
theorem advances (read : Read) : read.decoder.Advances := by
  intro input
  cases hneed : read.need? with
  | some count =>
    obtain ⟨hshort, hlong⟩ := needs_of_need? hneed input
    rcases Nat.lt_or_ge input.length count with hlt | hle
    · have hafter : (read.decoder input).2 = input := congrArg Prod.snd (hshort hlt)
      exact ⟨[], hafter⟩
    · obtain ⟨value, hread⟩ := hlong hle
      rw [hread]
      exact List.drop_suffix count input
  | none =>
    obtain rfl := need?_eq_none_iff.1 hneed
    cases input with
    | nil => exact List.suffix_refl []
    | cons byte input => exact (Record.decode_suffix_tail byte input).trans (List.suffix_cons _ _)

end Read

/-! ## Steps -/

/-- What came of one read: what was in front of the cursor before it, what it returned or why it
failed, and what is left. -/
structure Step where
  /-- The kind of read. -/
  read : Read
  /-- The input of the read. -/
  before : Bytes
  /-- What the read returned. -/
  result : Except DecodeError read.Value
  /-- What the read left. -/
  after : Bytes

/-- One read at a cursor in front of the input. -/
def Read.step (read : Read) (input : Bytes) : Step :=
  ⟨read, input, (read.decoder input).1, (read.decoder input).2⟩

/-- A step **accounts** for its input: it neither loses nor invents bytes. -/
structure Step.Accounts (step : Step) : Prop where
  /-- What is left is a suffix. -/
  suffix : step.after <:+ step.before
  /-- A read of a fixed number of bytes fails exactly on a shorter input. -/
  short : ∀ count, step.read.need? = some count →
    (step.result = .error .endOfInput ↔ step.before.length < count)
  /-- If such a read fails then for this reason, and the cursor stays where it is. -/
  failed : ∀ error, step.result = .error error → step.read ≠ .record →
    error = .endOfInput ∧ step.after = step.before
  /-- What a read removes are the bytes of what it returns. -/
  taken : ∀ value, step.result = .ok value →
    step.read.Fits value ∧ step.before = step.read.encode value ++ step.after
  /-- A record that is read has at least one byte. -/
  progress : ∀ value, step.result = .ok value → step.read = .record →
    step.after.length < step.before.length

/-- Every read accounts for its input. -/
theorem Read.accounts_step (read : Read) (input : Bytes) : (read.step input).Accounts := by
  have htaken : ∀ value, (read.step input).result = .ok value →
      read.Fits value ∧ input = read.encode value ++ (read.step input).after :=
    fun value hvalue => (read.inverts_decoder _ _ _).1 (Prod.ext hvalue rfl)
  refine ⟨read.advances input, ?_, ?_, htaken, ?_⟩
  · intro count hneed
    obtain ⟨hshort, hlong⟩ := needs_of_need? hneed input
    rcases Nat.lt_or_ge input.length count with hlt | hle
    · exact iff_of_true (congrArg Prod.fst (hshort hlt)) hlt
    · obtain ⟨value, hread⟩ := hlong hle
      have hresult : (read.step input).result = .ok value := congrArg Prod.fst hread
      exact iff_of_false (by simp [hresult]) (Nat.not_lt.2 hle)
  · intro error herror hrecord
    obtain ⟨count, hneed⟩ := Option.ne_none_iff_exists'.1 fun hnone =>
      hrecord (need?_eq_none_iff.1 hnone)
    obtain ⟨hshort, hlong⟩ := needs_of_need? hneed input
    rcases Nat.lt_or_ge input.length count with hlt | hle
    · have hresult : (read.step input).result = .error .endOfInput := congrArg Prod.fst (hshort hlt)
      exact ⟨Except.error.inj (herror.symm.trans hresult), congrArg Prod.snd (hshort hlt)⟩
    · obtain ⟨value, hread⟩ := hlong hle
      cases herror.symm.trans (congrArg Prod.fst hread)
  · intro value hvalue hrecord
    obtain rfl : read = .record := hrecord
    have hne : 0 < (Record.encode value).length :=
      List.length_pos_of_ne_nil (Record.encode_ne_nil value)
    have hlength := congrArg List.length (htaken value hvalue).2
    rw [List.length_append] at hlength
    change 0 < (Read.record.encode value).length at hne
    change _ < input.length
    omega

/-- A step **takes** the bytes by which what is before it exceeds what is after it: those of what it
returns, and none if a read of a fixed number of bytes fails. -/
structure Step.Takes (step : Step) (piece : Bytes) : Prop where
  /-- The bytes that are removed. -/
  removed : step.before = piece ++ step.after
  /-- The bytes of what is returned. -/
  returned : ∀ value, step.result = .ok value → piece = step.read.encode value
  /-- No bytes for a failure. -/
  nothing : ∀ error, step.result = .error error → step.read ≠ .record → piece = []

/-- A step that accounts for its input takes some bytes. -/
theorem Step.Accounts.exists_takes {step : Step} (h : step.Accounts) :
    ∃ piece, step.Takes piece := by
  obtain ⟨piece, hpiece⟩ := h.suffix
  refine ⟨piece, hpiece.symm, ?_, ?_⟩
  · intro value hvalue
    exact List.append_cancel_right (hpiece.trans (h.taken value hvalue).2)
  · intro error herror hrecord
    have hsame := (h.failed error herror hrecord).2
    rw [hsame] at hpiece
    exact List.append_left_eq_self.1 hpiece

/-! ## Reads in a row -/

/-- The **steps** of reads in a row at one cursor. They go on after a read that fails. -/
def steps : Bytes → List Read → List Step
  | _, [] => []
  | input, read :: reads => read.step input :: steps (read.step input).after reads

/-- What is **remaining** after reads in a row. -/
def remaining : Bytes → List Read → Bytes
  | input, [] => input
  | input, read :: reads => remaining (read.step input).after reads

/-- There is one step for each read. -/
theorem map_read_steps (input : Bytes) (reads : List Read) :
    (steps input reads).map Step.read = reads := by
  induction reads generalizing input with
  | nil => rfl
  | cons read reads ih => exact congrArg (read :: ·) (ih _)

/-- The first step starts from the input. -/
theorem before_of_head?_steps {input : Bytes} {reads : List Read} {step : Step}
    (h : step ∈ (steps input reads).head?) : step.before = input := by
  cases reads with
  | nil => cases h
  | cons read reads =>
    obtain rfl := Option.some.inj h
    rfl

/-- Every step starts from what the step before it leaves. -/
theorem isChain_steps (input : Bytes) (reads : List Read) :
    (steps input reads).IsChain fun step next => next.before = step.after := by
  induction reads generalizing input with
  | nil => exact List.isChain_nil
  | cons read reads ih =>
    exact List.isChain_cons.2 ⟨fun next hnext => before_of_head?_steps hnext, ih _⟩

/-- Every step accounts for its input. -/
theorem accounts_of_mem_steps {input : Bytes} {reads : List Read} {step : Step}
    (h : step ∈ steps input reads) : step.Accounts := by
  induction reads generalizing input with
  | nil => cases h
  | cons read reads ih =>
    rcases List.mem_cons.1 h with rfl | hmem
    · exact read.accounts_step input
    · exact ih hmem

/-- The input is what the steps take, one after the other, and what is remaining. -/
theorem exists_pieces (input : Bytes) (reads : List Read) :
    ∃ pieces, List.Forall₂ Step.Takes (steps input reads) pieces ∧
      input = pieces.flatten ++ remaining input reads := by
  induction reads generalizing input with
  | nil => exact ⟨[], .nil, rfl⟩
  | cons read reads ih =>
    obtain ⟨piece, htakes⟩ := (read.accounts_step input).exists_takes
    obtain ⟨pieces, hpieces, hrest⟩ := ih (read.step input).after
    refine ⟨piece :: pieces, .cons htakes hpieces, ?_⟩
    calc input = piece ++ (read.step input).after := htakes.removed
      _ = piece ++ (pieces.flatten ++ remaining (read.step input).after reads) := by rw [← hrest]
      _ = (piece :: pieces).flatten ++ remaining input (read :: reads) := by
        rw [List.flatten_cons, List.append_assoc]
        rfl

/-- **Reads in any order lose and invent nothing.** Reads of any kinds follow each other at one
cursor, each from what the one before it left, also if that failed. Every one of them accounts for
its input, and the whole input is the bytes that they take, in order, and what is remaining: the bytes
of a value for a read that returns it, and no bytes for a failing read other than that of a
record. -/
theorem steps_account (input : Bytes) (reads : List Read) :
    (steps input reads).map Step.read = reads ∧
      (∀ step ∈ (steps input reads).head?, step.before = input) ∧
      ((steps input reads).IsChain fun step next => next.before = step.after) ∧
      (∀ step ∈ steps input reads, step.Accounts) ∧
      ∃ pieces, List.Forall₂ Step.Takes (steps input reads) pieces ∧
        input = pieces.flatten ++ remaining input reads :=
  ⟨map_read_steps input reads, fun _ => before_of_head?_steps, isChain_steps input reads,
    fun _ => accounts_of_mem_steps, exists_pieces input reads⟩

/-- A padding record, a word for which there are too few bytes, and the bytes that are there. -/
def mixedReads : List Read := [.record, .word, .bytes 2]

/-- The word is not read, and the bytes after it are. -/
theorem mixedReads_account :
    Read.word.step [1, 2] ∈ steps [0xFF, 1, 2] mixedReads ∧
      (Read.word.step [1, 2]).result = .error .endOfInput ∧
      (Read.word.step [1, 2]).Accounts ∧ remaining [0xFF, 1, 2] mixedReads = [] := by
  have hmem : Read.word.step [1, 2] ∈ steps [0xFF, 1, 2] mixedReads := .tail _ (.head _)
  exact ⟨hmem, rfl, (steps_account _ _).2.2.2.1 _ hmem, rfl⟩

end Cursor

end CallScript
