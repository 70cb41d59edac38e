import CallScript.Script.Signature
import Mathlib.Data.List.Basic

/-! # Hashing in pieces

A message may come in pieces of any length. The digest is that of the whole message, wherever it is
cut.

* **`Keccak.Hasher.Holds`** says what a hasher keeps of the message it was fed;
  **`Keccak.Hasher.Holds.feed`**: feeding a piece appends it to that message.
* **`Keccak.Hasher.digestPieces_eq`**: the digest of the pieces is the digest of the message.
* **`Script.Signature.selector_eq`**: a selector is taken from the digest of the whole signature. -/

namespace CallScript

namespace Keccak

/-! ## Blocks -/

/-- The blocks of a message are its first blocks and the blocks of what follows them. -/
theorem blocks_add (first others : Nat) (bytes : Bytes) :
    blocks (first + others) bytes = blocks first bytes ++ blocks others (bytes.drop (rate * first)) := by
  induction first generalizing bytes with
  | zero => simp [blocks]
  | succ first ih =>
    rw [Nat.add_right_comm, blocks, ih, List.drop_drop, blocks, List.cons_append, Nat.mul_add_one,
      Nat.add_comm rate]

/-- What follows the blocks of a message has no influence on them. -/
theorem blocks_append {count : Nat} {left : Bytes} (h : rate * count ≤ left.length)
    (right : Bytes) : blocks count (left ++ right) = blocks count left := by
  induction count generalizing left with
  | zero => rfl
  | succ count ih =>
    rw [Nat.mul_add_one] at h
    have hrate : rate ≤ left.length := by omega
    have hrest : rate * count ≤ (left.drop rate).length := by
      rw [List.length_drop]
      omega
    rw [blocks, blocks, List.take_append_of_le_length hrate, List.drop_append_of_le_length hrate,
      ih hrest]

/-- Padding fills the last block. -/
theorem length_padding (length : Nat) : (padding length).length = rate - length % rate := by
  have hpos : 0 < rate - length % rate := Nat.sub_pos_of_lt (Nat.mod_lt length (by decide))
  unfold padding
  split
  · next free hfree => simp [hfree]
  · next hfree =>
    -- Only one byte is free, and the marks at both ends of the padding fall together.
    generalize rate - length % rate = free at hpos hfree ⊢
    rcases free with _ | _ | free
    · omega
    · rfl
    · exact absurd rfl (hfree free)

/-- Padding depends on the bytes in the last block only. -/
theorem padding_mod (length : Nat) : padding (length % rate) = padding length := by
  rw [padding, padding, Nat.mod_mod]

/-! ## Hashers -/

namespace Hasher

/-- A hasher **holds** a message when it has taken up the full blocks of the message, and keeps what
comes after them. -/
structure Holds (hasher : Hasher) (message : Bytes) : Prop where
  /-- The full blocks have been taken up. -/
  state : hasher.state = (blocks (message.length / rate) message).foldl absorb initial
  /-- The rest is kept. -/
  pending : hasher.pending = message.drop (rate * (message.length / rate))

/-- A hasher that was fed nothing holds nothing. -/
theorem holds_start : start.Holds [] := ⟨rfl, rfl⟩

/-- The bytes that a hasher keeps are those of the block that is not full. -/
theorem Holds.length_pending {hasher : Hasher} {message : Bytes} (h : hasher.Holds message) :
    hasher.pending.length = message.length % rate := by
  rw [h.pending, List.length_drop, Nat.mod_eq_sub_mul_div]

/-- Feeding a piece appends it to the message. -/
theorem Holds.feed {hasher : Hasher} {message : Bytes} (h : hasher.Holds message) (piece : Bytes) :
    (hasher.feed piece).Holds (message ++ piece) := by
  have hfull : rate * (message.length / rate) ≤ message.length := Nat.mul_div_le _ _
  -- What was kept and the piece are what follows the blocks that had been full before.
  have hbytes : hasher.pending ++ piece =
      (message ++ piece).drop (rate * (message.length / rate)) := by
    rw [h.pending, List.drop_append_of_le_length hfull]
  have hcount : (message ++ piece).length / rate =
      message.length / rate + (hasher.pending ++ piece).length / rate := by
    have hlength : (message ++ piece).length =
        rate * (message.length / rate) + (hasher.pending ++ piece).length := by
      rw [hbytes, List.length_drop, List.length_append]
      omega
    rw [hlength, Nat.mul_add_div (by decide)]
  constructor
  · show (blocks ((hasher.pending ++ piece).length / rate) (hasher.pending ++ piece)).foldl absorb
      hasher.state = _
    rw [hcount, blocks_add, blocks_append hfull, List.foldl_append, ← h.state, ← hbytes]
  · show (hasher.pending ++ piece).drop (rate * ((hasher.pending ++ piece).length / rate)) = _
    rw [hcount, Nat.mul_add, ← List.drop_drop, ← hbytes]

/-- Feeding pieces one after the other appends them all. -/
theorem Holds.foldl_feed {hasher : Hasher} {message : Bytes} (h : hasher.Holds message)
    (pieces : List Bytes) : (pieces.foldl Hasher.feed hasher).Holds (message ++ pieces.flatten) := by
  induction pieces generalizing hasher message with
  | nil => simpa using h
  | cons piece pieces ih =>
    rw [List.foldl_cons, List.flatten_cons, ← List.append_assoc]
    exact ih (h.feed piece)

/-- A hasher finishes with the digest of the message that it holds. -/
theorem Holds.finish_eq {hasher : Hasher} {message : Bytes} (h : hasher.Holds message) :
    hasher.finish = digest message := by
  have hfull : rate * (message.length / rate) ≤ message.length := Nat.mul_div_le _ _
  have hpadding : padding hasher.pending.length = padding message.length := by
    rw [h.length_pending, padding_mod]
  -- The last block of the padded message is what was kept and the padding.
  have hlength : (hasher.pending ++ padding message.length).length = rate := by
    have hrest : message.length % rate < rate := Nat.mod_lt _ (by decide)
    rw [List.length_append, h.length_pending, length_padding]
    omega
  have hlast : blocks 1 (hasher.pending ++ padding message.length) =
      [hasher.pending ++ padding message.length] := by
    rw [blocks, blocks, List.take_of_length_le (Nat.le_of_eq hlength)]
  simp only [finish, digest]
  rw [hpadding, blocks_add, blocks_append hfull, List.drop_append_of_le_length hfull, ← h.pending,
    hlast, List.foldl_append, ← h.state, List.foldl_cons, List.foldl_nil]

/-- **Cutting a message has no influence on its digest.** -/
theorem digestPieces_eq (pieces : List Bytes) : digestPieces pieces = digest pieces.flatten :=
  (holds_start.foldl_feed pieces).finish_eq

end Hasher

end Keccak

/-! ## Selectors -/

/-- The bytes of a selector are the first four of the digest. -/
theorem Selector.bytes_hash (text : List Char) :
    (Selector.hash text).bytes.toList = (Keccak.digest (Text.utf8 text)).toList.take 4 := rfl

/-- The selector of pieces is the selector of the text that they make up. -/
theorem Selector.hashPieces_eq (pieces : List (List Char)) :
    Selector.hashPieces pieces = Selector.hash pieces.flatten := by
  have hutf8 : (pieces.map Text.utf8).flatten = Text.utf8 pieces.flatten := by
    rw [← List.flatMap_def, ← List.flatMap_id]
    exact List.flatMap_assoc.symm
  rw [Selector.hashPieces, Selector.hash]
  simp only [Keccak.Hasher.digestPieces_eq, hutf8]

namespace Script.Signature

/-- The pieces of a signature make up its text. -/
theorem flatten_pieces (signature : Signature) : signature.pieces.flatten = signature.text := by
  simp [pieces, text, List.intercalate]

/-- A selector is taken from the digest of the whole signature. -/
theorem selector_eq (signature : Signature) : signature.selector = Selector.hash signature.text := by
  rw [selector, Selector.hashPieces_eq, flatten_pieces]

end Script.Signature

end CallScript
