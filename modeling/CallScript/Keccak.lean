import CallScript.Bytes.Block

/-! # Keccak-256

The hash from which function selectors are taken: the sponge over the 1600-bit Keccak permutation
with rate 136 bytes, padding byte `0x01` and a 32-byte digest.

* **`State`** is the permutation's state of 25 lanes, lane `x + 5 * y` standing in column `x`, row `y`.
* **`permute`** is the permutation, **`absorb`** takes up one block of input.
* **`digest`** hashes a message; a **`Hasher`** does so while the message comes in pieces. -/

namespace CallScript.Keccak

/-- The 25 **lanes** of the permutation; lane `x + 5 * y` stands in column `x` and row `y`. -/
abbrev State := Vector UInt64 25

/-- The number of input bytes taken up between two permutations. -/
def rate : Nat := 136

/-- A lane turned left by a number of bits below 64. -/
def rotateLeft (lane : UInt64) (bits : UInt64) : UInt64 :=
  lane <<< bits ||| lane >>> (64 - bits)

/-! ## The permutation -/

/-- By how many bits each lane is turned in every round. -/
def rotations : Vector UInt64 25 := #v[
  0, 1, 62, 28, 27,
  36, 44, 6, 55, 20,
  3, 10, 43, 25, 39,
  41, 45, 15, 21, 8,
  18, 2, 61, 56, 14]

/-- The constants that tell the 24 rounds apart. -/
def roundConstants : List UInt64 := [
  0x0000000000000001, 0x0000000000008082, 0x800000000000808A, 0x8000000080008000,
  0x000000000000808B, 0x0000000080000001, 0x8000000080008081, 0x8000000000008009,
  0x000000000000008A, 0x0000000000000088, 0x0000000080008009, 0x000000008000000A,
  0x000000008000808B, 0x800000000000008B, 0x8000000000008089, 0x8000000000008003,
  0x8000000000008002, 0x8000000000000080, 0x000000000000800A, 0x800000008000000A,
  0x8000000080008081, 0x8000000000008080, 0x0000000080000001, 0x8000000080008008]

/-- The parity of each column. -/
def parities (state : State) : Vector UInt64 5 :=
  Vector.ofFn fun x =>
    state[x.val] ^^^ state[x.val + 5] ^^^ state[x.val + 10] ^^^ state[x.val + 15] ^^^ state[x.val + 20]

/-- Mix into every lane the parities of the column before it and of the turned column after it. -/
def mixColumns (state : State) : State :=
  let parity := parities state
  let change : Vector UInt64 5 := Vector.ofFn fun x =>
    parity[(x.val + 4) % 5] ^^^ rotateLeft parity[(x.val + 1) % 5] 1
  Vector.ofFn fun i => state[i] ^^^ change[i.val % 5]

/-- Turn every lane and carry the lane in column `x`, row `y` to column `y`, row `2 * x + 3 * y`. -/
def scatter (state : State) : State :=
  Vector.ofFn fun i =>
    let source : Fin 25 := ⟨(i.val % 5 + 3 * (i.val / 5)) % 5 + 5 * (i.val % 5), by omega⟩
    rotateLeft state[source] rotations[source]

/-- Combine every lane with the next two of its row. -/
def mixRows (state : State) : State :=
  Vector.ofFn fun i =>
    let row : Fin 5 := ⟨i.val / 5, by omega⟩
    state[i] ^^^
      (~~~ state[5 * row.val + (i.val + 1) % 5] &&& state[5 * row.val + (i.val + 2) % 5])

/-- One round: mix the columns, scatter the lanes, mix the rows and add the round's constant. -/
def round (state : State) (constant : UInt64) : State :=
  let mixed := mixRows (scatter (mixColumns state))
  mixed.set 0 (mixed[0] ^^^ constant)

/-- The Keccak **permutation** of 24 rounds. -/
def permute (state : State) : State :=
  roundConstants.foldl round state

/-! ## The sponge -/

/-- Eight bytes as a lane, least significant byte first. Missing bytes count as zero. -/
def laneOfBytes (bytes : Bytes) : UInt64 :=
  (bytes.take 8).foldr (fun byte lane => lane <<< 8 ||| byte.toUInt64) 0

/-- The eight bytes of a lane, least significant byte first. -/
def bytesOfLane (lane : UInt64) : Bytes :=
  [lane.toUInt8, (lane >>> 8).toUInt8, (lane >>> 16).toUInt8, (lane >>> 24).toUInt8,
    (lane >>> 32).toUInt8, (lane >>> 40).toUInt8, (lane >>> 48).toUInt8, (lane >>> 56).toUInt8]

/-- Take up one block of `rate` bytes: add it to the first lanes and permute. -/
def absorb (state : State) (block : Bytes) : State :=
  permute <| Vector.ofFn fun i =>
    if i.val < rate / 8 then state[i] ^^^ laneOfBytes (block.drop (8 * i.val)) else state[i]

/-- The bytes appended to a message of the given length to fill its last block: they start with
`0x01`, and the last of them has its top bit set. -/
def padding (length : Nat) : Bytes :=
  match rate - length % rate with
  | free + 2 => 0x01 :: (List.replicate free 0x00 ++ [0x80])
  | _ => [0x81]

/-- The first `count` blocks of `rate` bytes. -/
def blocks : (count : Nat) → Bytes → List Bytes
  | 0, _ => []
  | count + 1, bytes => bytes.take rate :: blocks count (bytes.drop rate)

/-- What is read off a state at the end: the bytes of its first four lanes. -/
def squeeze (state : State) : Block 32 :=
  ⟨bytesOfLane state[0] ++ bytesOfLane state[1] ++ bytesOfLane state[2] ++ bytesOfLane state[3],
    by simp [bytesOfLane]⟩

/-- The state before the first block. -/
def initial : State := Vector.replicate 25 0

/-- The Keccak-256 **digest** of a message. -/
def digest (message : Bytes) : Block 32 :=
  let padded := blocks (message.length / rate + 1) (message ++ padding message.length)
  squeeze (padded.foldl absorb initial)

/-! ## Messages in pieces -/

/-- A **hasher** has taken up the full blocks of what it was fed, and keeps the bytes after them. -/
structure Hasher where
  /-- The state after the full blocks. -/
  state : State
  /-- The bytes after the full blocks. -/
  pending : Bytes
  /-- The bytes after the full blocks do not fill another one. -/
  length_pending_lt : pending.length < rate

namespace Hasher

/-- The hasher that was fed nothing. -/
def start : Hasher := ⟨initial, [], by decide⟩

/-- Feed one more piece of the message: the blocks that are full now are taken up. -/
def feed (hasher : Hasher) (piece : Bytes) : Hasher :=
  let bytes := hasher.pending ++ piece
  let count := bytes.length / rate
  { state := (blocks count bytes).foldl absorb hasher.state
    pending := bytes.drop (rate * count)
    length_pending_lt := by
      rw [List.length_drop, ← Nat.mod_eq_sub_mul_div]
      exact Nat.mod_lt _ (by decide) }

/-- Fill the last block and read off the digest. -/
def finish (hasher : Hasher) : Block 32 :=
  squeeze (absorb hasher.state (hasher.pending ++ padding hasher.pending.length))

/-- The digest of a message that is fed piece by piece. -/
def digestPieces (pieces : List Bytes) : Block 32 :=
  (pieces.foldl feed start).finish

end Hasher

end CallScript.Keccak
