import Filestore.Bytes

/-!
# `Filestore.Blake3`: the hash function

BLAKE3 of a byte string, 32 bytes long. The input is cut into chunks of 1024 bytes and each chunk
into blocks of 64. The blocks of a chunk are compressed one after another into a chaining value;
the chunks are the leaves of a binary tree in which every left subtree is the largest complete one
that leaves a chunk for the right. `Node` is a compression not yet done, because the last one, at
the root, is done under a flag of its own.

Only plain hashing is here. Keyed hashing, key derivation and outputs longer than 32 bytes have
flags and starting words of their own, and nothing in the store asks for them. A digest is of
contents that are in storage as a whole, so the hash takes the whole input at once and has no
state to carry between pieces of it.

The recursion over the chunks (`tree`) ends because neither side of a split is empty:
`leftCount_pos` and `leftCount_lt`. Nothing that is proved about the store depends on which
function the hash is: a digest is the value of one function of the contents, whatever else it is.
-/

set_option autoImplicit false

namespace Filestore

/-- The byte string cut into segments of `size + 1` bytes, the last of which may be shorter. -/
def Bytes.segments (size : Nat) (bytes : Bytes) : List Bytes :=
  match bytes with
  | [] => []
  | byte :: rest =>
    (byte :: rest).take (size + 1) :: Bytes.segments size (rest.drop size)
termination_by bytes.length
decreasing_by
  simp only [List.length_cons, List.length_drop]
  omega

namespace Blake3

/-- Eight words that carry the hash from one compression to the next. -/
abbrev ChainingValue := Vector UInt32 8

/-- The sixteen words of a block, or of the state that a compression works on. -/
abbrev Words := Vector UInt32 16

/-- The chaining value that every chunk starts from. -/
def start : ChainingValue :=
  #v[0x6A09E667, 0xBB67AE85, 0x3C6EF372, 0xA54FF53A,
    0x510E527F, 0x9B05688C, 0x1F83D9AB, 0x5BE0CD19]

/-- The place from which each word of a block comes after a round. -/
def permutation : Vector (Fin 16) 16 :=
  #v[2, 6, 3, 10, 7, 0, 4, 13, 1, 11, 12, 5, 9, 14, 15, 8]

/-- Marks the first block of a chunk. -/
def chunkStart : UInt32 := 1

/-- Marks the last block of a chunk. -/
def chunkEnd : UInt32 := 2

/-- Marks an inner node of the tree. -/
def parentFlag : UInt32 := 4

/-- Marks the root of the tree. -/
def rootFlag : UInt32 := 8

/-- A word turned right by `count` bits, for a count between 1 and 31. -/
def rotateRight (word count : UInt32) : UInt32 :=
  (word >>> count) ||| (word <<< (32 - count))

/-- Mixes two words of a block into four words of the state. -/
def mix (state : Words) (a b c d : Fin 16) (x y : UInt32) : Words :=
  let va := state[a] + state[b] + x
  let vd := rotateRight (state[d] ^^^ va) 16
  let vc := state[c] + vd
  let vb := rotateRight (state[b] ^^^ vc) 12
  let va := va + vb + y
  let vd := rotateRight (vd ^^^ va) 8
  let vc := vc + vd
  let vb := rotateRight (vb ^^^ vc) 7
  (((state.set a va a.isLt).set b vb b.isLt).set c vc c.isLt).set d vd d.isLt

/-- Mixes a block into the columns of the state, then into its diagonals. -/
def round (state block : Words) : Words :=
  let state := mix state 0 4 8 12 block[0] block[1]
  let state := mix state 1 5 9 13 block[2] block[3]
  let state := mix state 2 6 10 14 block[4] block[5]
  let state := mix state 3 7 11 15 block[6] block[7]
  let state := mix state 0 5 10 15 block[8] block[9]
  let state := mix state 1 6 11 12 block[10] block[11]
  let state := mix state 2 7 8 13 block[12] block[13]
  mix state 3 4 9 14 block[14] block[15]

/-- The words of a block in the order of the next round. -/
def permute (block : Words) : Words := permutation.map fun i => block[i]

/-- A number of rounds, each with the words of the block in a new order. -/
def rounds : Nat → Words → Words → Words
  | 0, state, _ => state
  | count + 1, state, block => rounds count (round state block) (permute block)

/-- A compression not yet done. -/
structure Node where
  /-- The chaining value it starts from. -/
  input : ChainingValue
  /-- The block. -/
  block : Words
  /-- The number of the chunk, zero for an inner node. -/
  counter : Nat
  /-- How many bytes of the block are data. -/
  length : Nat
  /-- What the block is. -/
  flags : UInt32

/-- The chaining value a compression yields, with more flags set. -/
def Node.compress (node : Node) (flags : UInt32) : ChainingValue :=
  let state : Words := #v[
    node.input[0], node.input[1], node.input[2], node.input[3],
    node.input[4], node.input[5], node.input[6], node.input[7],
    start[0], start[1], start[2], start[3],
    UInt32.ofNat node.counter, UInt32.ofNat (node.counter / 4294967296),
    UInt32.ofNat node.length, node.flags ||| flags]
  let final := rounds 7 state node.block
  Vector.ofFn fun i : Fin 8 => final[i.val] ^^^ final[i.val + 8]

/-- Four bytes as a word, the lowest byte first. -/
def word (bytes : Array UInt8) (index : Nat) : UInt32 :=
  let byte (k : Nat) : UInt32 := (bytes.getD (4 * index + k) 0).toUInt32
  byte 0 ||| (byte 1 <<< 8) ||| (byte 2 <<< 16) ||| (byte 3 <<< 24)

/-- At most 64 bytes as the words of a block, filled up with zeros. -/
def blockWords (bytes : Bytes) : Words :=
  let bytes := bytes.toArray
  Vector.ofFn fun i : Fin 16 => word bytes i.val

/-- The node of a chunk from its blocks, with the flags its next block starts with. -/
def chunkFrom (counter : Nat) (input : ChainingValue) (flags : UInt32) : List Bytes → Node
  | [] => ⟨input, blockWords [], counter, 0, flags ||| chunkEnd⟩
  | [block] => ⟨input, blockWords block, counter, block.length, flags ||| chunkEnd⟩
  | block :: rest =>
    let node : Node := ⟨input, blockWords block, counter, block.length, flags⟩
    chunkFrom counter (node.compress 0) 0 rest

/-- The node of the chunk with the given number. -/
def chunk (counter : Nat) (bytes : Bytes) : Node :=
  chunkFrom counter start chunkStart (bytes.segments 63)

/-- The node above two others. -/
def parent (left right : Node) : Node :=
  ⟨start, (left.compress 0 ++ right.compress 0).cast (by decide), 0, 64, parentFlag⟩

/-- How many of `count` chunks go to the left: the largest power of two that leaves one for the
right. -/
def leftCount (count : Nat) : Nat := Nat.pow 2 (count - 1).log2

/-- The left side of a split is not empty, so the right side has fewer chunks than there were: one
half of why the recursion over the tree ends. -/
theorem leftCount_pos (count : Nat) : 0 < leftCount count :=
  Nat.two_pow_pos _

/-- The right side of a split is not empty where there are two chunks or more, so the left side
has fewer chunks than there were: the other half of why the recursion over the tree ends. -/
theorem leftCount_lt {count : Nat} (h : 2 ≤ count) : leftCount count < count := by
  have hle : leftCount count ≤ count - 1 := Nat.log2_self_le (by omega)
  omega

/-- The node above a list of chunks, numbered from `first`. -/
def tree (first : Nat) (chunks : List Bytes) : Node :=
  match chunks with
  | [] => chunk first []
  | [bytes] => chunk first bytes
  | one :: two :: rest =>
    let left := leftCount (rest.length + 2)
    parent (tree first ((one :: two :: rest).take left))
      (tree (first + left) ((one :: two :: rest).drop left))
termination_by chunks.length
decreasing_by
  · have := leftCount_lt (show 2 ≤ rest.length + 2 by omega)
    simp only [List.length_take, List.length_cons] at *
    omega
  · have := leftCount_pos (rest.length + 2)
    simp only [List.length_drop, List.length_cons] at *
    omega

/-- A word as four bytes, the lowest first. -/
def wordBytes (w : UInt32) : Bytes :=
  [w.toUInt8, (w >>> 8).toUInt8, (w >>> 16).toUInt8, (w >>> 24).toUInt8]

/-- The hash of a byte string, 32 bytes long. -/
def hash (bytes : Bytes) : Bytes :=
  ((tree 0 (bytes.segments 1023)).compress rootFlag).toList.flatMap wordBytes

end Blake3

end Filestore
