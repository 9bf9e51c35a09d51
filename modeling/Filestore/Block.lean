import Filestore.Bytes
import Filestore.Error
import Filestore.Slab.Basic

/-!
# `Filestore.Block`: one segment of a file

A `Block` holds up to `capacity` bytes and the handles of its neighbours in the file. That the
bytes fit is part of the type, so no operation can overfill a block and no proof has to carry the
bound along. Writing overwrites bytes in place and extends the segment past its end, up to the
capacity; reading stops at the end of the segment; truncating and filling with zeros are the two
ways in which a segment changes its length without being written to.

`allocate` is the only way to get a block that can fail: a buffer of `Block.maxBuffer` bytes or
less can always be had here, and a longer one never. Memory that runs out before that is not a
result that a program can rely on, so it is no result of this definition either.

How many bytes an operation stores is a definition of its own beside it (`writeCount`,
`zeroCount`), because the accounts of the file are kept by these numbers. The lemmas say what each
operation does to `occupied`, which is all that the size of a file depends on.
-/

set_option autoImplicit false

namespace Filestore

/-- The handle of a block in the storage of blocks. -/
abbrev BlockId := Handle

/-- One segment of a file's byte string. -/
structure Block where
  /-- The bytes held so far. -/
  bytes : Bytes
  /-- How many bytes fit. -/
  capacity : Nat
  /-- The block before this one in the file. -/
  prev : Option BlockId
  /-- The block after this one in the file. -/
  next : Option BlockId
  /-- The bytes fit. -/
  fits : bytes.length ≤ capacity
  deriving DecidableEq, Repr

namespace Block

/-- The largest number of bytes that one buffer can be asked to hold. -/
def maxBuffer : Nat := 9223372036854775807

/-- An empty block, unless no buffer of that capacity can exist. -/
def allocate (capacity : Nat) : Except Error Block :=
  if capacity ≤ maxBuffer then .ok ⟨[], capacity, none, none, Nat.zero_le _⟩
  else .error .oversizedBuffer

/-- The number of bytes held. -/
def occupied (block : Block) : Nat := block.bytes.length

/-- The number of bytes that still fit. -/
def room (block : Block) : Nat := block.capacity - block.occupied

/-- Whether no byte more fits. -/
def isFull (block : Block) : Bool := block.occupied == block.capacity

/-- Those of the bytes `src` that a write at `offset` stores: the ones before the capacity. -/
def accepted (block : Block) (offset : Nat) (src : Bytes) : Bytes :=
  src.take (block.capacity - offset)

/-- How many of the bytes `src` a write at `offset` stores. -/
def writeCount (block : Block) (offset : Nat) (src : Bytes) : Nat :=
  (block.accepted offset src).length

/-- A write stores no more than there is and no more than fits: the number of bytes stored is the
smaller one of the two. -/
theorem writeCount_eq_min (block : Block) (offset : Nat) (src : Bytes) :
    block.writeCount offset src = min src.length (block.capacity - offset) := by
  rw [writeCount, accepted, List.length_take, Nat.min_comm]

/-- Stores `src` from `offset` on, over the bytes there and past the end, up to the capacity.
The offset is at most the number of bytes held. -/
def writeAt (block : Block) (offset : Nat) (src : Bytes) : Block :=
  { block with
    bytes := block.bytes.take offset
      ++ (block.accepted offset src).overwrite (block.bytes.drop offset)
    fits := by
      have := block.fits
      simp only [accepted, Bytes.length_overwrite, List.length_append, List.length_take,
        List.length_drop]
      omega }

/-- At most `len` of the bytes from `offset` on. -/
def readAt (block : Block) (offset len : Nat) : Bytes :=
  (block.bytes.drop offset).take len

/-- Keeps the first `len` bytes. -/
def truncate (block : Block) (len : Nat) : Block :=
  { block with
    bytes := block.bytes.take len
    fits := by
      have := block.fits
      simp only [List.length_take]
      omega }

/-- How many of `len` zeros fit. -/
def zeroCount (block : Block) (len : Nat) : Nat := min len block.room

/-- Appends `len` zeros, or as many of them as fit. -/
def zeroFill (block : Block) (len : Nat) : Block :=
  { block with
    bytes := block.bytes ++ List.replicate (block.zeroCount len) 0
    fits := by
      have := block.fits
      simp only [zeroCount, room, occupied, List.length_append, List.length_replicate]
      omega }

/-- A truncated block holds no more than it is cut to, and one that held no more than that before
holds what it held. -/
@[simp] theorem occupied_truncate (block : Block) (len : Nat) :
    (block.truncate len).occupied = min len block.occupied := by
  simp [truncate, occupied]

/-- Filling counts the zeros that fit: as many bytes are added as `zeroCount` says, which is how
the file counts them too. -/
@[simp] theorem occupied_zeroFill (block : Block) (len : Nat) :
    (block.zeroFill len).occupied = block.occupied + block.zeroCount len := by
  simp [zeroFill, occupied]

/-- A write counts only what goes past the end of the segment. The offset is at most that end,
since a cursor never stands further on. -/
theorem occupied_writeAt {block : Block} {offset : Nat} (h : offset ≤ block.occupied)
    (src : Bytes) :
    (block.writeAt offset src).occupied
      = max block.occupied (offset + block.writeCount offset src) := by
  simp only [occupied, writeAt, writeCount, Bytes.length_overwrite, List.length_append,
    List.length_take, List.length_drop] at h ⊢
  omega

/-- A read gives as many bytes as are asked for, as far as there is something to read from the
offset on. -/
@[simp] theorem length_readAt (block : Block) (offset len : Nat) :
    (block.readAt offset len).length = min len (block.occupied - offset) := by
  simp [readAt, occupied]

/-- Joins the block to the one after it. -/
def linkNext (block : Block) (next : Option BlockId) : Block := { block with next }

/-- Joins the block to the one before it. -/
def linkPrev (block : Block) (prev : Option BlockId) : Block := { block with prev }

end Block

end Filestore
