import Filestore.File.Basic

/-!
# `Filestore.File.Extent`: how a file gets longer and shorter

`File.link` links a block at the end and `File.appendBlock` an empty one, `File.extendZeros`
appends zeros, `File.truncate` cuts the byte string down and `File.release` gives every block
back. Each takes the file and the storage of blocks and gives both in their new state, also where
it fails: the storage passes from hand to hand, so that it can be changed in place.

An operation can fail in two ways. No block of the capacity can be had: this is `Block.allocate`.
Or a handle of the file has expired, which is a `StaleHandle` that names what was lost: the last
block for `link` and `fillBlock`, the point of the cut for `truncate`. What was done before a
failure stays done: where the last block is lost, the new block is in storage and nothing points
to it, and an extension that fails half-way keeps the zeros it has appended.

The zeros of an extension all come from one block full of them: `linkCopies` links copies of it,
the last one cut, and every full copy shares its bytes. A loop that takes a new block for every
turn and fills it does the same thing one turn at a time, which `Filestore.Proofs.File.ZeroTurns`
shows.
-/

set_option autoImplicit false

namespace Filestore

namespace File

/-- The complaint that the last block of a file is gone. -/
def lostTail (file : File) : Error := .staleHandle ("tail of " ++ file.name)

/-- Links a block after the last one. Also gives its handle. Where the last block is gone, the file
stays as it was, and the new block stays in storage all the same. -/
def link (file : File) (blocks : Slab Block) (block : Block) :
    Except Error BlockId × File × Slab Block :=
  -- The new block points back at once; the last one points on only now that it has a handle.
  let (id, stored) := blocks.insert (block.linkPrev file.tail)
  let longer := { file with tail := some id, blocks := file.blocks + 1 }
  match file.tail with
  | none => (.ok id, { longer with head := some id }, stored)
  | some tail =>
    match stored.get? tail with
    | none => (.error file.lostTail, file, stored)
    | some last => (.ok id, longer, stored.set tail (last.linkNext (some id)))

/-- Links a new empty block after the last one. A file that cannot have the block stays as it
was. -/
def appendBlock (file : File) (blocks : Slab Block) (capacity : Nat) :
    Except Error BlockId × File × Slab Block :=
  match Block.allocate capacity with
  | .error e => (.error e, file, blocks)
  | .ok block => file.link blocks block

/-- Gives every block back. Also gives the number of blocks. -/
def release (file : File) (blocks : Slab Block) : Nat × File × Slab Block :=
  let (count, rest) := Chain.release blocks file.head
  (count, { file with head := none, tail := none, size := 0, blocks := 0 }, rest)

/-- Keeps the first `newSize` bytes and gives back the blocks past them. A file that is no longer
than that stays as it was. -/
def truncate (file : File) (blocks : Slab Block) (newSize : Nat) :
    Except Error Unit × File × Slab Block :=
  if file.size ≤ newSize then (.ok (), file, blocks)
  else if newSize = 0 then (.ok (), (file.release blocks).2)
  else
    let cut := file.locate blocks newSize
    match cut.block with
    | none => (.error (.staleHandle ("truncation point of " ++ file.name)), file, blocks)
    | some last =>
      match blocks.get? last with
      | none => (.error (.staleHandle ("block of " ++ file.name)), file, blocks)
      | some block =>
        -- The links past the cut are followed from the old block, the chain ends at the new one.
        let kept := blocks.set last ((block.truncate cut.offset).linkNext none)
        let (count, rest) := Chain.release kept block.next
        (.ok (),
          { file with tail := some last, size := newSize, blocks := file.blocks - count }, rest)

/-- The last block, if there is one that has room for a byte. -/
def openTail (file : File) (blocks : Slab Block) : Option BlockId :=
  file.tail.filter fun tail => (blocks.get? tail).any fun block => !block.isFull

/-- Appends zeros to a block of the file, `len` of them or as many as fit. Also gives their
number. -/
def fillBlock (file : File) (blocks : Slab Block) (id : BlockId) (len : Nat) :
    Except Error Nat × File × Slab Block :=
  match blocks.get? id with
  | none => (.error file.lostTail, file, blocks)
  | some block =>
    let count := block.zeroCount len
    (.ok count, file.grow count, blocks.set id (block.zeroFill len))

/-- Appends zeros to the last block, `len` of them or as many as fit. Also gives their number. -/
def fillTail (file : File) (blocks : Slab Block) (len : Nat) :
    Except Error Nat × File × Slab Block :=
  match file.openTail blocks with
  | none => (.ok 0, file, blocks)
  | some tail => file.fillBlock blocks tail len

/-- Links a new block with the bytes of `copy`. It is linked empty and gets the bytes after that, so
that none are stored where it cannot be linked. -/
def linkCopy (file : File) (blocks : Slab Block) (copy : Block) :
    Except Error Unit × File × Slab Block :=
  match file.link blocks (copy.truncate 0) with
  | (.error e, same, stored) => (.error e, same, stored)
  | (.ok id, longer, stored) =>
    (.ok (), longer.grow copy.occupied, stored.set id (copy.linkPrev file.tail))

/-- Appends the bytes of `full` over and over, in blocks of their own, until there are `len` of
them; the last block is cut. At most `fuel` blocks are linked. -/
def linkCopies (full : Block) :
    Nat → File → Slab Block → Nat → Except Error Unit × File × Slab Block
  | 0, file, blocks, _ => (.ok (), file, blocks)
  | _ + 1, file, blocks, 0 => (.ok (), file, blocks)
  | fuel + 1, file, blocks, len + 1 =>
    let copy := full.truncate (len + 1)
    match file.linkCopy blocks copy with
    | (.error e, same, stored) => (.error e, same, stored)
    | (.ok (), longer, stored) => linkCopies full fuel longer stored (len + 1 - copy.occupied)

/-- Appends `len` zeros in new blocks of the given capacity, or none if there can be no such block.
A block holds at least one zero, so as many blocks as zeros are enough. -/
def appendZeros (file : File) (blocks : Slab Block) (capacity len : Nat) :
    Except Error Unit × File × Slab Block :=
  if len = 0 then (.ok (), file, blocks)
  else
    match Block.allocate capacity with
    | .error e => (.error e, file, blocks)
    -- The bytes of a whole block are made once, and every such block shares them.
    | .ok block => linkCopies (block.zeroFill len) len file blocks len

/-- Appends `len` zeros, filling the last block before adding blocks of the given capacity. Where
there can be no such block, the zeros that went into the last one stay. -/
def extendZeros (file : File) (blocks : Slab Block) (capacity len : Nat) :
    Except Error Unit × File × Slab Block :=
  match file.fillTail blocks len with
  | (.error e, same, stored) => (.error e, same, stored)
  | (.ok count, longer, stored) => longer.appendZeros stored capacity (len - count)

end File

end Filestore
