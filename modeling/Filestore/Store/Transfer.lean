import Filestore.Store.Basic
import Filestore.Stream

/-!
# `Filestore.Store.Transfer`: moving bytes

Writes and reads at a descriptor's cursor. A write that stored some bytes before it failed is a
short write: its count is its result, and only the remembered outcome tells of the failure. A
write that stored none fails.

The work is done on a `Stream`, the file with its storage and the cursor, and `putStream` puts all
three back whatever came of it. A write of no bytes and a read of no bytes succeed wherever the
cursor stands, and a write of none does not give a fresh descriptor its first block.

`readUpTo` is a read that asks for no more than the file holds, so that the buffer is no longer
than the file. It gives what `read` gives for the same number of bytes; it fails only where the
buffer could not be had, which takes a file of more than `Block.maxBuffer` bytes.
-/

set_option autoImplicit false

namespace Filestore

namespace Store

/-- Puts back the file, the blocks and the cursor that a transfer through `fd` worked on. -/
@[inline] def putStream (store : Store) (fd : Nat) (id : FileId) (stream : Stream) : Store :=
  { store with
    blocks := stream.blocks
    catalog := store.catalog.set id stream.file
    descriptors := store.descriptors.setCursor fd stream.cursor }

/-- Writes bytes at the cursor of a descriptor and gives the number of them stored. -/
def write (store : Store) (fd : Nat) (data : Bytes) : Except Error Nat × Store :=
  match store.opened fd with
  | .error e => store.conclude (.error e)
  | .ok (descriptor, file) =>
    if data.isEmpty then store.conclude (.ok 0)
    else
      let written := Stream.write store.config fd data ⟨file, store.blocks, descriptor.cursor⟩
      let after := store.putStream fd descriptor.file written.stream
      match written.error with
      | none => after.conclude (.ok written.count)
      | some e =>
        -- Bytes that are in cannot be taken back, so the count is the result.
        if written.count = 0 then after.conclude (.error e)
        else (.ok written.count, { after with lastError := e.kind })

/-- Reads at most `want` bytes at the cursor of a descriptor. -/
def read (store : Store) (fd want : Nat) : Except Error Bytes × Store :=
  match store.opened fd with
  | .error e => store.conclude (.error e)
  | .ok (descriptor, file) =>
    let (result, cursor) := Stream.read fd want ⟨file, store.blocks, descriptor.cursor⟩
    { store with descriptors := store.descriptors.setCursor fd cursor }.conclude result

/-- Reads at most `most` bytes at the cursor of a descriptor, into a buffer no longer than the
file. -/
def readUpTo (store : Store) (fd most : Nat) : Except Error Bytes × Store :=
  match store.opened fd with
  | .error e => store.conclude (.error e)
  | .ok (_, file) =>
    let want := min file.size most
    if want ≤ Block.maxBuffer then store.read fd want
    else store.conclude (.error .oversizedBuffer)

/-- Moves the cursor of a descriptor back to the start. -/
def rewind (store : Store) (fd : Nat) : Except Error Unit × Store :=
  match store.descriptors.get fd with
  | .error e => store.conclude (.error e)
  | .ok _ =>
    { store with descriptors := store.descriptors.setCursor fd Cursor.unset }.conclude (.ok ())

end Store

end Filestore
