import Filestore.Store.Basic

/-!
# `Filestore.Store.Resize`: setting the size of a file

A file grows by zeros. Where it shrinks, every cursor in it is found again by its stream position,
and a cursor past the new end moves back to it. That goes for all descriptors open on the file,
not only the one through which it is resized, because the block that a cursor names may be gone. A
cursor that has not touched the file has no block to lose and stays as it is.

The new size is checked against the limit before anything is done, so a refused resize changes
nothing but the remembered outcome. Growing can only fail where no block of the configured size
can be had, and keeps the zeros that went into the last block before that; the record of the file
counts them. Setting the size that a file already has appends no zeros and moves no cursor.
-/

set_option autoImplicit false

namespace Filestore

namespace Store

/-- Where a cursor goes when a file shrinks to `newSize` bytes, from its chain before and its chain
after. -/
def relocated (before after : Chain) (newSize : Nat) (cursor : Cursor) : Cursor :=
  match cursor.block with
  | none => Cursor.unset
  | some _ => after.locate (min ((before.position cursor).getD 0) newSize)

/-- Appends zeros to a file. -/
def lengthen (store : Store) (id : FileId) (file : File) (count : Nat) :
    Except Error Unit × Store :=
  let (result, longer, blocks) := file.extendZeros store.blocks store.config.blockSize count
  { store with catalog := store.catalog.set id longer, blocks }.conclude result

/-- Cuts a file down and moves the cursors in it. -/
def shorten (store : Store) (id : FileId) (file : File) (newSize : Nat) :
    Except Error Unit × Store :=
  -- Positions are those of the chain before the cut, which may free their blocks.
  let before := file.chain store.blocks
  let (result, shorter, blocks) := file.truncate store.blocks newSize
  match result with
  | .error e => { store with blocks }.conclude (.error e)
  | .ok () =>
    let move := relocated before (shorter.chain blocks) newSize
    { store with
      blocks
      catalog := store.catalog.set id shorter
      descriptors := store.descriptors.mapCursors id move }.conclude (.ok ())

/-- Whether the settings allow a file of `size` bytes. -/
def allows (store : Store) (size : Nat) : Bool :=
  match store.config.sizeLimit with
  | none => true
  | some limit => decide (size ≤ limit)

/-- Sets the size of a descriptor's file, by appending zeros or by cutting it down. -/
def resize (store : Store) (fd newSize : Nat) : Except Error Unit × Store :=
  match store.opened fd with
  | .error e => store.conclude (.error e)
  | .ok (descriptor, file) =>
    if store.allows newSize then
      if file.size ≤ newSize then store.lengthen descriptor.file file (newSize - file.size)
      else store.shorten descriptor.file file newSize
    else store.conclude (.error (.fileTooLarge file.name (store.config.sizeLimit.getD 0)))

end Store

end Filestore
