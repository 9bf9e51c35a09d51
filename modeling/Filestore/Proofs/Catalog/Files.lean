import Filestore.Catalog
import Filestore.Proofs.Directory
import Filestore.Proofs.File.Division
import Filestore.Proofs.File.Extent

/-!
# `Filestore.Proofs.Catalog.Files`: what a catalog does to the blocks of its files

A file comes into a catalog without blocks, gets them one after another (`Catalog.append`) and
goes out with all of them (`Catalog.reclaim`). Each time the files divide the blocks among them
afterwards. `Reclaimed` says what is left when a file is gone: everything but the file, its blocks
and, if it still had it, its name.

`File.appendData` and `Catalog.append` are the way for whoever has a catalog and no store to give
a file some bytes: a new block, and what fits into it. They are made of the operations that the
store uses too, in the same order, so a file that gets its bytes this way is one that the store
could have made. What comes of it is one `File.Edit`, and edits are what keeps the division of the
blocks.

Nothing here is said about how often a slot has been used before, so an erased handle is only
known to denote nothing now. For how long it stays that way is in
`Filestore.Proofs.Catalog.Ledger`.
-/

set_option autoImplicit false

namespace Filestore

variable {file : File} {blocks : Slab Block} {chain : Chain} {id : FileId}

namespace File

/-- Links a new block after the last one and writes to it those of the bytes that fit. Also gives
the handle of the block. A file that cannot have the block stays as it was. -/
def appendData (file : File) (blocks : Slab Block) (capacity : Nat) (data : Bytes) :
    Except Error BlockId × File × Slab Block :=
  match file.appendBlock blocks capacity with
  | (.error e, unchanged, stored) => (.error e, unchanged, stored)
  | (.ok key, longer, stored) =>
    match stored.get? key with
    -- The block was just linked, so this case is for totality.
    | none => (.ok key, longer, stored)
    | some block =>
      (.ok key, longer.grow (block.writeCount 0 data), stored.set key (block.writeAt 0 data))

/-- A block that is written to as soon as it is linked is one edit of the file. Where there can be
such a block, the file has it behind its others, with the bytes that fit; where there cannot, the
file stays as it was, which is an edit too. -/
theorem Spans.appendData (h : file.Spans blocks chain) (capacity : Nat) (data : Bytes) :
    ∃ chain', file.Edit blocks chain (file.appendData blocks capacity data).2.1
        (file.appendData blocks capacity data).2.2 chain' ∧
      (capacity ≤ Block.maxBuffer → chain'.length = chain.length + 1 ∧
        chain'.contents = chain.contents ++ data.take capacity) := by
  by_cases hmax : capacity ≤ Block.maxBuffer
  · obtain ⟨key, longer, stored, hlink, hlinked⟩ :=
      h.link (show (Block.ofCapacity capacity).next = none from rfl)
    simp only [File.appendData, File.appendBlock, Block.allocate_eq_ok hmax, hlink]
    -- The new block is the last one of the chain, and it is there to be written to.
    have hnew : stored.get? key = some _ :=
      hlinked.spans.stored _ (List.mem_append_right _ (List.mem_singleton_self _))
    simp only [hnew]
    refine ⟨_, hlinked.trans (hlinked.spans.replace rfl rfl ?_), fun _ => ⟨?_, ?_⟩⟩
    · rw [Block.occupied_writeAt (Nat.zero_le _)]
      exact Nat.zero_max _
    · rw [← chain.length_push key (Block.ofCapacity capacity), Chain.push, List.length_append,
        List.length_append]
      rfl
    · rw [Chain.contents_append, Chain.contents_withNext, Chain.contents_cons, Chain.contents_nil,
        List.append_nil]
      show _ ++ Bytes.overwrite (data.take (capacity - 0)) [] = _
      rw [Bytes.overwrite_eq_append, List.drop_nil, List.append_nil, Nat.sub_zero]
  · simp only [File.appendData, File.appendBlock, Block.allocate_eq_error (Nat.not_le.mp hmax)]
    exact ⟨chain, h.edit_self, fun hle => absurd hle hmax⟩

end File

namespace Catalog

/-- Appends a block to the file of a handle and writes to it those of the bytes that fit. Also gives
the handle of the block. Where there is no such file, or it cannot have the block, nothing
changes. -/
def append (catalog : Catalog) (blocks : Slab Block) (id : FileId) (capacity : Nat) (data : Bytes) :
    Except Error BlockId × Catalog × Slab Block :=
  match catalog.get id with
  | .error e => (.error e, catalog, blocks)
  | .ok file =>
    let (result, longer, stored) := file.appendData blocks capacity data
    (result, catalog.set id longer, stored)

/-- A file was taken out of storage, and everything else is as it was.

- `gone`: its handle denotes nothing any more.
- `others`: every other file is what it was.
- `chains`: every other file has the blocks that it had.
- `own`: the blocks of the file were in storage and are no longer.
- `kept`: every other block is what it was.
- `len_add`: the blocks of the file are as many as there are less.
- `lookup_eq`: the name of the file denotes nothing any more if it denoted the file, and every other
  name what it denoted, as the name of the file does if it denoted another file. -/
structure Reclaimed (catalog : Catalog) (blocks : Slab Block) (id : FileId) (file : File)
    (catalog' : Catalog) (blocks' : Slab Block) : Prop where
  gone : catalog'.files.get? id = none
  others : ∀ other, other ≠ id → catalog'.files.get? other = catalog.files.get? other
  chains : ∀ other, other ≠ id →
    chainOf catalog'.files blocks' other = chainOf catalog.files blocks other
  own : ∀ key ∈ (file.chain blocks).ids,
    (∃ block, blocks.get? key = some block) ∧ blocks'.get? key = none
  kept : ∀ key, key ∉ (file.chain blocks).ids → blocks'.get? key = blocks.get? key
  len_add : blocks'.len + file.blocks = blocks.len
  lookup_eq : ∀ name, catalog'.lookup name
    = if name = file.name ∧ catalog.lookup name = some id then none else catalog.lookup name

variable {catalog : Catalog}

/-- The handle of no file reclaims nothing: no file is given back, and catalog and blocks stay as
they are. -/
theorem reclaim_of_get?_eq_none (h : catalog.files.get? id = none) (blocks : Slab Block) :
    catalog.reclaim id blocks = (none, catalog, blocks) := by
  rw [reclaim, h]

/-- A file that is reclaimed is given back without its blocks. The name goes only where it still
leads to this file. -/
theorem reclaim_of_get? (h : catalog.files.get? id = some file) (blocks : Slab Block) :
    catalog.reclaim id blocks =
      (some { file with head := none, tail := none, size := 0, blocks := 0 },
        ⟨catalog.files.erase id,
          if catalog.lookup file.name = some id then catalog.directory.erase file.name
          else catalog.directory⟩,
        (file.release blocks).2.2) := by
  rw [reclaim, h]
  rfl

/-- A file that is reclaimed goes with its blocks and, if it has it, its name, and nothing else
changes. That the files divide the blocks is what makes sure that the chain erased is this file's
alone. -/
theorem reclaimed_of_get? (hfiles : Division blocks catalog.files)
    (h : catalog.files.get? id = some file) :
    Reclaimed catalog blocks id file (catalog.reclaim id blocks).2.1
      (catalog.reclaim id blocks).2.2 := by
  have hspans := hfiles.spans id file h
  obtain ⟨-, hedit⟩ := hspans.release
  have hlen := hedit.len_add hspans hfiles.blocks_sound
  rw [chainOf_eq h] at hspans hedit hlen
  rw [reclaim_of_get? h]
  refine ⟨Slab.get?_erase_self catalog.files id,
    fun other hne => Slab.get?_erase_of_ne hne catalog.files, (hfiles.release h).2, ?_, ?_, ?_, ?_⟩
  · intro key hkey
    exact ⟨Slab.mem_keys.mp (hspans.mem_keys hkey), hedit.exchange.gone key hkey (List.not_mem_nil)⟩
  · intro key hkey
    exact hedit.exchange.kept key hkey List.not_mem_nil
  · rw [hspans.blocks_eq]
    exact hlen
  · -- The name goes only if the directory still has it for this file: a later file may have taken
    -- it.
    intro name
    show Directory.get? (if _ then _ else _) name = _
    split
    · rename_i hname
      rw [Directory.get?_erase]
      by_cases heq : name = file.name
      · rw [if_pos heq, if_pos ⟨heq, heq ▸ hname⟩]
      · rw [if_neg heq, if_neg fun hboth => heq hboth.1]
        rfl
    · rename_i hname
      rw [if_neg (by rintro ⟨rfl, hid⟩; exact hname hid)]
      rfl

end Catalog

end Filestore
