import Filestore.Proofs.File.Extent
import Filestore.Proofs.File.Sharing

/-!
# `Filestore.Proofs.File.Truncated`: what a truncation does to any chain

`File.Truncated` says which of three things a truncation does. A file that is no longer than the
new size stays as it is, with all its blocks, empty ones at its end included. One that is cut down
to nothing gives all its blocks back. Any other keeps its blocks up to the first one in which the
new end is, and that one becomes the last.

`Sharing.exists_truncated` says that a truncation does this and nothing else to a file that shares
its storage with others, whatever the capacities of its blocks are and however many bytes each of
them holds. It always succeeds. Of a packed chain `Spans.shrunk` says how many blocks remain.

Empty blocks are what makes the general case differ from the packed one. One that comes right
before the cut is kept, one right behind it goes, and in a file that is cut down to nothing all of
them go. A block that is not the file's is what it was; that is why the statement is about a file
among others, and not about one that has the storage to itself.
-/

set_option autoImplicit false

namespace Filestore

namespace File

/-- The file was truncated to `newSize` bytes, if it was longer.

- `edit`: the file spans the new chain, and only blocks of the two chains were touched.
- `unchanged`: a file that is not longer stays as it was, and so does the storage.
- `emptied`: a file that is cut down to nothing has no blocks.
- `cut`: any other keeps the blocks before the one that first reaches the new size. That one is
  shortened and becomes the last. No block but this one and those behind it is changed.
- `contents_eq`: the file has the first bytes that it had.
- `size_eq`: they are counted.
- `blocks_eq`: the blocks are counted.
- `ids`: the file has the first blocks that it had.
- `gone`: its other blocks are out of storage.
- `len_add`: and nothing else is.
- `same`: a block that was not the file's is what it was. -/
structure Truncated (file : File) (blocks : Slab Block) (chain : Chain) (newSize : Nat)
    (file' : File) (blocks' : Slab Block) (chain' : Chain) : Prop where
  edit : file.Edit blocks chain file' blocks' chain'
  unchanged : file.size ≤ newSize → file' = file ∧ blocks' = blocks ∧ chain' = chain
  emptied : newSize = 0 → 0 < file.size → chain' = []
  cut : 0 < newSize → newSize < file.size →
    ∃ (front : Chain) (id : BlockId) (block : Block) (back : Chain),
      chain = front ++ (id, block) :: back ∧ front.contents.length < newSize ∧
      newSize ≤ front.contents.length + block.occupied ∧
      chain' = front ++ [(id, (block.truncate (newSize - front.contents.length)).linkNext none)] ∧
      file'.tail = some id ∧
      ∀ key, key ≠ id → key ∉ Chain.ids back → blocks'.get? key = blocks.get? key
  contents_eq : file'.contents blocks' = (file.contents blocks).take (min newSize file.size)
  size_eq : file'.size = min newSize file.size
  blocks_eq : file'.blocks = chain'.length
  ids : chain'.ids <+: chain.ids
  gone : ∀ id ∈ chain.ids, id ∉ chain'.ids → blocks'.get? id = none
  len_add : blocks'.len + chain.length = blocks.len + chain'.length
  same : ∀ key, key ∉ chain.ids → blocks'.get? key = blocks.get? key

variable {file file' : File} {blocks blocks' : Slab Block} {chain : Chain}

/-- Where a file is cut within a block, the blocks that are neither this one nor behind it are
what they were, whether they are the file's or not. -/
theorem Edit.same_of_cut {front back : Chain} {id : BlockId} {block changed : Block}
    (h : file.Edit blocks (front ++ (id, block) :: back) file' blocks' (front ++ [(id, changed)]))
    (hspans : file.Spans blocks (front ++ (id, block) :: back)) {key : BlockId} (hne : key ≠ id)
    (hback : key ∉ Chain.ids back) : blocks'.get? key = blocks.get? key := by
  by_cases hfront : key ∈ front.ids
  · -- A block before the cut is in both chains.
    obtain ⟨entry, hentry, rfl⟩ := List.mem_map.mp hfront
    exact h.get?_eq hspans (List.mem_append_left _ hentry) (List.mem_append_left _ hentry)
  · refine h.exchange.kept key ?_ ?_
    · simp [hfront, hne, hback]
    · simp [hfront, hne]

/-- A truncation of a file that spans a chain does one of the three things, and succeeds in each
case. -/
theorem Spans.truncated (h : file.Spans blocks chain) (hsound : blocks.Sound) (newSize : Nat) :
    (file.truncate blocks newSize).1 = .ok () ∧
      ∃ chain', file.Truncated blocks chain newSize (file.truncate blocks newSize).2.1
        (file.truncate blocks newSize).2.2 chain' := by
  obtain ⟨chain', hok, hedit, hcontents, hids, -⟩ := h.truncate newSize
  have htake : chain'.contents = chain.contents.take (min newSize file.size) := by
    rw [hcontents, h.size_eq, ← List.take_take, List.take_length]
  refine ⟨hok, chain', ?_⟩
  refine ⟨hedit, ?_, ?_, ?_, ?_, ?_, hedit.spans.blocks_eq, hids, hedit.exchange.gone,
    hedit.len_add h hsound, ?_⟩
  · -- Nothing is cut off: the edit is the file as it was, and a file spans one chain only.
    intro hsize
    have hself : file.truncate blocks newSize = (.ok (), file, blocks) := by
      rw [File.truncate, if_pos hsize]
    rw [hself] at hedit
    exact ⟨by rw [hself], by rw [hself], hedit.spans.unique h⟩
  · rintro rfl hlt
    exact hedit.spans.unique (h.truncate_zero hlt).2.spans
  · intro hpos hlt
    obtain ⟨front, id, block, back, rfl, hfront, hreach, -, hcut⟩ := h.truncate_inside hpos hlt
    have hchain := hedit.spans.unique hcut.spans
    exact ⟨front, id, block, back, rfl, hfront, by omega, hchain, hcut.spans.last_eq.1,
      fun key => hcut.same_of_cut h⟩
  · rw [hedit.spans.contents_eq, htake, h.contents_eq]
  · rw [hedit.spans.size_eq, htake, List.length_take, h.size_eq]
    omega
  · intro key hkey
    exact hedit.exchange.kept key hkey fun hmem => hkey (hids.subset hmem)

variable {ι : Type} [DecidableEq ι] {files : ι → File} {chains : ι → Chain}

/-- A truncation of one of the files that share a storage succeeds, cuts this file and leaves the
others as they were. -/
theorem Sharing.exists_truncated (h : Sharing blocks files chains) (i : ι) (newSize : Nat) :
    ((files i).truncate blocks newSize).1 = .ok () ∧
      ∃ chain', (files i).Truncated blocks (chains i) newSize
          ((files i).truncate blocks newSize).2.1 ((files i).truncate blocks newSize).2.2 chain' ∧
        Sharing ((files i).truncate blocks newSize).2.2
          (Function.update files i ((files i).truncate blocks newSize).2.1)
          (Function.update chains i chain') := by
  obtain ⟨hok, chain', htruncated⟩ := (h.spans i).truncated h.sound newSize
  exact ⟨hok, chain', htruncated, h.edit htruncated.edit⟩

/-- The first file is cut in its third block, behind an empty one, and its fourth block goes. -/
theorem exists_truncated_interleaved :
    let after := (Interleaved.files false).truncate Interleaved.blocks 3
    Sharing Interleaved.blocks Interleaved.files Interleaved.chains ∧
      (∃ chain', Truncated (Interleaved.files false) Interleaved.blocks (Interleaved.chains false) 3
          after.2.1 after.2.2 chain' ∧
        Sharing after.2.2 (Function.update Interleaved.files false after.2.1)
          (Function.update Interleaved.chains false chain')) ∧
      (after.2.1.chain after.2.2).ids = [⟨0, 0⟩, ⟨2, 0⟩, ⟨4, 0⟩] ∧ after.2.2.len = 5 ∧
      after.2.1.contents after.2.2 = [1, 2, 3] := by
  intro after
  have h := Interleaved.sharing.exists_truncated false 3
  exact ⟨Interleaved.sharing, h.2, by decide, by decide, by decide⟩

end File

end Filestore
