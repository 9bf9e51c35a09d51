import Filestore.Proofs.Chain.Capacity
import Filestore.Proofs.File.Extent

/-!
# `Filestore.Proofs.File.Shrink`: which blocks a truncation keeps

A truncation of a packed file to fewer bytes keeps as many of its first blocks as the bytes take.
Those before the last kept one are what they were, the last kept one is cut and ends the chain,
and the others are out of storage. `File.Shrunk` says this, and `Spans.shrunk` that it is so for
any smaller size, zero or the end of a block among them.

The number of blocks that are kept is the new size divided by the capacity, rounded up
(`FlatStore.blocksFor`), and it is the same thing to say that the last of them first reaches the
new end. A cut at the end of a block therefore keeps that block whole and none after it; what
changes about it is its link alone. A cut to zero keeps none.

The two cases of `Shrunk` are the two ways in which a truncation works: all blocks are given back,
or the chain is cut within one block. Both are read off an `Edit`, so no step of the operation is
followed here again.
-/

set_option autoImplicit false

namespace Filestore

open FlatStore (blocksFor)

namespace File

/-- The file was cut down to `newSize` bytes, in blocks of the capacity.

- `name_eq`: the name stays.
- `refs_eq`: the count of descriptors stays.
- `deleted_eq`: whether the name was deleted stays.
- `size_eq`: the file has the new size.
- `contents_eq`: it has the first bytes that it had.
- `ids_eq`: it has the first blocks that it had, as many as the bytes take.
- `gone`: its other blocks are out of storage.
- `len_eq`: and nothing else is.
- `last`: the last block that it has is cut, and links to no other.
- `same`: but for that one and those that are gone, every block is what it was. -/
structure Shrunk (capacity : Nat) (blocks blocks' : Slab Block) (file file' : File)
    (newSize : Nat) : Prop where
  name_eq : file'.name = file.name
  refs_eq : file'.refs = file.refs
  deleted_eq : file'.deleted = file.deleted
  size_eq : file'.size = newSize
  contents_eq : file'.contents blocks' = (file.contents blocks).take newSize
  ids_eq : (file'.chain blocks').ids = (file.chain blocks).ids.take (blocksFor capacity newSize)
  gone : ∀ id ∈ (file.chain blocks).ids.drop (blocksFor capacity newSize), blocks'.get? id = none
  len_eq : blocks'.len + ((file.chain blocks).ids.drop (blocksFor capacity newSize)).length
    = blocks.len
  last : ∀ i id block, i + 1 = blocksFor capacity newSize →
    (file.chain blocks)[i]? = some (id, block) →
    blocks'.get? id = some ((block.truncate (newSize - i * capacity)).linkNext none)
  same : ∀ id, id ∉ (file.chain blocks).ids.drop (blocksFor capacity newSize - 1) →
    blocks'.get? id = blocks.get? id

variable {capacity newSize : Nat} {file file' : File} {blocks blocks' : Slab Block}
  {chain front back : Chain} {id : BlockId} {block : Block}

/-- A file that has given all its blocks back is cut down to nothing: no bytes take no blocks. -/
theorem Edit.shrunk_zero (h : file.Edit blocks chain file' blocks' []) (hcapacity : 0 < capacity)
    (hspans : file.Spans blocks chain) (hsound : blocks.Sound) :
    Shrunk capacity blocks blocks' file file' 0 := by
  have hnone : blocksFor capacity 0 = 0 :=
    Nat.le_zero.mp ((FlatStore.blocksFor_le_iff hcapacity).mpr (Nat.zero_le _))
  refine ⟨h.name_eq, h.refs_eq, h.deleted_eq, h.spans.size_eq, ?_, ?_, ?_, ?_, ?_, ?_⟩
  · rw [h.spans.contents_eq]
    rfl
  · rw [h.spans.chain_eq, hnone]
    rfl
  · rw [hspans.chain_eq, hnone, List.drop_zero]
    exact fun id hid => h.exchange.gone id hid List.not_mem_nil
  · rw [hspans.chain_eq, hnone, List.drop_zero, Chain.length_ids]
    exact h.len_add hspans hsound
  · rw [hnone]
    exact fun i id block hi => nomatch hi
  · rw [hspans.chain_eq, hnone]
    exact fun id hid => h.exchange.kept id hid List.not_mem_nil

/-- A file that was cut within a block is cut down to the bytes before the cut. The blocks that
they take are those up to the one that was cut. -/
theorem Edit.shrunk_inside
    (h : file.Edit blocks (front ++ (id, block) :: back) file' blocks'
      (front ++ [(id, (block.truncate (newSize - front.contents.length)).linkNext none)]))
    (hspans : file.Spans blocks (front ++ (id, block) :: back)) (hsound : blocks.Sound)
    (hpacked : Chain.Packed capacity (front ++ (id, block) :: back))
    (hcontents : file'.contents blocks' = (file.contents blocks).take newSize)
    (hlt : newSize < file.size) (hfront : front.contents.length < newSize)
    (hreach : newSize - front.contents.length ≤ block.occupied) :
    Shrunk capacity blocks blocks' file file' newSize := by
  have hcount := hpacked.blocksFor_eq hfront hreach
  rw [hpacked.toUniform.length_front] at h
  -- The handles are those before the cut, that of the block of the cut, and those that go.
  have hids : Chain.ids (front ++ (id, block) :: back) = (front.ids ++ [id]) ++ Chain.ids back := by
    simp
  have hkept : (front.ids ++ [id]).length = front.length + 1 := by simp
  have hnodup := hspans.nodup
  rw [hids, List.nodup_append] at hnodup
  refine ⟨h.name_eq, h.refs_eq, h.deleted_eq, ?_, hcontents, ?_, ?_, ?_, ?_, ?_⟩
  · rw [h.spans.size_eq, ← h.spans.contents_eq, hcontents, List.length_take, hspans.contents_eq,
      ← hspans.size_eq, Nat.min_eq_left (Nat.le_of_lt hlt)]
  · rw [h.spans.chain_eq, hspans.chain_eq, hcount, hids, List.take_left' hkept]
    simp
  · rw [hspans.chain_eq, hcount, hids, List.drop_left' hkept]
    intro other hother
    refine h.exchange.gone other (hids ▸ List.mem_append_right _ hother) fun hmem => ?_
    exact hnodup.2.2 other (by simpa using hmem) other hother rfl
  · have hlen := h.len_add hspans hsound
    simp only [List.length_append, List.length_cons, List.length_nil] at hlen
    rw [hspans.chain_eq, hcount, hids, List.drop_left' hkept, Chain.length_ids]
    omega
  · rw [hspans.chain_eq, hcount]
    intro i other current hi hentry
    obtain rfl : i = front.length := Nat.succ.inj hi
    rw [List.getElem?_append_right (Nat.le_refl _), Nat.sub_self] at hentry
    cases hentry
    exact h.spans.stored _ (List.mem_append_right _ (List.mem_singleton_self _))
  · rw [hspans.chain_eq, hcount, Nat.add_sub_cancel, Chain.ids_append,
      List.drop_left' (Chain.length_ids front), Chain.ids_cons]
    intro other hother
    by_cases hmem : other ∈ front.ids
    · -- A block before the cut is in both chains.
      obtain ⟨entry, hentry, rfl⟩ := List.mem_map.mp hmem
      exact h.get?_eq hspans (List.mem_append_left _ hentry) (List.mem_append_left _ hentry)
    · refine h.exchange.kept other ?_ ?_
      · rw [Chain.ids_append, Chain.ids_cons]
        exact fun hin => (List.mem_append.mp hin).elim hmem hother
      · rw [Chain.ids_append, Chain.ids_cons, Chain.ids_nil]
        exact fun hin => (List.mem_append.mp hin).elim hmem fun hlast =>
          hother (List.mem_singleton.mp hlast ▸ List.mem_cons_self)

/-- A truncation cuts a packed file down to any size below its own. A larger size would leave it
as it is, which is no cut. -/
theorem Spans.shrunk (h : file.Spans blocks chain) (hsound : blocks.Sound)
    (hpacked : chain.Packed capacity) (hcapacity : 0 < capacity) (hlt : newSize < file.size) :
    Shrunk capacity blocks (file.truncate blocks newSize).2.2 file
      (file.truncate blocks newSize).2.1 newSize := by
  rcases Nat.eq_zero_or_pos newSize with rfl | hpos
  · exact (h.truncate_zero hlt).2.shrunk_zero hcapacity h hsound
  · obtain ⟨front, id, block, back, rfl, hfront, hreach, -, hedit⟩ := h.truncate_inside hpos hlt
    obtain ⟨chain', -, hedit', hcontents, -⟩ := h.truncate newSize
    refine hedit.shrunk_inside h hsound hpacked ?_ hlt hfront hreach
    rw [hedit'.spans.contents_eq, hcontents, h.contents_eq]

end File

end Filestore
