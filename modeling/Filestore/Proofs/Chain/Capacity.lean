import Filestore.Flat
import Filestore.Proofs.Chain.Packed

/-!
# `Filestore.Proofs.Chain.Capacity`: how many blocks are needed, and which

`FlatStore.blocksFor` divides a number of bytes by the capacity of a block and rounds up. A packed
chain has that many blocks (`Packed.length_eq_blocksFor`), and the byte before a position is in
the block that the position less one says. That block is where `Chain.locate` finds the position
(`Packed.locate_eq`), and where every settled cursor stands that has the position.

Two packed chains of which one continues the other differ by as many blocks as their sizes say
(`Packed.length_added`), so a claim about new blocks is arithmetic on sizes. In particular no
block is added where the bytes fit into the blocks that are there (`Packed.added_eq_nil`).

The bytes before a position are what counts here and not the byte at it. A position at the end of
a full block belongs to that block, as long as nothing was written past it; that is why one is
taken off before the division, and why the start of a chain, where there is no byte before, is a
case of its own.
-/

set_option autoImplicit false

namespace Filestore

namespace FlatStore

/-- So many blocks are enough for so many bytes exactly when as many full blocks hold no fewer
bytes. -/
theorem blocksFor_le_iff {capacity bytes count : Nat} (hcapacity : 0 < capacity) :
    blocksFor capacity bytes ≤ count ↔ bytes ≤ count * capacity := by
  rw [blocksFor, Nat.div_le_iff_le_mul_add_pred hcapacity, Nat.mul_comm]
  omega

/-- The last byte is in the last of the blocks that the bytes take, so its number gives theirs.
Without a byte there is no block. -/
theorem blocksFor_eq_succ {capacity bytes : Nat} (hcapacity : 0 < capacity) (hpos : 0 < bytes) :
    blocksFor capacity bytes = (bytes - 1) / capacity + 1 := by
  rw [blocksFor, ← Nat.add_div_right _ hcapacity]
  congr 1
  omega

end FlatStore

open FlatStore (blocksFor)

namespace Chain

variable {capacity : Nat} {chain chain' : Chain}

/-- A packed chain has as many blocks as its bytes take, and no more: none of them is empty. -/
theorem Packed.length_eq_blocksFor (h : chain.Packed capacity) :
    chain.length = blocksFor capacity chain.contents.length :=
  h.length_eq

/-- As many blocks are added to a packed chain as its new size asks for beyond those that its old
size asked for. -/
theorem Packed.length_added (h : chain.Packed capacity) (h' : chain'.Packed capacity)
    {added : List BlockId} (hadded : chain.ids ++ added = chain'.ids) :
    added.length = blocksFor capacity chain'.contents.length
      - blocksFor capacity chain.contents.length := by
  have hlength := congrArg List.length hadded
  rw [List.length_append, length_ids, length_ids, h.length_eq_blocksFor,
    h'.length_eq_blocksFor] at hlength
  omega

/-- No block is added to a packed chain whose blocks have room for its new size. A write within
the last block is such a case. -/
theorem Packed.added_eq_nil (h : chain.Packed capacity) (h' : chain'.Packed capacity)
    (hcapacity : 0 < capacity) {added : List BlockId} (hadded : chain.ids ++ added = chain'.ids)
    (hroom : chain'.contents.length ≤ chain.length * capacity) : added = [] := by
  have henough := (FlatStore.blocksFor_le_iff hcapacity).mpr hroom
  rw [h.length_eq_blocksFor] at henough
  exact List.length_eq_zero_iff.mp
    ((h.length_added h' hadded).trans (Nat.sub_eq_zero_of_le henough))

/-- The block that first reaches a position is the last of those that the bytes before it take, so
its place in the chain is known from the position alone. -/
theorem Packed.blocksFor_eq {front back : Chain} {entry : BlockId × Block} {pos : Nat}
    (h : Packed capacity (front ++ entry :: back)) (hfront : front.contents.length < pos)
    (hreach : pos - front.contents.length ≤ entry.2.occupied) :
    blocksFor capacity pos = front.length + 1 := by
  have hfits := h.toUniform.occupied_le (List.mem_append_right front List.mem_cons_self)
  rw [h.toUniform.length_front] at hfront hreach
  have hcapacity : 0 < capacity := by omega
  rw [FlatStore.blocksFor_eq_succ hcapacity (by omega)]
  congr 1
  rw [Nat.div_eq_iff hcapacity]
  omega

/-- A position in a chain with blocks is found in the block of the byte before it, at an offset
that is the position less the capacities of the blocks in front. -/
theorem Packed.locate_eq (h : chain.Packed capacity) (hnodup : chain.ids.Nodup) (hne : chain ≠ [])
    {pos : Nat} (hpos : pos ≤ chain.contents.length) :
    ∃ id, chain.ids[(pos - 1) / capacity]? = some id ∧
      chain.locate pos = Cursor.inBlock id (pos - capacity * ((pos - 1) / capacity)) := by
  obtain ⟨id, offset, hlocate⟩ := exists_locate_eq hne pos
  have hstands := stands_locate chain pos
  have hsettled := settled_locate h.filled pos
  rw [hlocate] at hstands hsettled
  rw [Nat.min_eq_left hpos] at hstands
  obtain ⟨hid, hoffset⟩ := h.toUniform.settled_eq hnodup hstands hsettled
  exact ⟨id, hid, by rw [hlocate, hoffset]⟩

/-- The end of a chain with blocks is found at the end of the last one, and never at the start of
a block still to come. -/
theorem Packed.locate_length {front : Chain} {id : BlockId} {block : Block}
    (h : Packed capacity (front ++ [(id, block)])) (hnodup : (ids (front ++ [(id, block)])).Nodup) :
    locate (front.contents.length + block.occupied) (front ++ [(id, block)])
      = Cursor.inBlock id block.occupied := by
  have hmem := List.mem_append_right front (List.mem_singleton_self (id, block))
  have hend : Stands (front ++ [(id, block)]) (Cursor.inBlock id block.occupied)
      (front.contents.length + block.occupied) := .inBlock rfl (Nat.le_refl _)
  obtain ⟨hid, hoffset⟩ := h.toUniform.settled_eq hnodup hend
    (settled_of_offset_pos (h.filled _ hmem))
  obtain ⟨other, hother, hlocate⟩ := h.locate_eq hnodup (by simp) hend.le_length
  obtain rfl := Option.some.inj (hid.symm.trans hother)
  rw [hlocate, ← hoffset]

end Chain

end Filestore
