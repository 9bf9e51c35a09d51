import Filestore.Proofs.File.Sharing
import Filestore.Proofs.File.ZeroTurns
import Mathlib.Algebra.GroupWithZero.Nat

/-!
# `Filestore.Proofs.File.Extended`: what an extension does to any chain

`File.Extended` says that zeros were appended to a file: the blocks that it had keep their handles,
only the last of them may have changed, and new blocks come after it that are all full but possibly
the last one, which is not empty. Nothing else in storage changed.

`Sharing.exists_extended` says what an extension by `len` zeros does to a file that shares its
storage with others, whatever the capacities of its blocks are and however many bytes each of them
holds. Where there can be blocks of the capacity that new blocks are to have, all zeros are
appended. Where there cannot, the last block is filled and no block is added, and the extension
fails if zeros are left. Either way the loop that appends them comes to an end (`File.ZeroTurns`).
-/

set_option autoImplicit false

namespace Filestore

namespace Block

/-- Zeros that do not fit do not matter: a block is filled alike with all of them and with those
that fit. -/
theorem zeroFill_min_room (block : Block) (len : Nat) :
    block.zeroFill (min len block.room) = block.zeroFill len := by
  have hcount : block.zeroCount (min len block.room) = block.zeroCount len := by
    simp only [zeroCount, Nat.min_assoc, Nat.min_self]
  simp only [zeroFill, hcount]

end Block

/-- Zeros that do not fit into the last block do not matter for what becomes of the chain. -/
theorem Chain.fillLast_min_lastRoom (chain : Chain) (len : Nat) :
    chain.fillLast (min len chain.lastRoom) = chain.fillLast len := by
  rcases List.eq_nil_or_concat' chain with rfl | ⟨front, ⟨id, block⟩, rfl⟩
  · rfl
  · rw [fillLast_concat, fillLast_concat, lastRoom_concat, block.zeroFill_min_room]

namespace File

/-- So many zeros were appended to the file, the last of them in the blocks `added`.

- `edit`: the file spans the new chain, and only blocks of the two chains were touched.
- `contents_eq`: the zeros come after the bytes.
- `size_eq`: they are counted.
- `blocks_eq`: the new blocks are counted.
- `ids_eq`: the new blocks come after those that the file had.
- `first`: a file without blocks has the new ones only.
- `last`: the last block that the file had took the zeros that fit, and leads to the new ones. The
  blocks before it are what they were.
- `packed`: the new blocks have the capacity. All but the last are full, and that one is not empty.
- `fresh`: they were not in storage before.
- `same`: but for them and the last block that the file had, every block is what it was. -/
structure Extended (capacity : Nat) (file : File) (blocks : Slab Block) (chain : Chain)
    (zeros : Nat) (file' : File) (blocks' : Slab Block) (chain' added : Chain) : Prop where
  edit : file.Edit blocks chain file' blocks' chain'
  contents_eq : file'.contents blocks' = file.contents blocks ++ List.replicate zeros 0
  size_eq : file'.size = file.size + zeros
  blocks_eq : file'.blocks = file.blocks + added.length
  ids_eq : chain'.ids = chain.ids ++ added.ids
  first : chain = [] → chain' = added
  last : ∀ front id block, chain = front ++ [(id, block)] →
    chain' = front ++ (id, (block.zeroFill zeros).linkNext added.ids.head?) :: added
  packed : added.Packed capacity
  fresh : ∀ id ∈ added.ids, blocks.get? id = none
  same : ∀ key, file.tail ≠ some key → key ∉ added.ids → blocks'.get? key = blocks.get? key

variable {capacity len zeros : Nat} {file file' : File} {blocks blocks' : Slab Block}
  {chain added : Chain}

/-- Where the last block is filled and others are linked to it, a block that is neither is what it
was, those of other files included. -/
theorem Edit.same_of_added {next : Option BlockId}
    (h : file.Edit blocks chain file' blocks' ((chain.fillLast zeros).withNext next ++ added))
    (hspans : file.Spans blocks chain) {key : BlockId} (htail : file.tail ≠ some key)
    (hadded : key ∉ added.ids) : blocks'.get? key = blocks.get? key := by
  by_cases hkey : key ∈ chain.ids
  · rcases List.eq_nil_or_concat' chain with rfl | ⟨front, ⟨last, block⟩, rfl⟩
    · cases hkey
    · rw [Chain.fillLast_concat, Chain.withNext_concat] at h
      obtain ⟨entry, hentry, rfl⟩ := List.mem_map.mp hkey
      rcases List.mem_append.mp hentry with hfront | hlast
      · -- A block of the file that is not its last one is in both chains.
        exact h.get?_eq hspans hentry (List.mem_append_left _ (List.mem_append_left _ hfront))
      · rw [List.mem_singleton.mp hlast] at htail
        exact absurd hspans.last_eq.1 htail
  · refine h.exchange.kept key hkey ?_
    rw [Chain.ids_append, Chain.ids_withNext, Chain.ids_fillLast]
    exact fun hmem => (List.mem_append.mp hmem).elim hkey hadded

/-- An edit that fills the last block and links a packed chain of the other zeros to it appends
the zeros. All else that `Extended` says follows from the edit. -/
theorem Edit.extended (h : file.Edit blocks chain file' blocks'
      ((chain.fillLast zeros).withNext added.ids.head? ++ added))
    (hspans : file.Spans blocks chain) (hpacked : added.Packed capacity)
    (hcontents : added.contents = List.replicate (zeros - min zeros chain.lastRoom) 0) :
    Extended capacity file blocks chain zeros file' blocks'
      ((chain.fillLast zeros).withNext added.ids.head? ++ added) added := by
  have hids : Chain.ids ((chain.fillLast zeros).withNext added.ids.head? ++ added)
      = chain.ids ++ added.ids := by
    rw [Chain.ids_append, Chain.ids_withNext, Chain.ids_fillLast]
  -- The last block takes what it has room for, and the new blocks take the rest.
  have hbytes : Chain.contents ((chain.fillLast zeros).withNext added.ids.head? ++ added)
      = chain.contents ++ List.replicate zeros 0 := by
    rw [Chain.contents_append, Chain.contents_withNext, Chain.contents_fillLast, hcontents,
      List.append_assoc, List.replicate_append_replicate, Nat.add_sub_of_le (Nat.min_le_left _ _)]
  refine ⟨h, ?_, ?_, ?_, hids, ?_, ?_, hpacked, ?_, ?_⟩
  · rw [h.spans.contents_eq, hspans.contents_eq, hbytes]
  · rw [h.spans.size_eq, hspans.size_eq, hbytes, List.length_append, List.length_replicate]
  · rw [h.spans.blocks_eq, hspans.blocks_eq, ← Chain.length_ids, hids, List.length_append,
      Chain.length_ids, Chain.length_ids]
  · rintro rfl
    rfl
  · rintro front id block rfl
    rw [Chain.fillLast_concat, Chain.withNext_concat, List.append_assoc]
    rfl
  · -- No block appears twice in the new chain, so those behind the old ones are not among them.
    intro id hid
    have hnodup := h.spans.nodup
    rw [hids, List.nodup_append] at hnodup
    refine h.exchange.fresh id (hids ▸ List.mem_append_right _ hid) fun hold => ?_
    exact hnodup.2.2 id hold id hid rfl
  · exact fun key => h.same_of_added hspans

/-- Where there can be no new block, an extension fills the last one. It fails if zeros are left,
and keeps those that it has put in. -/
theorem Spans.extendZeros_oversized (hmax : Block.maxBuffer < capacity)
    (h : file.Spans blocks chain) (len : Nat) :
    (file.extendZeros blocks capacity len).1
        = (if chain.lastRoom < len then .error .oversizedBuffer else .ok ()) ∧
      file.Edit blocks chain (file.extendZeros blocks capacity len).2.1
        (file.extendZeros blocks capacity len).2.2 (chain.fillLast len) := by
  obtain ⟨longer, stored, hfill, hedit⟩ := h.fillTail len
  simp only [File.extendZeros, hfill, File.appendZeros, Block.allocate_eq_error hmax]
  by_cases hless : chain.lastRoom < len
  · rw [if_neg (by omega : ¬ len - min len chain.lastRoom = 0), if_pos hless]
    exact ⟨rfl, hedit⟩
  · rw [if_pos (by omega : len - min len chain.lastRoom = 0), if_neg hless]
    exact ⟨rfl, hedit⟩

variable {ι : Type} [DecidableEq ι] {files : ι → File} {chains : ι → Chain}

/-- What an extension does to one of the files that share a storage, and to no other.

The turns that append the zeros come to an end. Where there can be blocks of the capacity, all zeros
are appended, in as few new blocks as have room for those that do not fit into the last block. Where
there cannot, those that fit are appended, and the extension fails if some do not. -/
theorem Sharing.exists_extended (h : Sharing blocks files chains) (i : ι) (hpos : 0 < capacity)
    (len : Nat) :
    let room := (chains i).lastRoom
    let after := (files i).extendZeros blocks capacity len
    ZeroTurns capacity (files i) blocks len after ∧
      ∃ chain' added,
        Sharing after.2.2 (Function.update files i after.2.1) (Function.update chains i chain') ∧
        (capacity < 2 ^ 63 →
          after.1 = .ok () ∧
          Extended capacity (files i) blocks (chains i) len after.2.1 after.2.2 chain' added ∧
          added.length = (len - min len room + capacity - 1) / capacity) ∧
        (2 ^ 63 ≤ capacity →
          after.1 = (if room < len then .error .oversizedBuffer else .ok ()) ∧
          Extended capacity (files i) blocks (chains i) (min len room) after.2.1 after.2.2 chain'
            []) := by
  intro room after
  have hspans := h.spans i
  refine ⟨hspans.zeroTurns hpos len, ?_⟩
  by_cases hlt : capacity < 2 ^ 63
  · have hmax : capacity ≤ Block.maxBuffer := Nat.le_of_lt_succ hlt
    obtain ⟨added, hok, hedit, hcontents, hpacked⟩ := hspans.extendZeros_added hpos hmax len
    refine ⟨_, added, h.edit hedit, fun _ => ⟨hok, hedit.extended hspans hpacked hcontents, ?_⟩,
      fun hge => absurd hlt (Nat.not_lt.mpr hge)⟩
    rw [hpacked.length_eq, hcontents, List.length_replicate]
  · have hmax : Block.maxBuffer < capacity := Nat.not_lt.mp hlt
    obtain ⟨hresult, hedit⟩ := hspans.extendZeros_oversized hmax len
    -- The chain is the one with no zeros past those that fit, and with no block linked to it.
    have hnone := hedit.trans hedit.spans.edit_added_nil
    rw [← Chain.fillLast_min_lastRoom] at hnone
    refine ⟨_, [], h.edit hnone, fun hless => absurd hless hlt, fun _ => ⟨hresult, ?_⟩⟩
    refine Edit.extended hnone hspans (Chain.packed_nil capacity) ?_
    rw [Nat.min_assoc, Nat.min_self, Nat.sub_self]
    rfl

/-- Eight zeros: three fit into the last block, and five take three blocks of two bytes, or get
lost where no block can be had. -/
theorem exists_extended_interleaved :
    let after := (Interleaved.files false).extendZeros Interleaved.blocks 2 8
    let failed := (Interleaved.files false).extendZeros Interleaved.blocks (2 ^ 63) 8
    Sharing Interleaved.blocks Interleaved.files Interleaved.chains ∧
      after.1 = .ok () ∧
      (∃ chain' added, Extended 2 (Interleaved.files false) Interleaved.blocks
          (Interleaved.chains false) 8 after.2.1 after.2.2 chain' added ∧ added.length = 3) ∧
      failed.1 = .error .oversizedBuffer ∧
      ∃ chain', Extended (2 ^ 63) (Interleaved.files false) Interleaved.blocks
        (Interleaved.chains false) 3 failed.2.1 failed.2.2 chain' [] := by
  intro after failed
  obtain ⟨-, chain', added, -, hfits, -⟩ :=
    Interleaved.sharing.exists_extended false (show 0 < 2 by decide) 8
  obtain ⟨hok, hextended, hlength⟩ := hfits (by decide)
  obtain ⟨-, short, -, -, -, hlost⟩ :=
    Interleaved.sharing.exists_extended false (show 0 < 2 ^ 63 by decide) 8
  obtain ⟨herror, hshort⟩ := hlost (Nat.le_refl _)
  have hroom : (Interleaved.chains false).lastRoom = 3 := by decide
  rw [hroom] at hlength herror hshort
  exact ⟨Interleaved.sharing, hok, ⟨chain', added, hextended, hlength⟩, herror, short, hshort⟩

end File

end Filestore
