import Filestore.Proofs.Chain.Capacity
import Filestore.Proofs.Store.Split

/-!
# `Filestore.Proofs.Store.InPlace`: the blocks that a write touches

A write stores its bytes in the blocks that hold their positions. The file keeps the blocks that it
has, and gets new ones behind them only if the bytes go past the last one: as many as its new size
asks for. A block that the bytes do not reach holds what it held, and so does every block of another
file. `Store.InPlace` says this of the file and the storage before and after.

Where a write stored something its cursor is at the end of the last byte, in the block of that byte
and never at the start of the next one. `Reachable.write_in_place` is the main result, for any
position and any limit.
-/

set_option autoImplicit false

namespace Filestore

open FlatStore (blocksFor)

/-- What storing `bytes` at position `pos` does to a file with blocks of the capacity.

- `size_eq`: the file ends where it did, or where the bytes end.
- `contents_eq`: the bytes are in place.
- `ids_eq`: the blocks are those that the file had, in their order, and then those that were added.
- `length_added`: as many were added as the size asks for.
- `added_eq_nil`: none was added where the bytes end in a block that the file had.
- `fresh`: those that were added are new.
- `len_eq`: the storage has them, and no others.
- `kept`: a block that the bytes do not reach holds what it held.
- `kept_byte`: a byte that the bytes do not reach is what it was.
- `others`: the other blocks of the storage are what they were. -/
structure InPlace (capacity : Nat) (blocks blocks' : Slab Block) (file file' : File) (pos : Nat)
    (bytes : Bytes) (added : List BlockId) : Prop where
  size_eq : file'.size = max file.size (pos + bytes.length)
  contents_eq : file'.contents blocks' = (file.contents blocks).splice pos bytes
  ids_eq : (file'.chain blocks').ids = (file.chain blocks).ids ++ added
  length_added : added.length
    = blocksFor capacity (max file.size (pos + bytes.length)) - blocksFor capacity file.size
  added_eq_nil : bytes = [] ∨ pos + bytes.length ≤ file.blocks * capacity → added = []
  fresh : ∀ id ∈ added, blocks.get? id = none
  len_eq : blocks'.len = blocks.len + added.length
  kept : ∀ (i : Nat) id block, (file.chain blocks)[i]? = some (id, block) →
    bytes = [] ∨ (i + 1) * capacity ≤ pos ∨ pos + bytes.length ≤ i * capacity →
    ∃ block', blocks'.get? id = some block' ∧ block'.bytes = block.bytes
  kept_byte : ∀ (i : Nat) id block, (file.chain blocks)[i]? = some (id, block) →
    ∀ j < block.occupied, i * capacity + j < pos ∨ pos + bytes.length ≤ i * capacity + j →
    ∃ block', blocks'.get? id = some block' ∧ block'.bytes[j]? = block.bytes[j]?
  others : ∀ id, id ∉ (file'.chain blocks').ids → blocks'.get? id = blocks.get? id

variable {capacity pos : Nat} {bytes : Bytes} {file file' : File} {blocks blocks' : Slab Block}
  {chain chain' : Chain} {added : List BlockId}

/-- Where bytes were put over the contents of a file, the bytes of its blocks that these do not
reach are what they were. The blocks have one capacity, so the place of a byte in the contents
says which block it is in. -/
theorem File.Edit.kept_bytes (h : file.Edit blocks chain file' blocks' chain')
    (hspans : file.Spans blocks chain) (huniform : chain.Uniform capacity)
    (huniform' : chain'.Uniform capacity) (hids : chain.ids <+: chain'.ids)
    (hpos : pos ≤ chain.contents.length)
    (hcontents : chain'.contents = chain.contents.splice pos bytes) {i : Nat} {id : BlockId}
    {block : Block} (hentry : chain[i]? = some (id, block)) :
    ∃ block', blocks'.get? id = some block' ∧ block.occupied ≤ capacity ∧
      block'.occupied ≤ capacity ∧
      ∀ j < capacity, i * capacity + j < pos ∨ pos + bytes.length ≤ i * capacity + j →
        block'.bytes[j]? = block.bytes[j]? := by
  have hid : chain.ids[i]? = some id := by
    rw [Chain.ids, List.getElem?_map, hentry]
    rfl
  have hblock := hspans.stored _ (List.mem_of_getElem? hentry)
  obtain ⟨current, hcurrent, hfits, hbytes⟩ := hspans.exists_block huniform hid
  obtain ⟨block', hblock', hfits', hbytes'⟩ :=
    h.spans.exists_block huniform' (Chain.getElem?_of_prefix hids hid)
  cases hblock.symm.trans hcurrent
  refine ⟨block', hblock', hfits, hfits', ?_⟩
  intro j hj hout
  rw [hbytes' j hj, hcontents, Bytes.getElem?_splice hpos hout, hbytes j hj]

/-- The blocks that an edit adds are new: their handles denoted nothing before, so they were not a
block of any other file. -/
theorem File.Edit.fresh_of_added (h : file.Edit blocks chain file' blocks' chain')
    (hadded : chain.ids ++ added = chain'.ids) : ∀ id ∈ added, blocks.get? id = none := by
  intro id hid
  refine h.exchange.fresh id (hadded ▸ List.mem_append_right _ hid) fun hold => ?_
  have hnodup := h.spans.nodup
  rw [← hadded, List.nodup_append] at hnodup
  exact hnodup.2.2 id hold id hid rfl

/-- The storage has the blocks that an edit adds, and no others: it has grown by just their
number. -/
theorem File.Edit.len_eq_of_added (h : file.Edit blocks chain file' blocks' chain')
    (hspans : file.Spans blocks chain) (hsound : blocks.Sound)
    (hadded : chain.ids ++ added = chain'.ids) : blocks'.len = blocks.len + added.length := by
  have hlen := h.len_add hspans hsound
  rw [← Chain.length_ids chain', ← hadded, List.length_append, Chain.length_ids] at hlen
  omega

/-- An edit that puts bytes over the contents of a packed chain puts them in place. The number of
blocks added follows from the sizes, as packed chains have as many blocks as their bytes take. -/
theorem File.Edit.inPlace (hcapacity : 0 < capacity)
    (h : file.Edit blocks chain file' blocks' chain') (hspans : file.Spans blocks chain)
    (hsound : blocks.Sound) (hpacked : chain.Packed capacity) (hpacked' : chain'.Packed capacity)
    (hids : chain.ids <+: chain'.ids) (hpos : pos ≤ chain.contents.length)
    (hcontents : chain'.contents = chain.contents.splice pos bytes) :
    ∃ added, InPlace capacity blocks blocks' file file' pos bytes added := by
  have hkept := fun (i : Nat) (id : BlockId) (block : Block)
    (hentry : chain[i]? = some (id, block)) =>
      h.kept_bytes hspans hpacked.toUniform hpacked'.toUniform hids hpos hcontents hentry
  obtain ⟨added, hadded⟩ := hids
  have hlength := hpacked.length_added hpacked' hadded
  have hcontents' := Bytes.length_splice hpos bytes
  rw [← hcontents] at hcontents'
  refine ⟨added, ?_, ?_, ?_, ?_, ?_, h.fresh_of_added hadded,
    h.len_eq_of_added hspans hsound hadded, ?_, ?_, ?_⟩
  · rw [h.spans.size_eq, hcontents', hspans.size_eq]
  · rw [h.spans.contents_eq, hcontents, hspans.contents_eq]
  · rw [h.spans.chain_eq, hspans.chain_eq, hadded]
  · rw [hlength, hcontents', hspans.size_eq]
  · intro hroom
    -- The blocks of the file have room for all that is in it, and the bytes end within them.
    refine hpacked.added_eq_nil hpacked' hcapacity hadded ?_
    have hle := hpacked.toUniform.length_contents_le
    rw [hcontents']
    rcases hroom with rfl | hroom
    · rw [List.length_nil]
      omega
    · rw [hspans.blocks_eq] at hroom
      omega
  · intro i id block hentry hout
    rw [hspans.chain_eq] at hentry
    obtain ⟨block', hblock', hfits, hfits', hbytes⟩ := hkept i id block hentry
    refine ⟨block', hblock', List.ext_getElem? fun j => ?_⟩
    rcases Nat.lt_or_ge j capacity with hj | hj
    · -- A byte before the capacity is outside of what was put in, as its whole block is.
      refine hbytes j hj ?_
      rcases hout with rfl | hout
      · exact Nat.lt_or_ge (i * capacity + j) pos
      · rw [Nat.add_mul, Nat.one_mul] at hout
        omega
    · rw [List.getElem?_eq_none (Nat.le_trans hfits' hj),
        List.getElem?_eq_none (Nat.le_trans hfits hj)]
  · intro i id block hentry j hj hout
    rw [hspans.chain_eq] at hentry
    obtain ⟨block', hblock', hfits, -, hbytes⟩ := hkept i id block hentry
    exact ⟨block', hblock', hbytes j (Nat.lt_of_lt_of_le hj hfits) hout⟩
  · intro id hid
    rw [h.spans.chain_eq] at hid
    exact h.exchange.kept id (fun hold => hid (hadded ▸ List.mem_append_left _ hold)) hid

section Limit

variable {config : Config} {stream : Stream} {data : Bytes} {written : Stream.Written}

/-- Bytes that end within the limit are stored. -/
theorem Stream.Written.Complete.of_admits (h : written.Complete config stream chain pos data)
    (hadmits : config.Admits (pos + data.length)) :
    written.answer = .ok data.length ∧ written.kind = .noError := by
  have hcount := h.count_eq.trans (Config.admitted_of_admits hadmits)
  have herror := h.error_eq.trans (if_neg (Nat.not_lt.mpr (Nat.le_of_eq hcount.symm)))
  exact ⟨h.answer_eq_ok_iff.mpr herror, by rw [kind, herror]⟩

/-- Bytes that end past the limit are stored up to the limit. -/
theorem Stream.Written.Complete.of_limit_lt (h : written.Complete config stream chain pos data)
    (hadmits : config.Admits pos) (limit : Nat) (hlimit : config.sizeLimit = some limit)
    (hlt : limit < pos + data.length) :
    pos + written.count = limit ∧
      written.answer = (if written.count = 0 then .error (.fileTooLarge stream.file.name limit)
        else .ok written.count) ∧
      written.kind = .fileTooLarge := by
  have hpos := hadmits limit hlimit
  have hcount := h.count_eq
  rw [Config.admitted, hlimit] at hcount
  simp only at hcount
  have herror := h.error_eq.trans (if_pos (show written.count < data.length by omega))
  rw [tooLarge, hlimit, Option.getD_some] at herror
  refine ⟨by omega, ?_, ?_⟩
  · simp only [answer, herror]
  · simp only [kind, herror]
    rfl

end Limit

namespace Store

variable {config : Config} {store : Store} {fd : Nat} {descriptor : Descriptor}

/-- What a write does to the blocks of its file, at any position and any limit.

Its bytes are put in place: as many of `data` as the limit admits at the position of its cursor. If
there are any, the cursor is in the block of the last one, right after it. The write is complete
where all bytes end within the limit. Where they do not, it has stored those up to the limit, and it
fails if there are none. -/
theorem Reachable.write_in_place (h : Reachable config store)
    (hget : store.descriptors.get? fd = some descriptor) (data : Bytes) :
    ∃ file file' pos count added,
      store.file? descriptor.file = some file ∧
      file.position store.blocks descriptor.cursor = some pos ∧
      (store.write fd data).2.file? descriptor.file = some file' ∧
      stored (store.write fd data).1 = count ∧ count ≤ data.length ∧
      InPlace store.config.blockSize store.blocks (store.write fd data).2.blocks file file' pos
        (data.take count) added ∧
      (0 < count → ∃ id,
        (file'.chain (store.write fd data).2.blocks).ids[
          (pos + count - 1) / store.config.blockSize]? = some id ∧
        (store.write fd data).2.descriptors.get? fd = some { descriptor with
          cursor := Cursor.inBlock id (pos + count
            - store.config.blockSize * ((pos + count - 1) / store.config.blockSize)) }) ∧
      (store.config.Admits (pos + data.length) →
        (store.write fd data).1 = .ok data.length ∧
        (store.write fd data).2.lastError = .noError) ∧
      ∀ limit, store.config.sizeLimit = some limit → limit < pos + data.length →
        pos + count = limit ∧
        (store.write fd data).1
          = (if count = 0 then .error (.fileTooLarge file.name limit) else .ok count) ∧
        (store.write fd data).2.lastError = .fileTooLarge := by
  obtain ⟨file, hfile⟩ := h.sound.exists_file hget
  obtain ⟨pos, hstands⟩ := h.sound.exists_stands hget
  obtain ⟨written, hcomplete, hwrite⟩ := h.sound.exists_written hget hfile hstands data
  have hresting := h.sound.resting hget hfile hstands
  have hspans := h.sound.spans hfile
  obtain ⟨chain, hedit, hids, hcontents, hrest⟩ := hcomplete.resting hresting
  obtain ⟨added, hplace⟩ := hedit.inPlace store.config.blockSize_pos hspans
    h.sound.storage.blocks_sound hresting.packed hrest.packed hids hresting.ready.le_length
    hcontents
  rw [hwrite]
  have hle := hcomplete.count_eq ▸ store.config.admitted_le pos data.length
  -- The two statements about the limit are `of_admits` and `of_limit_lt`; what is left is the
  -- position before and the cursor afterwards.
  refine ⟨file, written.stream.file, pos, written.count, added, hfile, ?_,
    file?_wrote hfile written, written.stored_answer, hle, hplace, ?_, hcomplete.of_admits,
    hcomplete.of_limit_lt hresting.ready.admits⟩
  · rw [File.position, hspans.chain_eq]
    exact hstands.position_eq hspans.nodup
  · intro hpos
    have hset := hrest.stands.block_ne_none (hcomplete.offset_pos hpos)
    obtain ⟨id, hid, hcursor⟩ := hrest.cursor_eq hset
    refine ⟨id, ?_, ?_⟩
    · rw [← hid]
      exact congrArg (fun chain : Chain => chain.ids[_]?) hrest.spans.chain_eq
    · rw [← hcursor]
      exact get?_wrote hget descriptor.file written

/-- The first bytes go into the room of the last block, and the others into a new one, up to the
limit. The write is short, and its cursor ends inside the new block. -/
theorem write_in_place_limit :
    let config : Config := ⟨4, some 10, by decide, by decide⟩
    let store := ((empty config).performAll [.openFile "a" true, .write 0 [1, 2, 3, 4, 5, 6]]).2
    let file : File := ⟨"a", some ⟨0, 0⟩, some ⟨1, 0⟩, 1, false, 6, 2⟩
    let after := (store.write 0 [7, 8, 9, 10, 11]).2
    Reachable config store ∧
      store.descriptors.get? 0 = some ⟨⟨0, 0⟩, Cursor.inBlock ⟨1, 0⟩ 2⟩ ∧
      store.file? ⟨0, 0⟩ = some file ∧
      ∃ file' added, after.file? ⟨0, 0⟩ = some file' ∧
        InPlace 4 store.blocks after.blocks file file' 6 [7, 8, 9, 10] added ∧ added.length = 1 ∧
        after.lastError = .fileTooLarge := by
  intro config store file after
  have h : Reachable config store := reachable_iff_exists_performAll.mpr ⟨_, rfl⟩
  have hget : store.descriptors.get? 0 = some ⟨⟨0, 0⟩, Cursor.inBlock ⟨1, 0⟩ 2⟩ := by decide
  have hfile : store.file? ⟨0, 0⟩ = some file := by decide
  obtain ⟨current, file', pos, count, added, hcurrent, hposition, hfile', hstored, -, hplace, -, -,
    hshort⟩ := h.write_in_place hget [7, 8, 9, 10, 11]
  -- What the general theorem only names is fixed here, one thing after the other.
  obtain rfl := Option.some.inj (hfile.symm.trans hcurrent)
  have hpos : file.position store.blocks (Cursor.inBlock ⟨1, 0⟩ 2) = some 6 := by decide
  obtain rfl := Option.some.inj (hpos.symm.trans hposition)
  have hcount : stored (store.write 0 [7, 8, 9, 10, 11]).1 = 4 := by decide
  obtain rfl := hcount.symm.trans hstored
  have hsize : store.config.blockSize = 4 := by decide
  rw [hsize] at hplace
  have hlimit : store.config.sizeLimit = some 10 := by decide
  obtain ⟨-, -, hkind⟩ := hshort 10 hlimit (by decide)
  exact ⟨h, hget, hfile, file', added, hfile', hplace, hplace.length_added.trans (by decide), hkind⟩

end Store

end Filestore
