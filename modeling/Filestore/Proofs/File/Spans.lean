import Filestore.File.Extent
import Filestore.Proofs.Chain.Push

/-!
# `Filestore.Proofs.File.Spans`: files and their chains

`File.Spans file blocks chain` says that a file lies in storage as a chain: the chain is stored
and joined from the file's first block to its last one, and the file counts its bytes and its
blocks. The chain is then the one that `File.chain` walks along (`Spans.chain_eq`), and there is
no other (`Spans.unique`).

`File.Edit` is a change of one file: it keeps what the file is called and who holds it, leaves the
file spanning another chain, and exchanges the blocks of the one chain for those of the other.
Edits follow one another (`Edit.trans`), so an operation of several steps is one edit. The edits
here are the elementary ones:

* `Spans.link`: a block is linked at the end;
* `Spans.replace`: a block gets other bytes;
* `Spans.cut`: the chain is cut behind a block;
* `Spans.release`: all blocks are given back.

A link can fail in general, where the last block is gone. On a file that spans its chain it
cannot, and `Spans.link` says so: the last block of the chain is in storage, and is still there
when the new block has its slot.
-/

set_option autoImplicit false

namespace Filestore

namespace File

/-- The file lies in storage as the chain.

- `stored`: every block is what its handle denotes.
- `joined`: the links run from the first block along the chain, and back.
- `tail_eq`: the last block is the last one of the chain.
- `nodup`: no block is met twice.
- `size_eq`: the bytes are counted.
- `blocks_eq`: the blocks are counted. -/
structure Spans (file : File) (blocks : Slab Block) (chain : Chain) : Prop where
  stored : chain.Stored blocks
  joined : Chain.Joined none file.head chain none
  tail_eq : file.tail = Chain.lastId none chain
  nodup : chain.ids.Nodup
  size_eq : file.size = chain.contents.length
  blocks_eq : file.blocks = chain.length

/-- The chain that a file spans is the one along its links, from the first to the last. -/
theorem Spans.chain_eq {file : File} {blocks : Slab Block} {chain : Chain}
    (h : file.Spans blocks chain) : file.chain blocks = chain :=
  (h.joined.reaches h.stored).walk_eq

/-- The contents of a file that spans a chain are those of the chain. -/
theorem Spans.contents_eq {file : File} {blocks : Slab Block} {chain : Chain}
    (h : file.Spans blocks chain) : file.contents blocks = chain.contents := by
  rw [contents, h.chain_eq]

/-- The position of a cursor is the one that it stands at in the chain of the file. -/
theorem Spans.position_eq {file : File} {blocks : Slab Block} {chain : Chain} {cursor : Cursor}
    {pos : Nat} (h : file.Spans blocks chain) (hstands : chain.Stands cursor pos) :
    file.position blocks cursor = some pos := by
  rw [position, h.chain_eq]
  exact hstands.position_eq h.nodup

/-- A file spans one chain only, because its links lead along one only. -/
theorem Spans.unique {file : File} {blocks : Slab Block} {chain chain' : Chain}
    (h : file.Spans blocks chain) (h' : file.Spans blocks chain') : chain = chain' :=
  h.chain_eq.symm.trans h'.chain_eq

/-- A file keeps its chain when blocks outside of it are exchanged, whatever comes in for them. -/
theorem Spans.exchange {file : File} {blocks blocks' : Slab Block} {chain : Chain}
    {old new : List BlockId} (h : file.Spans blocks chain) (hex : blocks.Exchange blocks' old new)
    (hout : ∀ id ∈ chain.ids, id ∉ old) : file.Spans blocks' chain :=
  ⟨h.stored.exchange hex hout, h.joined, h.tail_eq, h.nodup, h.size_eq, h.blocks_eq⟩

/-- Where a file lies does not depend on who holds it, nor on whether its name is deleted. -/
theorem Spans.with_accounts {file : File} {blocks : Slab Block} {chain : Chain}
    (h : file.Spans blocks chain) (refs : Nat) (deleted : Bool) :
    Spans { file with refs, deleted } blocks chain :=
  ⟨h.stored, h.joined, h.tail_eq, h.nodup, h.size_eq, h.blocks_eq⟩

/-- A new file has no blocks, in any storage, and counts none. -/
theorem spans_named (name : String) (blocks : Slab Block) : (named name).Spans blocks [] :=
  ⟨fun _ hentry => (nomatch hentry), rfl, rfl, List.nodup_nil, rfl, rfl⟩

/-- The file was changed into one of the same name, bindings and fate that spans another chain.

- `name_eq`: the name stays.
- `refs_eq`: the count of descriptors stays.
- `deleted_eq`: whether the name was deleted stays.
- `spans`: the new file spans the new chain.
- `exchange`: only blocks of the two chains are touched. -/
structure Edit (file : File) (blocks : Slab Block) (chain : Chain) (file' : File)
    (blocks' : Slab Block) (chain' : Chain) : Prop where
  name_eq : file'.name = file.name
  refs_eq : file'.refs = file.refs
  deleted_eq : file'.deleted = file.deleted
  spans : file'.Spans blocks' chain'
  exchange : blocks.Exchange blocks' chain.ids chain'.ids

variable {file file' file'' : File} {blocks blocks' blocks'' : Slab Block}
  {chain chain' chain'' : Chain}

/-- A file that is left as it is has been edited into itself. -/
theorem Spans.edit_self (h : file.Spans blocks chain) :
    file.Edit blocks chain file blocks chain :=
  ⟨rfl, rfl, rfl, h, Slab.Exchange.refl _ _⟩

/-- One edit after another is an edit, from the first chain to the last. The chain in between is
gone from storage as far as it is in neither. -/
theorem Edit.trans (h₁ : file.Edit blocks chain file' blocks' chain')
    (h₂ : file'.Edit blocks' chain' file'' blocks'' chain'') :
    file.Edit blocks chain file'' blocks'' chain'' where
  name_eq := h₂.name_eq.trans h₁.name_eq
  refs_eq := h₂.refs_eq.trans h₁.refs_eq
  deleted_eq := h₂.deleted_eq.trans h₁.deleted_eq
  spans := h₂.spans
  exchange := h₁.exchange.trans h₂.exchange

/-- A block of both chains is what it was: an edit that keeps it in the chain keeps it in
storage. -/
theorem Edit.get?_eq (h : file.Edit blocks chain file' blocks' chain')
    (hspans : file.Spans blocks chain) {entry : BlockId × Block} (hold : entry ∈ chain)
    (hnew : entry ∈ chain') : blocks'.get? entry.1 = blocks.get? entry.1 := by
  rw [h.spans.stored entry hnew, hspans.stored entry hold]

/-- The blocks of a file are in storage, so their handles are good. -/
theorem Spans.mem_keys (h : file.Spans blocks chain) {id : BlockId} (hid : id ∈ chain.ids) :
    id ∈ blocks.keys := by
  obtain ⟨entry, hentry, rfl⟩ := List.mem_map.mp hid
  exact Slab.mem_keys.mpr ⟨entry.2, h.stored entry hentry⟩

/-- Storage has as many blocks more, or less, as the file has after the edit. -/
theorem Edit.len_add (h : file.Edit blocks chain file' blocks' chain')
    (hspans : file.Spans blocks chain) (hsound : blocks.Sound) :
    blocks'.len + chain.length = blocks.len + chain'.length := by
  have hlen := h.exchange.len_add hsound hspans.nodup h.spans.nodup (fun _ => hspans.mem_keys)
    fun _ => h.spans.mem_keys
  rwa [Chain.length_ids, Chain.length_ids] at hlen

/-- A block of a file is in storage, and holds the bytes of the file from its start on. -/
theorem Spans.exists_block (h : file.Spans blocks chain) {capacity : Nat}
    (huniform : chain.Uniform capacity) {i : Nat} {id : BlockId} (hid : chain.ids[i]? = some id) :
    ∃ block, blocks.get? id = some block ∧ block.occupied ≤ capacity ∧
      ∀ j < capacity, block.bytes[j]? = chain.contents[i * capacity + j]? := by
  obtain ⟨front, block, back, rfl, rfl⟩ := Chain.exists_split_of_ids hid
  have hmem := List.mem_append_right front (List.mem_cons_self (a := (id, block)) (l := back))
  exact ⟨block, h.stored _ hmem, huniform.occupied_le hmem, fun j => huniform.getElem?_bytes⟩

/-- A handle that denotes nothing is not in a stored chain, so a new block is not one of the
file's. -/
theorem Spans.not_mem_ids (h : file.Spans blocks chain) {id : BlockId}
    (hid : blocks.get? id = none) : id ∉ chain.ids := by
  intro hmem
  obtain ⟨entry, hentry, rfl⟩ := List.mem_map.mp hmem
  rw [h.stored entry hentry] at hid
  cases hid

/-- The last block of a chain is the one that the file says, and it is in storage. -/
theorem Spans.last_eq {front : Chain} {last : BlockId} {block : Block}
    (h : file.Spans blocks (front ++ [(last, block)])) :
    file.tail = some last ∧ blocks.get? last = some block :=
  ⟨by rw [h.tail_eq, Chain.lastId_concat],
    h.stored (last, block) (List.mem_append_right _ (List.mem_singleton_self _))⟩

/-- A block that comes into storage is not the last one of a file, as the handle of that is good. -/
theorem Spans.fst_insert_ne (h : file.Spans blocks chain) {tail : BlockId}
    (htail : file.tail = some tail) (block : Block) : (blocks.insert block).1 ≠ tail := by
  obtain ⟨front, last, rfl⟩ := Chain.eq_concat_of_lastId (h.tail_eq.symm.trans htail)
  rintro rfl
  cases (Slab.get?_fst_insert blocks block).symm.trans h.last_eq.2

/-- A block is linked to a file without blocks, as its first and last one. There is no last block
that could be gone. -/
private theorem Spans.link_nil (h : file.Spans blocks []) {block : Block}
    (hnext : block.next = none) :
    ∃ id longer stored, file.link blocks block = (.ok id, longer, stored) ∧
      file.Edit blocks [] (longer.grow block.occupied) stored (Chain.push [] id block) := by
  have htail : file.tail = none := h.tail_eq
  simp only [File.link, htail]
  refine ⟨_, _, _, rfl, rfl, rfl, rfl, ⟨?_, ⟨rfl, rfl, hnext⟩, rfl, ?_, ?_, ?_⟩,
    Slab.Exchange.insert blocks _⟩
  · intro entry hentry
    rw [List.mem_singleton.mp hentry]
    exact Slab.get?_insert_self blocks _
  · exact List.pairwise_singleton _ _
  · show file.size + block.occupied = _
    rw [h.size_eq, Chain.contents_push, List.length_append]
    rfl
  · show file.blocks + 1 = 1
    rw [h.blocks_eq, List.length_nil]

/-- A block is linked to the last block of a file. That one is still there beside the new one, so
the link does not fail. -/
private theorem Spans.link_concat {front : Chain} {last : BlockId} {other : Block}
    (h : file.Spans blocks (front ++ [(last, other)])) {block : Block} (hnext : block.next = none) :
    ∃ id longer stored, file.link blocks block = (.ok id, longer, stored) ∧
      file.Edit blocks (front ++ [(last, other)]) (longer.grow block.occupied) stored
        (Chain.push (front ++ [(last, other)]) id block) := by
  obtain ⟨htail, hother⟩ := h.last_eq
  have hinsert := Slab.Exchange.insert blocks (block.linkPrev (some last))
  have hnew := Slab.get?_insert_self blocks (block.linkPrev (some last))
  have hfresh := h.not_mem_ids (Slab.get?_fst_insert blocks (block.linkPrev (some last)))
  have hstill := hinsert.kept last (by simp)
    (List.mem_singleton.not.mpr (h.fst_insert_ne htail _).symm)
  have hlast : last ∈ Chain.ids (front ++ [(last, other)]) :=
    Chain.mem_ids (List.mem_append_right front (List.mem_singleton_self (last, other)))
  -- The old chain is still stored beside the new block, which no handle of the chain denotes.
  have hinserted := h.stored.exchange hinsert fun _ _ hmem => nomatch hmem
  simp only [File.link, htail, hstill, hother]
  generalize (blocks.insert (block.linkPrev (some last))).1 = id at hinsert hnew hfresh ⊢
  refine ⟨id, _, _, rfl, rfl, rfl, rfl, ⟨?_, ?_, ?_, ?_, ?_, ?_⟩, ?_⟩
  · exact Chain.stored_push hinserted h.nodup hnew fun heq => hfresh (heq ▸ hlast)
  · exact Chain.joined_push h.joined (by simp) id hnext
  · exact (Chain.lastId_push _ _ _ _).symm
  · exact Chain.nodup_push h.nodup hfresh block
  · show file.size + block.occupied = _
    rw [h.size_eq, Chain.contents_push, List.length_append]
    rfl
  · show file.blocks + 1 = _
    rw [h.blocks_eq, Chain.length_push]
  · -- Storage gained the new block, and then the last one was linked to it.
    rw [Chain.ids_push]
    have hlinked := hinsert.append_left (Chain.ids (front ++ [(last, other)]))
    rw [List.append_nil] at hlinked
    exact hlinked.trans (Slab.Exchange.set (List.mem_append_left _ hlast) _ _)

/-- Linking a block to a file adds it to the chain. It does not fail: the last block that the
chain has, if it has one, is in storage. -/
theorem Spans.link (h : file.Spans blocks chain) {block : Block} (hnext : block.next = none) :
    ∃ id longer stored, file.link blocks block = (.ok id, longer, stored) ∧
      file.Edit blocks chain (longer.grow block.occupied) stored (chain.push id block) := by
  rcases List.eq_nil_or_concat' chain with rfl | ⟨front, ⟨last, other⟩, rfl⟩
  · exact h.link_nil hnext
  · exact h.link_concat hnext

/-- A block of a file gets other bytes, no fewer than it had. The file counts those that it has
more. -/
theorem Spans.replace {front back : Chain} {id : BlockId} {block changed : Block} {more : Nat}
    (h : file.Spans blocks (front ++ (id, block) :: back)) (hprev : changed.prev = block.prev)
    (hnext : changed.next = block.next) (hmore : changed.occupied = block.occupied + more) :
    file.Edit blocks (front ++ (id, block) :: back) (file.grow more) (blocks.set id changed)
      (front ++ (id, changed) :: back) := by
  have hids : Chain.ids (front ++ (id, changed) :: back)
      = Chain.ids (front ++ (id, block) :: back) := by simp
  have hmem : (id, block) ∈ front ++ (id, block) :: back :=
    List.mem_append_right _ List.mem_cons_self
  refine ⟨rfl, rfl, rfl, ⟨?_, ?_, ?_, hids ▸ h.nodup, ?_, ?_⟩, ?_⟩
  · exact h.stored.replace h.nodup changed
  · obtain ⟨middle, hjoined, hstart, hblock, hrest⟩ := Chain.joined_append.mp h.joined
    exact Chain.joined_append.mpr ⟨middle, hjoined, hstart, hprev.trans hblock, hnext ▸ hrest⟩
  · show file.tail = _
    rw [h.tail_eq, Chain.lastId_append, Chain.lastId_append]
    rfl
  · -- The bytes of the other blocks cancel out.
    show file.size + more = _
    rw [h.size_eq]
    simp only [Chain.contents_append, Chain.contents_cons, List.length_append]
    unfold Block.occupied at hmore
    omega
  · show file.blocks = _
    rw [h.blocks_eq, List.length_append, List.length_append]
    rfl
  · rw [hids]
    exact Slab.Exchange.set (Chain.mem_ids hmem) blocks changed

/-- A file gives all its blocks back, and as many are counted as it had. -/
theorem Spans.release (h : file.Spans blocks chain) :
    (file.release blocks).1 = chain.length ∧
      file.Edit blocks chain (file.release blocks).2.1 (file.release blocks).2.2 [] := by
  obtain ⟨hcount, hex⟩ := Chain.release_spec h.stored h.joined h.nodup
  refine ⟨hcount, rfl, rfl, rfl, ⟨?_, rfl, rfl, List.nodup_nil, rfl, rfl⟩, hex⟩
  exact fun entry hentry => nomatch hentry

/-- The blocks behind a block are still there, joined, when that block is changed. So the links
past a cut can be followed from the block as it was. -/
theorem Spans.behind {front back : Chain} {id : BlockId} {block : Block}
    (h : file.Spans blocks (front ++ (id, block) :: back)) (changed : Block) :
    Chain.Stored (blocks.set id changed) back ∧ Chain.Joined (some id) block.next back none ∧
      (Chain.ids back).Nodup := by
  obtain ⟨-, hrest⟩ := Chain.stored_append.mp (h.stored.replace h.nodup changed)
  obtain ⟨middle, -, -, -, hback⟩ := Chain.joined_append.mp h.joined
  have hnodup := h.nodup
  rw [Chain.ids_append, Chain.ids_cons, List.nodup_append, List.nodup_cons] at hnodup
  exact ⟨hrest.subset (List.subset_cons_self _ _), hback, hnodup.2.1.2⟩

/-- A file is cut within a block, and gives back the blocks after it. The block that is cut leads
nowhere from then on. -/
theorem Spans.cut {front back : Chain} {id : BlockId} {block : Block} {offset : Nat}
    (h : file.Spans blocks (front ++ (id, block) :: back)) (hoffset : offset ≤ block.occupied) :
    let kept := blocks.set id ((block.truncate offset).linkNext none)
    (Chain.release kept block.next).1 = back.length ∧
      file.Edit blocks (front ++ (id, block) :: back)
        { file with
          tail := some id
          size := front.contents.length + offset
          blocks := file.blocks - (Chain.release kept block.next).1 }
        (Chain.release kept block.next).2
        (front ++ [(id, (block.truncate offset).linkNext none)]) := by
  intro kept
  obtain ⟨middle, hjoined, hstart, hprev, -⟩ := Chain.joined_append.mp h.joined
  -- The blocks after the cut are still there when they are given back.
  obtain ⟨hstored, hback, hnodup⟩ := h.behind ((block.truncate offset).linkNext none)
  obtain ⟨hcount, hex⟩ := Chain.release_spec hstored hback hnodup
  have hkept : Chain.Stored kept (front ++ (id, (block.truncate offset).linkNext none) :: back) :=
    h.stored.replace h.nodup _
  have hids : Chain.ids (front ++ (id, block) :: back)
      = Chain.ids (front ++ [(id, (block.truncate offset).linkNext none)]) ++ Chain.ids back := by
    simp
  have hapart := h.nodup
  rw [hids, List.nodup_append] at hapart
  refine ⟨hcount, rfl, rfl, rfl, ⟨?_, ?_, ?_, hapart.1, ?_, ?_⟩, ?_⟩
  -- Giving back the blocks after the cut leaves the kept ones alone, since no handle is in both.
  · refine (hkept.subset ?_).exchange hex fun key hkey hmem => hapart.2.2 key hkey key hmem rfl
    exact (((List.nil_sublist back).cons_cons _).append_left front).subset
  · exact Chain.joined_append.mpr ⟨middle, hjoined, hstart, hprev, rfl⟩
  · exact (Chain.lastId_concat none front (id, (block.truncate offset).linkNext none)).symm
  · have hlength : (block.truncate offset).bytes.length = offset := by
      have := block.occupied_truncate offset
      rwa [Nat.min_eq_left hoffset] at this
    simp only [Chain.contents_append, Chain.contents_cons, Chain.contents_nil, Block.linkNext,
      List.append_nil, List.length_append, hlength]
  · show file.blocks - _ = _
    rw [hcount, h.blocks_eq, List.length_append, List.length_append, List.length_cons,
      List.length_singleton]
    omega
  · have hmem : id ∈ Chain.ids (front ++ (id, block) :: back) := by simp
    have hfreed := hex.append_left
      (Chain.ids (front ++ [(id, (block.truncate offset).linkNext none)]))
    rw [List.append_nil, ← hids] at hfreed
    exact (Slab.Exchange.set hmem blocks _).trans hfreed

end File

end Filestore
