import Filestore.Proofs.Store.Reachable

/-!
# `Filestore.Proofs.Store.Chains`: the chains of a reachable store

`File.InOrder` spells out how a file lies in storage: its links form one finite chain without
repetitions that can be followed both ways, its blocks are full up to the last one, which is not
empty, and what the file says of its size and of its number of blocks is so.

`chainsInOrder_performAll` is the main result. In whatever store calls lead to, every file is in
order, no two files share a block, and every block in storage is one of exactly one file's. So the
arena never leaks a block, and never hands one to two files.

The invariant of the store (`Store.Sound`) says all this in the terms that the proofs about the
operations need: `File.Spans`, `Chain.Packed`, `Storage`. This module turns them into statements
about handles and numbers alone, so that a reader need not look at the invariant to know what was
proved. `Chain.occupied` adds up what the blocks hold by the chain's own recursion, without the
bytes themselves.
-/

set_option autoImplicit false

namespace Filestore

/-- How many bytes the blocks of a chain hold together, by what each of them says of itself. -/
def Chain.occupied : Chain → Nat
  | [] => 0
  | entry :: rest => entry.2.occupied + Chain.occupied rest

/-- The file lies in storage as one chain of blocks, and says what is so about it.

- `stored`: the blocks along the links from the first one are in storage.
- `joined`: the links lead from the first block along the chain to nowhere, and back from each block
  to the one before it.
- `acyclic`: no block is met twice.
- `tail_eq`: the chain ends at the last block.
- `head_eq_none_iff`: there is no first block just when there is no byte.
- `tail_eq_none_iff`: there is no last block just when there is no byte.
- `length_eq`: the blocks are counted.
- `blocks_eq`: there are as many as the bytes take.
- `capacity_eq`: every block has the capacity that the settings say.
- `full`: every block but the last is full.
- `filled`: the last one is not empty.
- `size_eq`: the bytes are counted.
- `within`: there are no more of them than allowed. -/
structure File.InOrder (file : File) (config : Config) (blocks : Slab Block) : Prop where
  stored : (file.chain blocks).Stored blocks
  joined : Chain.Joined none file.head (file.chain blocks) none
  acyclic : (file.chain blocks).ids.Nodup
  tail_eq : file.tail = Chain.lastId none (file.chain blocks)
  head_eq_none_iff : file.head = none ↔ file.size = 0
  tail_eq_none_iff : file.tail = none ↔ file.size = 0
  length_eq : (file.chain blocks).length = file.blocks
  blocks_eq : file.blocks = (file.size + config.blockSize - 1) / config.blockSize
  capacity_eq : ∀ entry ∈ file.chain blocks, entry.2.capacity = config.blockSize
  full : ∀ entry ∈ (file.chain blocks).dropLast, entry.2.occupied = config.blockSize
  filled : ∀ entry ∈ (file.chain blocks).getLast?, 0 < entry.2.occupied
  size_eq : file.size = (file.chain blocks).occupied
  within : ∀ limit, config.sizeLimit = some limit → file.size ≤ limit

/-- A chain holds as many bytes as its blocks say: the length of what is read along the chain is
the sum over the blocks. -/
theorem Chain.length_contents_eq (chain : Chain) : chain.contents.length = chain.occupied := by
  induction chain with
  | nil => rfl
  | cons entry rest ih => rw [length_contents_cons, ih, occupied]

/-- A file that spans a packed chain within the limit is in order. All that is left to say is what
packed means for the number of blocks, which is the size divided by the capacity, rounded up. -/
theorem File.Spans.inOrder {file : File} {config : Config} {blocks : Slab Block} {chain : Chain}
    (h : file.Spans blocks chain) (hpacked : chain.Packed config.blockSize)
    (hwithin : config.Admits file.size) : file.InOrder config blocks := by
  have hchain := h.chain_eq
  have hempty : chain = [] ↔ file.size = 0 := h.size_eq ▸ hpacked.eq_nil_iff
  have hhead : file.head = none ↔ chain = [] := by
    have hjoined := h.joined
    cases chain with
    | nil => exact ⟨fun _ => rfl, fun _ => hjoined⟩
    | cons entry rest => simp [hjoined.1]
  have htail : file.tail = none ↔ chain = [] := by
    rw [h.tail_eq]
    exact Chain.lastId_none_eq_none_iff
  -- The chain that the file spans is the one found by following its links.
  refine ⟨?_, ?_, ?_, ?_, hhead.trans hempty, htail.trans hempty, ?_, ?_, ?_, ?_, ?_, ?_, hwithin⟩
  · exact hchain.symm ▸ h.stored
  · exact hchain.symm ▸ h.joined
  · exact hchain.symm ▸ h.nodup
  · rw [hchain, h.tail_eq]
  · rw [hchain, h.blocks_eq]
  · rw [h.blocks_eq, h.size_eq]
    exact hpacked.length_eq
  · exact hchain.symm ▸ hpacked.capacity_eq
  · exact hchain.symm ▸ hpacked.full
  · intro entry hentry
    rw [hchain] at hentry
    exact hpacked.filled entry (List.mem_of_getLast? hentry)
  · rw [hchain, h.size_eq, Chain.length_contents_eq]

namespace Store

/-- Every file lies in storage as a chain of its own, and nothing else is in storage.

- `inOrder`: every file is in order.
- `disjoint`: no two files share a block.
- `owned`: every block in storage is one of exactly one file's. -/
structure ChainsInOrder (config : Config) (store : Store) : Prop where
  inOrder : ∀ id file, store.catalog.files.get? id = some file → file.InOrder config store.blocks
  disjoint : ∀ id id' file file', id ≠ id' → store.catalog.files.get? id = some file →
    store.catalog.files.get? id' = some file' →
    ∀ key ∈ (file.chain store.blocks).ids, key ∉ (file'.chain store.blocks).ids
  owned : ∀ key block, store.blocks.get? key = some block →
    ∃ id file, store.catalog.files.get? id = some file ∧ key ∈ (file.chain store.blocks).ids ∧
      ∀ id' file', store.catalog.files.get? id' = some file' →
        key ∈ (file'.chain store.blocks).ids → id' = id

/-- In a sound store, every file lies in storage as a chain of its own. The blocks are divided
among the files by `Storage`, which has each block in the chain of exactly one file. -/
theorem Sound.chainsInOrder {store : Store} (h : store.Sound) :
    ChainsInOrder store.config store := by
  have hdisjoint : ∀ id id' file file', id ≠ id' → store.catalog.files.get? id = some file →
      store.catalog.files.get? id' = some file' →
      ∀ key ∈ (file.chain store.blocks).ids, key ∉ (file'.chain store.blocks).ids := by
    intro id id' file file' hne hfile hfile'
    rw [← chainOf_eq hfile, ← chainOf_eq hfile']
    exact h.storage.disjoint id id' hne
  refine ⟨?_, hdisjoint, ?_⟩
  · intro id file hfile
    exact (h.storage.spans id file hfile).inOrder (h.storage.packed id)
      (h.storage.within id file hfile)
  · intro key block hblock
    obtain ⟨id, hkey⟩ := h.storage.owned key block hblock
    cases hfile : store.catalog.files.get? id with
    | none =>
      rw [chainOf_eq_nil hfile] at hkey
      cases hkey
    | some file =>
      rw [chainOf_eq hfile] at hkey
      refine ⟨id, file, hfile, hkey, ?_⟩
      intro id' file' hfile' hkey'
      exact Decidable.byContradiction fun hne =>
        hdisjoint id' id file' file hne hfile' hfile key hkey' hkey

/-- Whatever calls are made, every file lies in storage as a chain of its own, in blocks of the
size asked for, and there is no other block. The calls may fail, be about the same file through
many descriptors, and delete files that are open. -/
theorem chainsInOrder_performAll (config : Config) (calls : List Call) :
    ChainsInOrder config ((empty config).performAll calls).2 := by
  have h := (sound_performAll config calls).chainsInOrder
  rwa [config_performAll] at h

end Store

end Filestore
