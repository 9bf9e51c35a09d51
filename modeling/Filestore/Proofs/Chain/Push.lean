import Filestore.Proofs.Chain.Packed

/-!
# `Filestore.Proofs.Chain.Push`: a block linked at the end of a chain

`Chain.push` is the chain after a block is linked to it: the block points back to the last one,
and the last one (`Chain.withNext`) points on to it. The handle and the bytes of the new block
come last, the links still run along the chain, and full blocks before it make a uniform chain.

Linking a block takes two changes of the storage, the block itself and the link of the one before
it. `stored_push` is about both: once the new block is in storage and the last one has its new
link, the chain with the block at its end is stored. For a chain without blocks there is no last
one to change, and the new block alone is the chain.

Changing the last link alone is also what cutting a chain does to the block that stays, where the
link becomes none. `withNext` is defined for any link, and a chain whose last block already leads
nowhere stays as it is (`Joined.withNext_none`).
-/

set_option autoImplicit false

namespace Filestore

namespace Chain

/-- The chain with another link at its last block. -/
def withNext (next : Option BlockId) : Chain → Chain
  | [] => []
  | [(id, block)] => [(id, block.linkNext next)]
  | entry :: rest => entry :: withNext next rest

/-- The chain with a block linked at its end. -/
def push (chain : Chain) (id : BlockId) (block : Block) : Chain :=
  chain.withNext (some id) ++ [(id, block.linkPrev (lastId none chain))]

/-- Only the last block gets another link, and it keeps its bytes and its handle. -/
theorem withNext_concat (next : Option BlockId) (front : Chain) (id : BlockId) (block : Block) :
    withNext next (front ++ [(id, block)]) = front ++ [(id, block.linkNext next)] := by
  induction front with
  | nil => rfl
  | cons entry rest ih =>
    -- `withNext` looks one entry ahead, so the rest has to be seen to have one.
    have hne : rest ++ [(id, block)] ≠ [] := by simp
    obtain ⟨other, others, hcons⟩ := List.exists_cons_of_ne_nil hne
    rw [List.cons_append, List.cons_append, ← ih, hcons]
    rfl

/-- Every block of a chain with another link is one of the chain's, but for that link: it has the
same handle, bytes and capacity. -/
theorem mem_withNext {next : Option BlockId} {chain : Chain} {entry : BlockId × Block}
    (h : entry ∈ withNext next chain) :
    ∃ old ∈ chain, entry.1 = old.1 ∧ entry.2.bytes = old.2.bytes ∧
      entry.2.capacity = old.2.capacity := by
  rcases List.eq_nil_or_concat' chain with rfl | ⟨front, ⟨id, block⟩, rfl⟩
  · cases h
  · rw [withNext_concat] at h
    rcases List.mem_append.mp h with h | h
    · exact ⟨entry, List.mem_append_left _ h, rfl, rfl, rfl⟩
    · rw [List.mem_singleton.mp h]
      exact ⟨(id, block), List.mem_append_right _ List.mem_cons_self, rfl, rfl, rfl⟩

/-- A linked block adds its handle at the end, and no other handle changes. -/
theorem ids_push (chain : Chain) (id : BlockId) (block : Block) :
    (chain.push id block).ids = chain.ids ++ [id] := by
  rcases List.eq_nil_or_concat' chain with rfl | ⟨front, ⟨last, _⟩, rfl⟩
  · rfl
  · simp [push, withNext_concat]

/-- A linked block makes the chain longer by one. -/
theorem length_push (chain : Chain) (id : BlockId) (block : Block) :
    (chain.push id block).length = chain.length + 1 := by
  rw [← length_ids, ids_push, List.length_append, length_ids]
  rfl

/-- The last handle of a chain with a block linked to it is that block's. -/
theorem lastId_push (prev : Option BlockId) (chain : Chain) (id : BlockId) (block : Block) :
    lastId prev (chain.push id block) = some id := lastId_concat prev _ _

/-- A block with a handle of its own can be linked without repetition. A handle that was just
given out is of its own. -/
theorem nodup_push {chain : Chain} (h : chain.ids.Nodup) {id : BlockId} (hid : id ∉ chain.ids)
    (block : Block) : (chain.push id block).ids.Nodup := by
  rw [ids_push, List.nodup_append]
  refine ⟨h, List.pairwise_singleton _ _, ?_⟩
  intro key hkey key' hkey'
  rw [List.mem_singleton.mp hkey']
  exact fun heq => hid (heq ▸ hkey)

/-- A chain is stored with a block linked at its end, once that block is in storage and the last
one leads to it. The handle of the new block must not be that of the last one, or changing the
link would change both. -/
theorem stored_push {blocks : Slab Block} {front : Chain} {last id : BlockId} {other block : Block}
    (h : Stored blocks (front ++ [(last, other)])) (hnodup : (ids (front ++ [(last, other)])).Nodup)
    (hblock : blocks.get? id = some (block.linkPrev (some last))) (hne : id ≠ last) :
    Stored (blocks.set last (other.linkNext (some id)))
      (push (front ++ [(last, other)]) id block) := by
  rw [push, withNext_concat, lastId_concat, stored_append]
  -- The last block is found with its new link, and the linked one is another slot's.
  refine ⟨h.replace hnodup _, ?_⟩
  intro entry hentry
  rw [List.mem_singleton.mp hentry, Slab.get?_set_of_ne hne]
  exact hblock

/-- Another link at the last block changes no bytes, neither its own nor those of other blocks. -/
theorem contents_withNext (next : Option BlockId) (chain : Chain) :
    (chain.withNext next).contents = chain.contents := by
  rcases List.eq_nil_or_concat' chain with rfl | ⟨front, ⟨last, other⟩, rfl⟩
  · rfl
  · simp [withNext_concat, Block.linkNext]

/-- Another link at the last block changes no handle: it is in the same slot. -/
theorem ids_withNext (next : Option BlockId) (chain : Chain) :
    (chain.withNext next).ids = chain.ids := by
  rcases List.eq_nil_or_concat' chain with rfl | ⟨front, ⟨last, other⟩, rfl⟩
  · rfl
  · simp [withNext_concat]

/-- Where the last block leads nowhere already, taking its link away changes nothing about the
chain. -/
theorem Joined.withNext_none {prev start : Option BlockId} {chain : Chain}
    (h : Joined prev start chain none) : chain.withNext none = chain := by
  rcases List.eq_nil_or_concat' chain with rfl | ⟨front, ⟨last, other⟩, rfl⟩
  · rfl
  · obtain ⟨-, -, -, -, hnext⟩ := joined_append.mp h
    rw [withNext_concat, Block.linkNext, ← show other.next = none from hnext]

/-- Another link at the last block leaves a packed chain packed, since blocks count by their bytes
and their capacities. -/
theorem Packed.withNext {capacity : Nat} {chain : Chain} (h : Packed capacity chain)
    (next : Option BlockId) : Packed capacity (chain.withNext next) := by
  rcases List.eq_nil_or_concat' chain with rfl | ⟨front, ⟨last, other⟩, rfl⟩
  · exact h
  · rw [withNext_concat]
    exact h.replace rfl (Nat.le_refl _)

/-- A linked block adds its bytes at the end; those of the other blocks stay what they were. -/
theorem contents_push (chain : Chain) (id : BlockId) (block : Block) :
    (chain.push id block).contents = chain.contents ++ block.bytes := by
  rw [push, contents_append, contents_withNext, contents_cons, contents_nil, List.append_nil]
  rfl

/-- A block of a chain with one linked to it is the new one or holds what one of the chain's
holds. -/
theorem mem_push {chain : Chain} {id : BlockId} {block : Block} {entry : BlockId × Block}
    (h : entry ∈ chain.push id block) :
    entry = (id, block.linkPrev (lastId none chain)) ∨
      ∃ old ∈ chain, entry.2.occupied = old.2.occupied ∧ entry.2.capacity = old.2.capacity := by
  rcases List.mem_append.mp h with h | h
  · obtain ⟨old, hold, -, hbytes, hcapacity⟩ := mem_withNext h
    exact .inr ⟨old, hold, congrArg List.length hbytes, hcapacity⟩
  · exact .inl (List.mem_singleton.mp h)

/-- A block linked to full blocks makes a uniform chain, however many bytes it holds itself. The
last block of the chain must have become full before. -/
theorem uniform_push {capacity : Nat} {chain : Chain} (h : Uniform capacity chain)
    (hfull : ∀ entry ∈ chain, entry.2.occupied = capacity) (id : BlockId) {block : Block}
    (hblock : block.capacity = capacity) : Uniform capacity (chain.push id block) := by
  refine uniform_concat.mpr ⟨?_, hblock⟩
  intro entry hentry
  obtain ⟨old, hold, -, hbytes, hcapacity⟩ := mem_withNext hentry
  refine ⟨hcapacity.trans (h.capacity_eq old hold), ?_⟩
  rw [← hfull old hold, Block.occupied, hbytes]
  rfl

/-- Links that ran to nowhere run to the linked block, and from there to nowhere. The chain must
have a block to link to. -/
theorem joined_push {chain : Chain} {start : Option BlockId} (h : Joined none start chain none)
    (hne : chain ≠ []) (id : BlockId) {block : Block} (hnext : block.next = none) :
    Joined none start (chain.push id block) none := by
  rcases List.eq_nil_or_concat' chain with rfl | ⟨front, ⟨last, other⟩, rfl⟩
  · exact absurd rfl hne
  · -- Only the link that ran to nowhere is replaced. All others are as they were.
    obtain ⟨middle, hfront, hlast, hprev, -⟩ := joined_append.mp h
    rw [push, withNext_concat, joined_append]
    refine ⟨some id, joined_append.mpr ⟨middle, hfront, hlast, hprev, rfl⟩, rfl, ?_, hnext⟩
    rw [lastId_concat, lastId_concat]
    rfl

end Chain

end Filestore
