import Filestore.Chain
import Filestore.Proofs.Slab.Exchange
import Mathlib.Data.List.Basic

/-!
# `Filestore.Proofs.Chain.Linked`: chains as they lie in storage

A list of blocks with their handles is a chain of the storage when each block is what its handle
denotes there (`Chain.Stored`) and the links run along the list in both directions
(`Chain.Joined`). The first is about the storage alone and the second about the list alone, so a
change of the storage elsewhere matters to neither.

Where only the links forward matter, `Chain.Reaches` says that they lead along the list and then
end. That is enough to tell the list, and that no handle comes twice in it (`Reaches.unique`,
`Reaches.nodup`): a handle met twice would lead along two chains, one of them longer.

* `Reaches.walk_eq`: from its first handle, `Chain.walk` lists exactly the chain. The fuel of the
  walk, one step for each slot, is enough because the handles are different and all of them good.
* `release_spec`: from its first handle, `Chain.release` erases exactly the chain, and counts it.

Links that end at an expired handle count as ended for `Reaches`, since a walk ends there too. For
`Joined` they do not, and a chain of a file is always joined up to no link at all.
-/

set_option autoImplicit false

namespace Filestore

namespace Chain

/-- The handles of the blocks. -/
def ids (chain : Chain) : List BlockId := chain.map Prod.fst

/-- A chain without blocks has no handles. -/
@[simp] theorem ids_nil : ids [] = [] := rfl

/-- The handles of a chain begin with that of its first block. -/
@[simp] theorem ids_cons (entry : BlockId × Block) (rest : Chain) :
    ids (entry :: rest) = entry.1 :: ids rest := rfl

/-- The handles of two chains, one after the other, are those of the first and then those of the
second. -/
@[simp] theorem ids_append (front back : Chain) :
    ids (front ++ back) = ids front ++ ids back := List.map_append

/-- There is one handle for each block. -/
@[simp] theorem length_ids (chain : Chain) : chain.ids.length = chain.length := List.length_map _

/-- The handle of a block of a chain is one of the chain's handles. -/
theorem mem_ids {chain : Chain} {entry : BlockId × Block} (h : entry ∈ chain) :
    entry.1 ∈ chain.ids := List.mem_map_of_mem h

/-- Where no handle comes twice, the handle of a block is that of no other block, neither before
it nor after it. -/
theorem ne_of_nodup {front back : Chain} {id : BlockId} {block : Block}
    (h : (ids (front ++ (id, block) :: back)).Nodup) {entry : BlockId × Block}
    (hentry : entry ∈ front ∨ entry ∈ back) : entry.1 ≠ id := by
  rw [ids_append, ids_cons, List.nodup_append, List.nodup_cons] at h
  obtain ⟨-, ⟨hback, -⟩, hfront⟩ := h
  rcases hentry with hentry | hentry
  · exact hfront _ (mem_ids hentry) id List.mem_cons_self
  · rintro rfl
    exact hback (mem_ids hentry : entry.1 ∈ ids back)

/-- Every block is what its handle denotes. -/
def Stored (blocks : Slab Block) (chain : Chain) : Prop :=
  ∀ entry ∈ chain, blocks.get? entry.1 = some entry.2

/-- The last handle, or `prev` where there is none. -/
def lastId (prev : Option BlockId) : Chain → Option BlockId
  | [] => prev
  | entry :: rest => lastId (some entry.1) rest

/-- The links lead from `start` along the chain to `stop` and back to `prev`. -/
def Joined : Option BlockId → Option BlockId → Chain → Option BlockId → Prop
  | _, start, [], stop => start = stop
  | prev, start, (id, block) :: rest, stop =>
    start = some id ∧ block.prev = prev ∧ Joined (some id) block.next rest stop

/-- A part of a stored chain is stored, whichever blocks it has and in whatever order. -/
theorem Stored.subset {blocks : Slab Block} {chain part : Chain} (h : Stored blocks chain)
    (hpart : part ⊆ chain) : Stored blocks part :=
  fun entry hentry => h entry (hpart hentry)

/-- Two chains are stored, one after the other, when each of them is stored on its own. -/
theorem stored_append {blocks : Slab Block} {front back : Chain} :
    Stored blocks (front ++ back) ↔ Stored blocks front ∧ Stored blocks back := by
  unfold Stored
  simp only [List.mem_append, or_imp, forall_and]

/-- A stored chain is stored with another block in place of one of its own, once the storage has
that block under the same handle. The other blocks have other handles. -/
theorem Stored.replace {blocks : Slab Block} {front back : Chain} {id : BlockId} {block : Block}
    (h : Stored blocks (front ++ (id, block) :: back))
    (hnodup : (ids (front ++ (id, block) :: back)).Nodup) (changed : Block) :
    Stored (blocks.set id changed) (front ++ (id, changed) :: back) := by
  obtain ⟨hfront, hrest⟩ := stored_append.mp h
  rw [stored_append]
  refine ⟨?_, ?_⟩
  · intro entry hentry
    rw [Slab.get?_set_of_ne (ne_of_nodup hnodup (.inl hentry))]
    exact hfront entry hentry
  · intro entry hentry
    rcases List.mem_cons.mp hentry with rfl | hback
    · exact Slab.get?_set_self (hrest (id, block) List.mem_cons_self) changed
    · rw [Slab.get?_set_of_ne (ne_of_nodup hnodup (.inr hback))]
      exact hrest entry (List.mem_cons_of_mem _ hback)

/-- A stored chain outside an exchange stays stored: none of its handles is among those that go
out. -/
theorem Stored.exchange {before after : Slab Block} {old new : List BlockId} {chain : Chain}
    (h : Stored before chain) (hex : before.Exchange after old new)
    (hout : ∀ id ∈ chain.ids, id ∉ old) : Stored after chain :=
  fun entry hentry => hex.get?_eq_some (h entry hentry) (hout _ (mem_ids hentry))

/-- A handle that comes in by an exchange is not in a stored chain outside of it, because it
denoted nothing before. -/
theorem Stored.not_mem_of_exchange {before after : Slab Block} {old new : List BlockId}
    {chain : Chain} (h : Stored before chain) (hex : before.Exchange after old new)
    (hout : ∀ id ∈ chain.ids, id ∉ old) {key : BlockId} (hnew : key ∈ new) : key ∉ chain.ids := by
  intro hkey
  obtain ⟨entry, hentry, rfl⟩ := List.mem_map.mp hkey
  -- It denotes a block of the chain before the exchange, so it did not come in fresh.
  cases (hex.fresh _ hnew (hout _ hkey)).symm.trans (h entry hentry)

/-- The rest of a stored chain is stored when the first block is erased: it is met only once, so
none of the blocks behind it has its handle. -/
theorem Stored.erase {blocks : Slab Block} {id : BlockId} {block : Block} {rest : Chain}
    (h : Stored blocks ((id, block) :: rest)) (hid : id ∉ rest.ids) :
    Stored (blocks.erase id) rest := by
  refine (h.subset (List.subset_cons_self _ _)).exchange (Slab.Exchange.erase _ id) ?_
  intro other hother hmem
  rw [List.mem_singleton.mp hmem] at hother
  exact hid hother

/-- The last handle of two chains is that of the second, seen from the first. If the second has no
blocks, it is that of the first. -/
theorem lastId_append (prev : Option BlockId) (front back : Chain) :
    lastId prev (front ++ back) = lastId (lastId prev front) back := by
  induction front generalizing prev with
  | nil => rfl
  | cons entry rest ih => exact ih _

/-- Only the chain without blocks has no last handle, when there is none before it either. -/
theorem lastId_none_eq_none_iff {chain : Chain} : lastId none chain = none ↔ chain = [] := by
  cases chain with
  | nil => simp [lastId]
  | cons entry rest =>
    have h : ∀ (id : BlockId) (rest : Chain), lastId (some id) rest ≠ none := by
      intro id rest
      induction rest generalizing id with
      | nil => simp [lastId]
      | cons entry rest ih => exact ih _
    simp only [lastId, reduceCtorEq, iff_false]
    exact h _ _

/-- The last handle of a chain is that of the block at its end, whatever comes before it. -/
theorem lastId_concat (prev : Option BlockId) (front : Chain) (entry : BlockId × Block) :
    lastId prev (front ++ [entry]) = some entry.1 := by
  rw [lastId_append]
  rfl

/-- A chain with a last handle is some blocks and a last one of that handle. Proofs about the end
of a file start by splitting its chain this way. -/
theorem eq_concat_of_lastId {chain : Chain} {id : BlockId} (h : lastId none chain = some id) :
    ∃ front block, chain = front ++ [(id, block)] := by
  rcases List.eq_nil_or_concat' chain with rfl | ⟨front, ⟨last, block⟩, rfl⟩
  · cases h
  · rw [lastId_concat] at h
    cases h
    exact ⟨front, block, rfl⟩

/-- Links run along two chains when they run along the first to a handle, and from there along the
second. Back links cross the seam at the last handle of the first. -/
theorem joined_append {prev start stop : Option BlockId} {front back : Chain} :
    Joined prev start (front ++ back) stop ↔
      ∃ middle, Joined prev start front middle ∧ Joined (lastId prev front) middle back stop := by
  -- The first part is followed block by block. Its last handle is what the second links back to.
  induction front generalizing prev start with
  | nil =>
    constructor
    · exact fun h => ⟨start, rfl, h⟩
    · rintro ⟨middle, hfront, hback⟩
      cases (show start = middle from hfront)
      exact hback
  | cons entry rest ih =>
    obtain ⟨id, block⟩ := entry
    simp only [List.cons_append, Joined, lastId, ih]
    constructor
    · rintro ⟨hstart, hprev, middle, hrest, hback⟩
      exact ⟨middle, ⟨hstart, hprev, hrest⟩, hback⟩
    · rintro ⟨middle, ⟨hstart, hprev, hrest⟩, hback⟩
      exact ⟨hstart, hprev, middle, hrest, hback⟩

/-- The links start at a block of the chain, or where they stop; they cannot lead anywhere else. -/
theorem Joined.start_mem {prev start stop : Option BlockId} {chain : Chain}
    (h : Joined prev start chain stop) : start = stop ∨ ∃ id ∈ chain.ids, start = some id := by
  cases chain with
  | nil => exact .inl h
  | cons entry rest => exact .inr ⟨entry.1, List.mem_cons_self, h.1⟩

/-- A link forward leads to a block of the chain, or where the links stop. So no link leaves the
chain. -/
theorem Joined.next_mem {prev start stop : Option BlockId} {chain : Chain}
    (h : Joined prev start chain stop) {entry : BlockId × Block} (hentry : entry ∈ chain) :
    entry.2.next = stop ∨ ∃ id ∈ chain.ids, entry.2.next = some id := by
  induction chain generalizing prev start with
  | nil => cases hentry
  | cons first rest ih =>
    obtain ⟨-, -, hrest⟩ := h
    have hnext : entry.2.next = stop ∨ ∃ id ∈ ids rest, entry.2.next = some id := by
      rcases List.mem_cons.mp hentry with rfl | hentry
      · exact hrest.start_mem
      · exact ih hrest hentry
    exact hnext.imp_right fun ⟨id, hid, heq⟩ => ⟨id, List.mem_cons_of_mem _ hid, heq⟩

/-- A link back leads to a block of the chain, or to what comes before it. So no link back leaves
the chain either. -/
theorem Joined.prev_mem {prev start stop : Option BlockId} {chain : Chain}
    (h : Joined prev start chain stop) {entry : BlockId × Block} (hentry : entry ∈ chain) :
    entry.2.prev = prev ∨ ∃ id ∈ chain.ids, entry.2.prev = some id := by
  induction chain generalizing prev start with
  | nil => cases hentry
  | cons first rest ih =>
    obtain ⟨-, hprev, hrest⟩ := h
    rcases List.mem_cons.mp hentry with rfl | hentry
    · exact .inl hprev
    · right
      rcases ih hrest hentry with heq | ⟨id, hid, heq⟩
      · exact ⟨first.1, List.mem_cons_self, heq⟩
      · exact ⟨id, List.mem_cons_of_mem _ hid, heq⟩

/-- The links forward lead from `start` along the chain and end there: the last one is missing, or
its handle denotes nothing. -/
def Reaches (blocks : Slab Block) : Option BlockId → Chain → Prop
  | start, [] => start.bind blocks.get? = none
  | start, (id, block) :: rest =>
    start = some id ∧ blocks.get? id = some block ∧ Reaches blocks block.next rest

/-- The links of a stored chain lead along it and end, provided they stop at no link at all. -/
theorem Joined.reaches {blocks : Slab Block} {chain : Chain} {prev start : Option BlockId}
    (hjoined : Joined prev start chain none) (hstored : Stored blocks chain) :
    Reaches blocks start chain := by
  induction chain generalizing prev start with
  | nil =>
    cases (show start = none from hjoined)
    rfl
  | cons entry rest ih =>
    obtain ⟨hstart, -, hrest⟩ := hjoined
    exact ⟨hstart, hstored entry List.mem_cons_self,
      ih hrest (hstored.subset (List.subset_cons_self _ _))⟩

/-- The links lead along one chain only: each handle denotes one block, and that block has one
link. -/
theorem Reaches.unique {blocks : Slab Block} {start : Option BlockId} {chain chain' : Chain}
    (h : Reaches blocks start chain) (h' : Reaches blocks start chain') : chain = chain' := by
  induction chain generalizing start chain' with
  | nil =>
    cases chain' with
    | nil => rfl
    | cons entry rest =>
      obtain ⟨rfl, hblock, -⟩ := h'
      cases hblock.symm.trans h
  | cons entry rest ih =>
    obtain ⟨id, block⟩ := entry
    obtain ⟨rfl, hblock, hrest⟩ := h
    cases chain' with
    | nil => cases hblock.symm.trans h'
    | cons entry' rest' =>
      obtain ⟨id', block'⟩ := entry'
      obtain ⟨hid, hblock', hrest'⟩ := h'
      obtain rfl := Option.some.inj hid
      obtain rfl := Option.some.inj (hblock.symm.trans hblock')
      rw [ih hrest hrest']

/-- A block on the way is in storage, and from its handle the links lead along what is left of the
chain. -/
theorem Reaches.of_append {blocks : Slab Block} {start : Option BlockId} {front back : Chain}
    {id : BlockId} {block : Block} (h : Reaches blocks start (front ++ (id, block) :: back)) :
    blocks.get? id = some block ∧ Reaches blocks (some id) ((id, block) :: back) := by
  induction front generalizing start with
  | nil =>
    obtain ⟨rfl, hblock, hback⟩ := h
    exact ⟨hblock, rfl, hblock, hback⟩
  | cons entry rest ih => exact ih h.2.2

/-- The blocks that the links lead to are in storage, each under the handle by which it is
reached. -/
theorem Reaches.stored {blocks : Slab Block} {start : Option BlockId} {chain : Chain}
    (h : Reaches blocks start chain) : Stored blocks chain := by
  intro entry hentry
  obtain ⟨front, back, rfl⟩ := List.append_of_mem hentry
  exact h.of_append.1

/-- Links that come to an end meet no handle twice: from there on they would have to lead along
two chains, one of them longer. -/
theorem Reaches.nodup {blocks : Slab Block} {start : Option BlockId} {chain : Chain}
    (h : Reaches blocks start chain) : chain.ids.Nodup := by
  induction chain generalizing start with
  | nil => exact List.nodup_nil
  | cons entry rest ih =>
    have hrest := h.2.2
    refine List.nodup_cons.mpr ⟨?_, ih hrest⟩
    intro hid
    obtain ⟨⟨_, again⟩, hentry, rfl⟩ := List.mem_map.mp hid
    obtain ⟨front, back, rfl⟩ := List.append_of_mem hentry
    have hagain := h.1 ▸ hrest.of_append.2
    have hlength := congrArg List.length (h.unique hagain)
    simp only [List.length_cons, List.length_append] at hlength
    omega

/-- A walk with a step for every block that the links lead to lists these blocks. More steps than
that do no harm. -/
theorem Reaches.walkFrom_eq {blocks : Slab Block} {start : Option BlockId} {chain : Chain}
    {fuel : Nat} (h : Reaches blocks start chain) (hfuel : chain.length ≤ fuel) :
    walkFrom blocks fuel [] start = chain := by
  -- Each step of the walk takes the first block off the chain, as the induction does.
  induction chain generalizing start fuel with
  | nil =>
    cases fuel with
    | zero => rfl
    | succ fuel =>
      cases start with
      | none => rfl
      | some id => rw [walkFrom_some, show blocks.get? id = none from h]
  | cons entry rest ih =>
    obtain ⟨rfl, hblock, hrest⟩ := h
    cases fuel with
    | zero => cases hfuel
    | succ fuel =>
      rw [walkFrom_some, hblock]
      simp only
      rw [ih hrest (Nat.le_of_succ_le_succ hfuel)]

/-- A stored chain without repetition is no longer than there are good handles, since each of its
own is one of them. -/
theorem Stored.length_le_keys {blocks : Slab Block} {chain : Chain}
    (hstored : Stored blocks chain) (hnodup : chain.ids.Nodup) :
    chain.length ≤ blocks.keys.length := by
  -- Its handles are good ones, without repetition.
  have hsub : chain.ids ⊆ blocks.keys := by
    intro id hid
    obtain ⟨entry, hentry, rfl⟩ := List.mem_map.mp hid
    exact Slab.mem_keys.mpr ⟨_, hstored entry hentry⟩
  rw [← length_ids]
  exact List.Nodup.length_le_of_subset hnodup hsub

/-- A stored chain without repetition is no longer than there are slots, so a walk has fuel for
all of it. -/
theorem Stored.length_le {blocks : Slab Block} {chain : Chain} (hstored : Stored blocks chain)
    (hnodup : chain.ids.Nodup) : chain.length ≤ blocks.slotCount :=
  Nat.le_trans (hstored.length_le_keys hnodup) blocks.length_keys_le

/-- A walk lists the blocks that the links lead to, all of them and in their order. -/
theorem Reaches.walk_eq {blocks : Slab Block} {head : Option BlockId} {chain : Chain}
    (h : Reaches blocks head chain) : walk blocks head = chain :=
  h.walkFrom_eq (h.stored.length_le h.nodup)

/-- From the first handle of a stored chain, a release with a step for every block counts the
blocks and erases them. The induction goes along the chain, with one block less in storage each
time. -/
theorem releaseFrom_spec {blocks : Slab Block} {chain : Chain} {prev start : Option BlockId}
    {fuel : Nat} (hstored : Stored blocks chain) (hjoined : Joined prev start chain none)
    (hnodup : chain.ids.Nodup) (hfuel : chain.length ≤ fuel) :
    (releaseFrom fuel 0 blocks start).1 = chain.length ∧
      blocks.Exchange (releaseFrom fuel 0 blocks start).2 chain.ids [] := by
  induction chain generalizing blocks prev start fuel with
  | nil =>
    have hnone : releaseFrom fuel 0 blocks start = (0, blocks) := by
      rw [show start = none from hjoined]
      cases fuel <;> rfl
    rw [hnone]
    exact ⟨rfl, Slab.Exchange.refl _ _⟩
  | cons entry rest ih =>
    obtain ⟨id, block⟩ := entry
    obtain ⟨rfl, -, hrest⟩ := hjoined
    obtain ⟨hid, hnodup⟩ := List.nodup_cons.mp hnodup
    cases fuel with
    | zero => cases hfuel
    | succ fuel =>
      obtain ⟨hcount, hex⟩ := ih (hstored.erase hid) hrest hnodup (Nat.le_of_succ_le_succ hfuel)
      have hstep : releaseFrom (fuel + 1) 0 blocks (some id)
          = releaseFrom fuel (0 + 1) (blocks.erase id) block.next := by
        simp only [releaseFrom, hstored _ List.mem_cons_self]
      rw [hstep, releaseFrom_eq_add, hcount]
      refine ⟨by rw [List.length_cons, Nat.add_comm, Nat.zero_add], ?_⟩
      -- The first block goes while the rest stays, and then the rest goes.
      have herase := (Slab.Exchange.erase blocks id).append_left (ids rest)
      rw [List.append_nil] at herase
      have hperm : ∀ other, other ∈ ids rest ++ [id] ↔ other ∈ id :: ids rest := by
        intro other
        simp [or_comm]
      exact (herase.trans hex).congr_old hperm

/-- From its first handle, a release counts and erases a stored chain, and everything else in
storage stays as it was. -/
theorem release_spec {blocks : Slab Block} {chain : Chain} {prev head : Option BlockId}
    (hstored : Stored blocks chain) (hjoined : Joined prev head chain none)
    (hnodup : chain.ids.Nodup) :
    (release blocks head).1 = chain.length ∧ blocks.Exchange (release blocks head).2 chain.ids [] :=
  releaseFrom_spec hstored hjoined hnodup (Nat.le_succ_of_le (hstored.length_le hnodup))

end Chain

end Filestore
