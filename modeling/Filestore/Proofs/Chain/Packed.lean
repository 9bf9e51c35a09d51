import Filestore.Proofs.Chain.Position

/-!
# `Filestore.Proofs.Chain.Packed`: chains of full blocks

In the chains of a store every block has the same capacity and every block but the last is full
(`Chain.Uniform`), and between calls the last one is not empty (`Chain.Packed`). Then block `i`
holds the bytes from position `i * capacity` on. Hence

* a cursor's position is read off the place of its block in the chain
  (`Uniform.stands_inBlock_iff`), so cursors stay where they are when a chain gets longer
  (`Stands.extend`, `Settled.extend`);
* a settled cursor can be told from its position (`Uniform.settled_eq`), because only one of the
  two places that a position between blocks has is settled;
* the number of blocks is the number of bytes divided by the capacity, rounded up
  (`Packed.length_eq`).

The two conditions are apart because a block is linked empty and written to after that: while a
call is going on a chain may be uniform and end in an empty block. A block that is replaced by one
with more bytes keeps both (`Uniform.replace`, `Packed.replace`), a block that is full being no
exception as it cannot have more.
-/

set_option autoImplicit false

namespace Filestore

namespace Chain

/-- Blocks of one capacity, of which all but the last are full.

- `capacity_eq`: every block has the capacity.
- `full`: every block but the last is full. -/
structure Uniform (capacity : Nat) (chain : Chain) : Prop where
  capacity_eq : ∀ entry ∈ chain, entry.2.capacity = capacity
  full : ∀ entry ∈ chain.dropLast, entry.2.occupied = capacity

/-- Blocks of one capacity, of which all but the last are full and none is empty.

- `filled`: no block is empty, the last one included. -/
structure Packed (capacity : Nat) (chain : Chain) : Prop extends Uniform capacity chain where
  filled : ∀ entry ∈ chain, 0 < entry.2.occupied

/-- A chain without blocks is packed, for want of a block that could be wrong. -/
theorem packed_nil (capacity : Nat) : Packed capacity [] where
  capacity_eq _ h := nomatch h
  full _ h := nomatch h
  filled _ h := nomatch h

/-- A chain is uniform when full blocks of the capacity come before a last one of the capacity.
This is the form in which chains are built, at their ends. -/
theorem uniform_concat {capacity : Nat} {front : Chain} {last : BlockId × Block} :
    Uniform capacity (front ++ [last]) ↔
      (∀ entry ∈ front, entry.2.capacity = capacity ∧ entry.2.occupied = capacity) ∧
        last.2.capacity = capacity := by
  constructor
  · intro h
    refine ⟨fun entry hentry => ⟨h.capacity_eq entry (List.mem_append_left _ hentry), ?_⟩,
      h.capacity_eq last (List.mem_append_right _ List.mem_cons_self)⟩
    exact h.full entry (by rwa [List.dropLast_concat])
  · rintro ⟨hfront, hlast⟩
    refine ⟨?_, ?_⟩
    · intro entry hentry
      rcases List.mem_append.mp hentry with hentry | hentry
      · exact (hfront entry hentry).1
      · rw [List.mem_singleton.mp hentry, hlast]
    · intro entry hentry
      rw [List.dropLast_concat] at hentry
      exact (hfront entry hentry).2

/-- A block that is not empty is a packed chain, full or not: it is the last one. -/
theorem packed_singleton {capacity : Nat} {entry : BlockId × Block}
    (hcapacity : entry.2.capacity = capacity) (hfilled : 0 < entry.2.occupied) :
    Packed capacity [entry] where
  capacity_eq other hother := by rwa [List.mem_singleton.mp hother]
  full _ hother := nomatch hother
  filled other hother := by
    rw [List.mem_singleton.mp hother]
    exact hfilled

/-- A packed chain after a packed one is packed, if every block before it is full. If nothing
comes after it, the first one need not end in a full block. -/
theorem Packed.append {capacity : Nat} {front back : Chain} (hfront : Packed capacity front)
    (hback : Packed capacity back)
    (hfull : back ≠ [] → ∀ entry ∈ front, entry.2.occupied = capacity) :
    Packed capacity (front ++ back) where
  capacity_eq entry hentry := by
    rcases List.mem_append.mp hentry with hentry | hentry
    · exact hfront.capacity_eq entry hentry
    · exact hback.capacity_eq entry hentry
  full entry hentry := by
    by_cases hne : back = []
    · rw [hne, List.append_nil] at hentry
      exact hfront.full entry hentry
    · rw [List.dropLast_append_of_ne_nil hne] at hentry
      rcases List.mem_append.mp hentry with hentry | hentry
      · exact hfull hne entry hentry
      · exact hback.full entry hentry
  filled entry hentry := by
    rcases List.mem_append.mp hentry with hentry | hentry
    · exact hfront.filled entry hentry
    · exact hback.filled entry hentry

/-- Blocks before another one are full, since none of them is the last. -/
theorem Uniform.full_of_append {capacity : Nat} {front back : Chain} {entry : BlockId × Block}
    (h : Uniform capacity (front ++ entry :: back)) :
    ∀ other ∈ front, other.2.occupied = capacity := by
  intro other hother
  apply h.full
  rw [List.dropLast_append_cons]
  exact List.mem_append_left _ hother

/-- A block before another one is full: it is not the last, because something comes after it. -/
theorem Uniform.full_of_ne_nil {capacity : Nat} {front back : Chain} {entry : BlockId × Block}
    (h : Uniform capacity (front ++ entry :: back)) (hback : back ≠ []) :
    entry.2.occupied = capacity := by
  apply h.full
  rw [List.dropLast_append_cons, List.dropLast_cons_of_ne_nil hback]
  exact List.mem_append_right _ List.mem_cons_self

/-- No block holds more than the capacity, which is the capacity of every block. -/
theorem Uniform.occupied_le {capacity : Nat} {chain : Chain} (h : Uniform capacity chain)
    {entry : BlockId × Block} (hentry : entry ∈ chain) : entry.2.occupied ≤ capacity := by
  rw [← h.capacity_eq entry hentry]
  exact entry.2.fits

/-- A chain stays uniform when a block gets more bytes: a full one cannot have more and stays
full. -/
theorem Uniform.replace {capacity : Nat} {front back : Chain} {id : BlockId}
    {block changed : Block} (h : Uniform capacity (front ++ (id, block) :: back))
    (hcapacity : changed.capacity = block.capacity) (hmore : block.occupied ≤ changed.occupied) :
    Uniform capacity (front ++ (id, changed) :: back) := by
  have hmem : (id, block) ∈ front ++ (id, block) :: back :=
    List.mem_append_right _ List.mem_cons_self
  have hchanged : changed.capacity = capacity := hcapacity.trans (h.capacity_eq _ hmem)
  refine ⟨?_, ?_⟩
  · intro entry hentry
    rcases List.mem_append.mp hentry with hentry | hentry
    · exact h.capacity_eq entry (List.mem_append_left _ hentry)
    · rcases List.mem_cons.mp hentry with rfl | hentry
      · exact hchanged
      · exact h.capacity_eq entry (List.mem_append_right _ (List.mem_cons_of_mem _ hentry))
  · -- The changed block has to be full only if another one is after it. Then it was full before,
    -- and cannot hold more.
    intro entry hentry
    rcases List.eq_nil_or_concat' back with rfl | ⟨others, last, rfl⟩
    · rw [List.dropLast_concat] at hentry
      exact h.full_of_append entry hentry
    · rw [← List.cons_append, ← List.append_assoc, List.dropLast_concat] at hentry
      rcases List.mem_append.mp hentry with hentry | hentry
      · exact h.full_of_append entry hentry
      · rcases List.mem_cons.mp hentry with rfl | hentry
        · have hfull := h.full_of_ne_nil (by simp)
          exact Nat.le_antisymm (hchanged ▸ changed.fits) (hfull ▸ hmore)
        · refine h.full entry ?_
          rw [← List.cons_append, ← List.append_assoc, List.dropLast_concat]
          exact List.mem_append_right _ (List.mem_cons_of_mem _ hentry)

/-- A chain stays packed when a block gets more bytes. The one that gets them is not empty, and
the others are as they were. -/
theorem Packed.replace {capacity : Nat} {front back : Chain} {id : BlockId}
    {block changed : Block} (h : Packed capacity (front ++ (id, block) :: back))
    (hcapacity : changed.capacity = block.capacity) (hmore : block.occupied ≤ changed.occupied) :
    Packed capacity (front ++ (id, changed) :: back) where
  toUniform := h.toUniform.replace hcapacity hmore
  filled entry hentry := by
    rcases List.mem_append.mp hentry with hentry | hentry
    · exact h.filled entry (List.mem_append_left _ hentry)
    · rcases List.mem_cons.mp hentry with rfl | hentry
      · have hmem : (id, block) ∈ front ++ (id, block) :: back :=
          List.mem_append_right _ List.mem_cons_self
        exact Nat.lt_of_lt_of_le (h.filled _ hmem) hmore
      · exact h.filled entry (List.mem_append_right _ (List.mem_cons_of_mem _ hentry))

/-- Full blocks hold as many bytes as their number says, each of them the capacity. -/
theorem length_contents_of_full {capacity : Nat} {chain : Chain}
    (h : ∀ entry ∈ chain, entry.2.occupied = capacity) :
    chain.contents.length = chain.length * capacity := by
  induction chain with
  | nil => simp
  | cons entry rest ih =>
    rw [length_contents_cons, h entry List.mem_cons_self,
      ih fun other hother => h other (List.mem_cons_of_mem _ hother), List.length_cons,
      Nat.add_mul, Nat.one_mul, Nat.add_comm]

/-- A block starts at its number times the capacity, because all the blocks before it are full. -/
theorem Uniform.length_front {capacity : Nat} {front back : Chain} {entry : BlockId × Block}
    (h : Uniform capacity (front ++ entry :: back)) :
    front.contents.length = front.length * capacity :=
  length_contents_of_full h.full_of_append

/-- A block holds the bytes of the chain from its start on: byte `j` of block `i` is byte `i *
capacity + j` of the contents. -/
theorem Uniform.getElem?_bytes {capacity : Nat} {front back : Chain} {entry : BlockId × Block}
    (h : Uniform capacity (front ++ entry :: back)) {j : Nat} (hj : j < capacity) :
    entry.2.bytes[j]? = (contents (front ++ entry :: back))[front.length * capacity + j]? := by
  rw [contents_append, ← h.length_front,
    List.getElem?_append_right (Nat.le_add_right _ _), Nat.add_sub_cancel_left, contents_cons]
  rcases List.eq_nil_or_concat' back with rfl | ⟨_, _, hback⟩
  · rw [contents_nil, List.append_nil]
  · have hfull := h.full_of_ne_nil (by simp [hback])
    rw [List.getElem?_append_left (Nat.lt_of_lt_of_eq hj hfull.symm)]

/-- No chain holds more than its blocks can, which is its number of blocks times the capacity. -/
theorem Uniform.length_contents_le {capacity : Nat} {chain : Chain} (h : Uniform capacity chain) :
    chain.contents.length ≤ chain.length * capacity := by
  rcases List.eq_nil_or_concat' chain with rfl | ⟨front, last, rfl⟩
  · simp
  · have hlast := h.occupied_le (List.mem_append_right front List.mem_cons_self)
    rw [contents_append, List.length_append, h.length_front, length_contents_cons,
      List.length_append, List.length_singleton, Nat.add_mul]
    simp only [contents_nil, List.length_nil]
    omega

/-- The handle at a place of the chain is that of the block between the blocks before it and the
blocks after it. The number of the blocks before it is the place. -/
theorem exists_split_of_ids {chain : Chain} {i : Nat} {id : BlockId}
    (h : chain.ids[i]? = some id) :
    ∃ (front : Chain) (block : Block) (back : Chain),
      chain = front ++ (id, block) :: back ∧ front.length = i := by
  rw [ids, List.getElem?_map, Option.map_eq_some_iff] at h
  obtain ⟨⟨other, block⟩, hget, rfl⟩ := h
  obtain ⟨hi, hget⟩ := List.getElem?_eq_some_iff.mp hget
  refine ⟨chain.take i, block, chain.drop (i + 1), ?_, ?_⟩
  · rw [← hget, ← List.drop_eq_getElem_cons hi, List.take_append_drop]
  · rw [List.length_take, Nat.min_eq_left (Nat.le_of_lt hi)]

/-- A set cursor stands at a position when its block is the one that its offset is counted from,
and neither the offset nor the position is past the end. In this form the position is known
without the sizes of the blocks in front. -/
theorem Uniform.stands_inBlock_iff {capacity : Nat} {chain : Chain} (h : Uniform capacity chain)
    {id : BlockId} {offset pos : Nat} :
    Stands chain (Cursor.inBlock id offset) pos ↔
      ∃ i, chain.ids[i]? = some id ∧ offset ≤ capacity ∧ pos = i * capacity + offset ∧
        pos ≤ chain.contents.length := by
  constructor
  · intro hstands
    have hle := hstands.le_length
    generalize hcursor : Cursor.inBlock id offset = cursor at hstands
    cases hstands with
    | unset => cases hcursor
    | @inBlock front back other block offset' hchain hoffset =>
      cases hcursor
      subst hchain
      refine ⟨front.length, ?_, ?_, ?_, hle⟩
      · rw [ids_append, List.getElem?_append_right (by simp), length_ids, Nat.sub_self]
        rfl
      · have hmem := List.mem_append_right front (List.mem_cons_self (a := (id, block)) (l := back))
        exact Nat.le_trans hoffset (h.occupied_le hmem)
      · rw [h.length_front]
  · rintro ⟨i, hid, hoffset, rfl, hle⟩
    obtain ⟨front, block, back, rfl, rfl⟩ := exists_split_of_ids hid
    rw [← h.length_front]
    refine .inBlock rfl ?_
    -- The offset is within a full block. In the last one, which need not be full, the position is
    -- what keeps it there.
    rcases List.eq_nil_or_concat' back with rfl | ⟨_, _, hback⟩
    · rw [contents_append, List.length_append, h.length_front, length_contents_cons] at hle
      simp only [contents_nil, List.length_nil] at hle
      omega
    · rw [h.full_of_ne_nil (by simp [hback])]
      exact hoffset

/-- A set cursor that is settled is past the start of its block, unless it is at the start of the
chain. So its position says in which block it is, and where. -/
theorem Uniform.settled_eq {capacity : Nat} {chain : Chain} (h : Uniform capacity chain)
    (hnodup : chain.ids.Nodup) {id : BlockId} {offset pos : Nat}
    (hstands : Stands chain (Cursor.inBlock id offset) pos)
    (hsettled : Settled chain (Cursor.inBlock id offset)) :
    chain.ids[(pos - 1) / capacity]? = some id ∧
      offset = pos - capacity * ((pos - 1) / capacity) := by
  obtain ⟨i, hid, hoffset, rfl, -⟩ := h.stands_inBlock_iff.mp hstands
  have hplace : (i * capacity + offset - 1) / capacity = i := by
    rcases Nat.eq_zero_or_pos offset with rfl | hpos
    · have hhead := hsettled id rfl rfl
      rw [List.head?_eq_getElem?] at hhead
      have hzero : i = 0 := by
        have hi := (List.getElem?_eq_some_iff.mp hid).1
        exact (List.getElem?_inj hi hnodup).mp (hid.trans hhead.symm)
      rw [hzero, Nat.zero_mul, Nat.zero_div]
    · rw [Nat.div_eq_iff (by omega)]
      omega
  rw [hplace, Nat.mul_comm capacity, Nat.add_sub_cancel_left]
  exact ⟨hid, rfl⟩

/-- A longer list has the members of a shorter one in their places, so a chain that continues
another one has its handles there too. -/
theorem getElem?_of_prefix {α : Type} {short long : List α} (h : short <+: long) {i : Nat} {a : α}
    (ha : short[i]? = some a) : long[i]? = some a := by
  obtain ⟨extra, rfl⟩ := h
  rw [List.getElem?_append_left (List.getElem?_eq_some_iff.mp ha).1, ha]

/-- A cursor keeps its place when its chain gets more blocks or more bytes at the end. It is the
reason why cursors need no attention when a file grows. -/
theorem Stands.extend {capacity : Nat} {chain longer : Chain} {cursor : Cursor} {pos : Nat}
    (h : Stands chain cursor pos) (huniform : Uniform capacity chain)
    (huniform' : Uniform capacity longer) (hids : chain.ids <+: longer.ids)
    (hlength : chain.contents.length ≤ longer.contents.length) : Stands longer cursor pos := by
  -- The place of a block in the chain and the position say all about a set cursor, and neither
  -- changes.
  have hset : ∀ id offset, cursor = Cursor.inBlock id offset → Stands longer cursor pos := by
    rintro id offset rfl
    obtain ⟨i, hid, hoffset, hpos, hle⟩ := huniform.stands_inBlock_iff.mp h
    exact huniform'.stands_inBlock_iff.mpr
      ⟨i, getElem?_of_prefix hids hid, hoffset, hpos, Nat.le_trans hle hlength⟩
  cases h with
  | unset => exact .unset
  | inBlock => exact hset _ _ rfl

/-- A settled cursor is settled in a chain that gets more blocks at the end: the first block is
the same one. -/
theorem Settled.extend {chain longer : Chain} {cursor : Cursor} (h : Settled chain cursor)
    (hids : chain.ids <+: longer.ids) : Settled longer cursor := by
  intro id hid hoffset
  have hhead := h id hid hoffset
  rw [List.head?_eq_getElem?] at hhead ⊢
  exact getElem?_of_prefix hids hhead

/-- The number of blocks is the number of bytes divided by the capacity, rounded up. All blocks
but one are full and that one is not empty. -/
theorem Packed.length_eq {capacity : Nat} {chain : Chain} (h : Packed capacity chain) :
    chain.length = (chain.contents.length + capacity - 1) / capacity := by
  rcases List.eq_nil_or_concat' chain with rfl | ⟨front, last, rfl⟩
  · rcases Nat.eq_zero_or_pos capacity with rfl | hpos
    · simp
    · rw [contents_nil, Nat.div_eq_of_lt (by simp only [List.length_nil]; omega), List.length_nil]
  · have hmem := List.mem_append_right front (List.mem_singleton_self last)
    have hfilled := h.filled last hmem
    have hfits := h.occupied_le hmem
    have hlength : (contents (front ++ [last])).length
        = front.length * capacity + last.2.occupied := by
      rw [contents_append, List.length_append, h.length_front, length_contents_cons]
      rfl
    rw [hlength, List.length_append, List.length_singleton]
    -- The last block holds from one byte to `capacity` of them.
    symm
    rw [Nat.div_eq_iff (by omega), Nat.add_mul, Nat.one_mul]
    omega

/-- A packed chain has no blocks exactly when it has no bytes, as no block of it is empty. -/
theorem Packed.eq_nil_iff {capacity : Nat} {chain : Chain} (h : Packed capacity chain) :
    chain = [] ↔ chain.contents.length = 0 := by
  constructor
  · rintro rfl
    rfl
  · intro hzero
    cases chain with
    | nil => rfl
    | cons entry rest =>
      have := h.filled entry List.mem_cons_self
      rw [length_contents_cons] at hzero
      omega

end Chain

end Filestore
