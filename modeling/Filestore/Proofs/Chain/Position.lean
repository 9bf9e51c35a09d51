import Filestore.Proofs.Chain.Linked

/-!
# `Filestore.Proofs.Chain.Position`: cursors and stream positions

`Chain.Stands chain cursor pos` says that a cursor stands in a chain at stream position `pos`: it
is unset and `pos` is 0, or its block is one of the chain, its offset is within the block, and
`pos` is that many bytes past the blocks before it. `Chain.position` computes the position
(`Stands.position_eq`) and `Chain.locate` finds a cursor for a position (`stands_locate`).

One position can have two cursors, the end of a block and the start of the next one, and more
where blocks between them are empty. A cursor that is `Chain.Settled` is the first of them: it is
at the start of a block only in the first block. `locate` gives settled cursors in chains without
empty blocks (`settled_locate`), and that is what it is for.

Nothing here depends on how full the blocks are or on their capacities, only on their handles
being different: `startOf` finds the first block of a handle, and if it came twice the cursor
would have two positions. What the positions are in chains of full blocks is in
`Filestore.Proofs.Chain.Packed`.
-/

set_option autoImplicit false

namespace Filestore

namespace Chain

/-- A chain without blocks holds no bytes. -/
@[simp] theorem contents_nil : contents [] = [] := rfl

/-- The contents of a chain begin with the bytes of its first block. -/
@[simp] theorem contents_cons (entry : BlockId × Block) (rest : Chain) :
    contents (entry :: rest) = entry.2.bytes ++ contents rest := List.flatMap_cons

/-- The contents of two chains, one after the other, are those of the first and then those of the
second. -/
@[simp] theorem contents_append (front back : Chain) :
    contents (front ++ back) = contents front ++ contents back := List.flatMap_append

/-- The first block counts with as many bytes as it holds, and the rest with its contents. -/
theorem length_contents_cons (entry : BlockId × Block) (rest : Chain) :
    (contents (entry :: rest)).length = entry.2.occupied + (contents rest).length := by
  rw [contents_cons, List.length_append]
  rfl

/-- The cursor is in the chain, with `pos` bytes of the chain before it. -/
inductive Stands (chain : Chain) : Cursor → Nat → Prop where
  /-- A cursor that has not touched the chain is at its start. -/
  | unset : Stands chain Cursor.unset 0
  /-- A cursor in a block is as far past the blocks before it as its offset says. -/
  | inBlock {front back : Chain} {id : BlockId} {block : Block} {offset : Nat}
    (hchain : chain = front ++ (id, block) :: back) (hoffset : offset ≤ block.occupied) :
    Stands chain (Cursor.inBlock id offset) (front.contents.length + offset)

/-- A cursor at the start of a block is in the first block. -/
def Settled (chain : Chain) (cursor : Cursor) : Prop :=
  ∀ id, cursor.block = some id → cursor.offset = 0 → chain.ids.head? = some id

/-- A cursor that has not touched its file is settled: it names no block to be at the start of. -/
theorem settled_unset (chain : Chain) : Settled chain Cursor.unset :=
  fun _ h => nomatch h

/-- A cursor past the start of its block is settled, since only one at a start can be otherwise. -/
theorem settled_of_offset_pos {chain : Chain} {cursor : Cursor} (h : 0 < cursor.offset) :
    Settled chain cursor :=
  fun _ _ hzero => absurd hzero (Nat.pos_iff_ne_zero.mp h)

/-- No cursor stands past the end, so there is no gap that a write would have to fill. -/
theorem Stands.le_length {chain : Chain} {cursor : Cursor} {pos : Nat}
    (h : Stands chain cursor pos) : pos ≤ chain.contents.length := by
  cases h with
  | unset => exact Nat.zero_le _
  | inBlock hchain hoffset =>
    subst hchain
    simp only [contents_append, contents_cons, List.length_append, Block.occupied] at hoffset ⊢
    omega

/-- A cursor that is past the start of a block is set, as the unset one has offset 0. -/
theorem Stands.block_ne_none {chain : Chain} {cursor : Cursor} {pos : Nat}
    (h : Stands chain cursor pos) (hoffset : 0 < cursor.offset) : cursor.block ≠ none := by
  cases h with
  | unset => exact absurd hoffset (Nat.lt_irrefl 0)
  | inBlock => exact Option.some_ne_none _

/-- A cursor without a block is the unset one; there is no other that stands anywhere. -/
theorem Stands.eq_unset {chain : Chain} {cursor : Cursor} {pos : Nat}
    (h : Stands chain cursor pos) (hblock : cursor.block = none) : cursor = Cursor.unset := by
  cases h with
  | unset => rfl
  | inBlock => cases hblock

/-- The block of a set cursor is in the chain, and the offset in the block or at its end. -/
theorem Stands.exists_mem {chain : Chain} {cursor : Cursor} {pos : Nat} {id : BlockId}
    (h : Stands chain cursor pos) (hid : cursor.block = some id) :
    ∃ block, (id, block) ∈ chain ∧ cursor.offset ≤ block.occupied := by
  cases h with
  | unset => cases hid
  | @inBlock front back _ block _ hchain hoffset =>
    cases hid
    exact ⟨block, hchain ▸ List.mem_append_right _ List.mem_cons_self, hoffset⟩

/-- A block starts after the bytes of the blocks before it, provided none of those has its
handle. -/
theorem startOf_append {front back : Chain} {id : BlockId} {block : Block}
    (hid : id ∉ front.ids) :
    startOf id (front ++ (id, block) :: back) = some front.contents.length := by
  -- The sum runs over the blocks before this one: none of them ends it, since none has its handle.
  induction front with
  | nil =>
    rw [List.nil_append, startOf_cons, if_pos rfl]
    rfl
  | cons entry rest ih =>
    obtain ⟨other, first⟩ := entry
    simp only [ids_cons, List.mem_cons, not_or] at hid
    rw [List.cons_append, startOf_cons, if_neg (Ne.symm hid.1), ih hid.2, length_contents_cons]
    rfl

/-- A handle without a block in the chain has no start there, and it is the only kind that has
none. -/
theorem startOf_eq_none_iff {target : BlockId} {chain : Chain} :
    startOf target chain = none ↔ target ∉ chain.ids := by
  induction chain with
  | nil => exact iff_of_true rfl List.not_mem_nil
  | cons entry rest ih =>
    rw [startOf_cons, ids_cons, List.mem_cons, not_or]
    by_cases heq : entry.1 = target
    · rw [if_pos heq]
      exact iff_of_false (Option.some_ne_none 0) fun hboth => hboth.1 heq.symm
    · rw [if_neg heq, Option.map_eq_none_iff, ih]
      exact (and_iff_right (Ne.symm heq)).symm

/-- Only a cursor in a block that is not in the chain has no position there. An unset one has
position 0 in any chain. -/
theorem position_eq_none_iff {chain : Chain} {cursor : Cursor} :
    position chain cursor = none ↔ ∃ id, cursor.block = some id ∧ id ∉ chain.ids := by
  unfold position
  cases cursor.block with
  | none => simp
  | some id => simp [startOf_eq_none_iff]

/-- The position computed for a cursor is the one it stands at, where no handle comes twice. -/
theorem Stands.position_eq {chain : Chain} {cursor : Cursor} {pos : Nat}
    (h : Stands chain cursor pos) (hnodup : chain.ids.Nodup) :
    position chain cursor = some pos := by
  cases h with
  | unset => rfl
  | @inBlock front back id block offset hchain hoffset =>
    subst hchain
    -- Without repetitions, the first block met with this handle is this one.
    rw [ids_append, ids_cons] at hnodup
    have hid : id ∉ front.ids := fun hmem =>
      (List.nodup_append.mp hnodup).2.2 id hmem id List.mem_cons_self rfl
    show (startOf id (front ++ (id, block) :: back)).map (· + offset) = _
    rw [startOf_append hid]
    rfl

/-- A cursor stands at one position only, since the position can be computed from it. -/
theorem Stands.unique {chain : Chain} {cursor : Cursor} {pos pos' : Nat}
    (h : Stands chain cursor pos) (h' : Stands chain cursor pos') (hnodup : chain.ids.Nodup) :
    pos = pos' :=
  Option.some.inj ((h.position_eq hnodup).symm.trans (h'.position_eq hnodup))

/-- Two cursors in one block that stand at one position are at the same offset. So a block has at
most one cursor for a position. -/
theorem Stands.offset_eq {chain : Chain} {cursor cursor' : Cursor} {pos : Nat}
    (h : Stands chain cursor pos) (h' : Stands chain cursor' pos)
    (hblock : cursor.block = cursor'.block) (hnodup : chain.ids.Nodup) :
    cursor.offset = cursor'.offset := by
  cases hid : cursor.block with
  | none => rw [h.eq_unset hid, h'.eq_unset (hblock.symm.trans hid)]
  | some id =>
    have hposition := h.position_eq hnodup
    have hposition' := h'.position_eq hnodup
    rw [position, hid] at hposition
    rw [position, ← hblock, hid] at hposition'
    -- Both offsets are counted from where the block starts.
    obtain ⟨start, hstart, hpos⟩ := Option.map_eq_some_iff.mp hposition
    obtain ⟨start', hstart', hpos'⟩ := Option.map_eq_some_iff.mp hposition'
    obtain rfl := Option.some.inj (hstart.symm.trans hstart')
    exact Nat.add_left_cancel (hpos.trans hpos'.symm)

/-- A cursor at the start of a block is past the blocks before it and nothing else. -/
theorem stands_start {chain front back : Chain} {id : BlockId} {block : Block}
    (hchain : chain = front ++ (id, block) :: back) :
    Stands chain (Cursor.inBlock id 0) front.contents.length :=
  .inBlock hchain (Nat.zero_le _)

/-- A set cursor in the rest of a chain stands in the whole chain, past the first block. The unset
one does not: it would move to the start of the whole. -/
theorem Stands.cons {rest : Chain} {id : BlockId} {offset pos : Nat}
    (h : Stands rest (Cursor.inBlock id offset) pos) (entry : BlockId × Block) :
    Stands (entry :: rest) (Cursor.inBlock id offset) (entry.2.occupied + pos) := by
  -- The cursor is named so that `cases` can tell that it is set.
  generalize hcursor : Cursor.inBlock id offset = cursor at h
  cases h with
  | unset => cases hcursor
  | @inBlock front back other block _ hchain hoffset =>
    have hlonger : entry :: rest = (entry :: front) ++ (other, block) :: back := by
      rw [hchain, List.cons_append]
    have h := Stands.inBlock hlonger hoffset
    rwa [length_contents_cons, Nat.add_assoc] at h

/-- The cursor found for a position in a chain with blocks is in one of them, for positions past
the end too. -/
theorem exists_locate_eq {chain : Chain} (hne : chain ≠ []) (pos : Nat) :
    ∃ id offset, locate pos chain = Cursor.inBlock id offset := by
  fun_induction locate pos chain with
  | case1 => exact absurd rfl hne
  | case2 pos id block => exact ⟨_, _, rfl⟩
  | case3 pos id block rest _ hle => exact ⟨_, _, rfl⟩
  | case4 pos id block rest hrest hle ih => exact ih fun h => hrest h

/-- Only in a chain without blocks is the cursor found for a position unset, whatever the
position. -/
theorem locate_eq_unset_iff {chain : Chain} {pos : Nat} :
    locate pos chain = Cursor.unset ↔ chain = [] := by
  cases chain with
  | nil => exact iff_of_true rfl rfl
  | cons entry rest =>
    obtain ⟨id, offset, hlocate⟩ := exists_locate_eq (List.cons_ne_nil entry rest) pos
    exact iff_of_false (fun hunset => nomatch hlocate.symm.trans hunset) (List.cons_ne_nil _ _)

/-- A position that the first block reaches is found there, at the offset that it is. The end of
the block counts as reached. -/
theorem locate_cons_of_le {id : BlockId} {block : Block} {pos : Nat} (hpos : pos ≤ block.occupied)
    (rest : Chain) : locate pos ((id, block) :: rest) = Cursor.inBlock id pos := by
  cases rest with
  | nil => rw [locate, Nat.min_eq_left hpos]
  | cons => rw [locate, if_pos hpos]; simp

/-- A position that is past some blocks is found in the blocks after them, at what is left of it.
It must be past them by at least one byte, or it would be found at their end. -/
theorem locate_append {front rest : Chain} {offset : Nat} (hpos : 0 < offset) (hne : rest ≠ []) :
    locate (front.contents.length + offset) (front ++ rest) = locate offset rest := by
  induction front with
  | nil => rw [contents_nil, List.length_nil, Nat.zero_add, List.nil_append]
  | cons entry front ih =>
    obtain ⟨id, block⟩ := entry
    have hpast : ¬ (block.occupied + (contents front).length + offset ≤ block.occupied) := by omega
    rw [length_contents_cons, List.cons_append, locate, if_neg hpast, ← ih, Nat.add_assoc,
      Nat.add_sub_cancel_left]
    simp [hne]

/-- An offset past the start of a block is found there, and so is the start of the first block.
The start of a later block is found at the end of the one before it. -/
theorem locate_inBlock {front back : Chain} {id : BlockId} {block : Block} {offset : Nat}
    (hoffset : offset ≤ block.occupied) (hpast : 0 < offset ∨ front = []) :
    locate (front.contents.length + offset) (front ++ (id, block) :: back)
      = Cursor.inBlock id offset := by
  rcases hpast with hpos | rfl
  · rw [locate_append hpos (by simp), locate_cons_of_le hoffset]
  · rw [contents_nil, List.length_nil, Nat.zero_add, List.nil_append, locate_cons_of_le hoffset]

/-- The cursor found for a position stands there, or at the end for a position past it. So looking
for a position never gives a cursor that is lost. -/
theorem stands_locate (chain : Chain) (pos : Nat) :
    Stands chain (locate pos chain) (min pos chain.contents.length) := by
  -- The search takes the first block that reaches the position, or else the last one.
  fun_induction locate pos chain with
  | case1 pos =>
    rw [contents_nil, List.length_nil, Nat.min_zero]
    exact .unset
  | case2 pos id block =>
    have h := Stands.inBlock (List.nil_append [(id, block)]).symm (Nat.min_le_right pos _)
    rw [contents_cons, contents_nil, List.append_nil]
    rwa [contents_nil, List.length_nil, Nat.zero_add] at h
  | case3 pos id block rest hrest hle =>
    have h := Stands.inBlock (List.nil_append ((id, block) :: rest)).symm hle
    rw [contents_nil, List.length_nil, Nat.zero_add] at h
    rw [length_contents_cons, Nat.min_eq_left (Nat.le_add_right_of_le hle)]
    exact h
  | case4 pos id block rest hrest hle ih =>
    -- Past the first block the search goes on for what is left of the position.
    obtain ⟨other, offset, hlocate⟩ := exists_locate_eq hrest (pos - block.occupied)
    rw [hlocate] at ih ⊢
    have h := ih.cons (id, block)
    have hmin : block.occupied + min (pos - block.occupied) (contents rest).length
        = min pos (block.occupied + (contents rest).length) := by omega
    rw [hmin] at h
    rw [length_contents_cons]
    exact h

/-- The cursor found for a later position than the first is past the start of its block, where no
block is empty. -/
theorem locate_offset_pos {chain : Chain} (hne : chain ≠ [])
    (hfilled : ∀ entry ∈ chain, 0 < entry.2.occupied) {pos : Nat} (hpos : 0 < pos) :
    0 < (locate pos chain).offset := by
  fun_induction locate pos chain with
  | case1 => exact absurd rfl hne
  | case2 pos id block => exact Nat.lt_min.mpr ⟨hpos, hfilled _ List.mem_cons_self⟩
  | case3 pos id block rest _ hle => exact hpos
  | case4 pos id block rest hrest hle ih =>
    exact ih (fun h => hrest h) (fun entry h => hfilled entry (List.mem_cons_of_mem _ h))
      (Nat.sub_pos_of_lt (Nat.lt_of_not_le hle))

/-- The cursor found for a position is settled, where no block is empty: it is past the start of
its block or in the first one. -/
theorem settled_locate {chain : Chain} (hfilled : ∀ entry ∈ chain, 0 < entry.2.occupied)
    (pos : Nat) : Settled chain (locate pos chain) := by
  rcases Nat.eq_zero_or_pos pos with rfl | hpos
  -- Position 0 is found in the first block, at offset 0. That is the one start of a block that a
  -- settled cursor may be at.
  · match chain with
    | [] => exact settled_unset []
    | [(id, block)] =>
      intro other hother _
      exact hother
    | (id, block) :: entry :: rest =>
      have hlocate : locate 0 ((id, block) :: entry :: rest) = Cursor.inBlock id 0 := by
        rw [locate, if_pos (Nat.zero_le _)]
        simp
      rw [hlocate]
      intro other hother _
      exact hother
  · rcases List.eq_nil_or_concat' chain with rfl | ⟨front, entry, rfl⟩
    · exact settled_unset []
    · exact settled_of_offset_pos (locate_offset_pos (by simp) hfilled hpos)

end Chain

end Filestore
