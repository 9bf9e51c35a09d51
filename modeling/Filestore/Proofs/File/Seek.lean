import Filestore.File.Basic
import Filestore.Proofs.Chain.Position
import Mathlib.Data.List.Induction

/-!
# `Filestore.Proofs.File.Seek`: going to a position and coming back

`File.locate` turns a stream position into a cursor and `File.position` turns a cursor into a stream
position. `seeks_of_reaches` says how far they are inverse to each other: on every chain that comes
to an end, whatever the capacities of its blocks are and however many bytes each of them holds,
empty ones included.

From a position there and back is the position. From a cursor there and back is a cursor at the same
position, and only a cursor at the start of a block may come back as another one, at the end of an
earlier block: between the two there is nothing to read (`Chain.exists_locate_start`).
-/

set_option autoImplicit false

namespace Filestore

namespace Chain

/-- The start of a later block than the first is found at the end of an earlier one: the last one
before it that is not empty, or the first of the chain where they all are. -/
theorem exists_locate_start {front : Chain} (hne : front ≠ []) (rest : Chain) :
    ∃ (before : Chain) (id : BlockId) (block : Block) (between : Chain),
      front = before ++ (id, block) :: between ∧
      (∀ entry ∈ between, entry.2.occupied = 0) ∧ (0 < block.occupied ∨ before = []) ∧
      locate front.contents.length (front ++ rest) = Cursor.inBlock id block.occupied := by
  -- Empty blocks are taken off the end, one after another, and put in front of `rest`.
  induction front using List.reverseRecOn generalizing rest with
  | nil => exact absurd rfl hne
  | append_singleton front entry ih =>
    obtain ⟨id, block⟩ := entry
    rw [contents_append, List.length_append, length_contents_cons, contents_nil, List.length_nil,
      Nat.add_zero, List.append_assoc, List.singleton_append]
    by_cases hends : 0 < block.occupied ∨ front = []
    · refine ⟨front, id, block, [], rfl, ?_, hends, locate_inBlock (Nat.le_refl _) hends⟩
      exact fun _ hentry => nomatch hentry
    · obtain ⟨hempty, hfront⟩ := not_or.mp hends
      have hempty := Nat.eq_zero_of_not_pos hempty
      obtain ⟨before, other, last, between, rfl, hbetween, hends, hlocate⟩ :=
        ih hfront ((id, block) :: rest)
      refine ⟨before, other, last, between ++ [(id, block)], by simp, ?_, hends, ?_⟩
      · intro entry hentry
        rcases List.mem_append.mp hentry with hentry | hentry
        · exact hbetween entry hentry
        · rw [List.mem_singleton.mp hentry, hempty]
      · rw [hempty, Nat.add_zero, hlocate]

end Chain

namespace File

/-- Positions and cursors of a file that lies in storage as the chain.

- `chain_eq`: the chain is the file's.
- `position_locate`: a position is found, or the end for one past it.
- `position_inBlock`: an offset in a block is past the bytes of the blocks before it.
- `position_again`: what is found for the position of a cursor is at that position.
- `locate_inBlock`: past the start of a block, or in the first block, a cursor is found again.
- `locate_start`: the start of a later block is found at the end of an earlier one. The blocks
  between them are empty, and so is the earlier one only if it is the first.
- `exists_block`: the cursor found is in a block of the chain, no further than its bytes go.
- `locate_eq_unset_iff`: the cursor found is unset only in a file without blocks.
- `position_eq_none_iff`: only a cursor in a block that is not in the chain has no position. -/
structure Seeks (file : File) (blocks : Slab Block) (chain : Chain) : Prop where
  chain_eq : file.chain blocks = chain
  position_locate : ∀ pos,
    file.position blocks (file.locate blocks pos) = some (min pos chain.contents.length)
  position_inBlock : ∀ (front : Chain) id block back, chain = front ++ (id, block) :: back →
    ∀ offset, offset ≤ block.occupied →
      file.position blocks (Cursor.inBlock id offset) = some (front.contents.length + offset)
  position_again : ∀ (front : Chain) id block back, chain = front ++ (id, block) :: back →
    ∀ offset, offset ≤ block.occupied →
      file.position blocks (file.locate blocks (front.contents.length + offset))
        = some (front.contents.length + offset)
  locate_inBlock : ∀ (front : Chain) id block back, chain = front ++ (id, block) :: back →
    ∀ offset, offset ≤ block.occupied → (0 < offset ∨ front = []) →
      file.locate blocks (front.contents.length + offset) = Cursor.inBlock id offset
  locate_start : ∀ (front : Chain) id block back, chain = front ++ (id, block) :: back →
    front ≠ [] → ∃ before other last between, front = before ++ (other, last) :: between ∧
      (∀ entry ∈ between, entry.2.occupied = 0) ∧ (0 < last.occupied ∨ before = []) ∧
      file.locate blocks front.contents.length = Cursor.inBlock other last.occupied
  exists_block : ∀ pos id, (file.locate blocks pos).block = some id →
    ∃ block, (id, block) ∈ chain ∧ blocks.get? id = some block ∧
      (file.locate blocks pos).offset ≤ block.occupied
  locate_eq_unset_iff : ∀ pos, file.locate blocks pos = Cursor.unset ↔ chain = []
  position_eq_none_iff : ∀ cursor : Cursor, file.position blocks cursor = none ↔
    ∃ id, cursor.block = some id ∧ id ∉ chain.ids

/-- Positions and cursors of every file whose links come to an end are inverse to each other, but
for the start of a block and the end of the bytes before it. -/
theorem seeks_of_reaches {file : File} {blocks : Slab Block} {chain : Chain}
    (h : chain.Reaches blocks file.head) : file.Seeks blocks chain := by
  -- All of it is about the chain, on which the links end. The rest is what is known of chains.
  have hchain : file.chain blocks = chain := h.walk_eq
  have hlocate : ∀ pos, file.locate blocks pos = chain.locate pos := by
    intro pos
    rw [File.locate, hchain]
  have hposition : ∀ cursor, file.position blocks cursor = chain.position cursor := by
    intro cursor
    rw [File.position, hchain]
  have hback : ∀ pos,
      file.position blocks (file.locate blocks pos) = some (min pos chain.contents.length) := by
    intro pos
    rw [hposition, hlocate]
    exact (Chain.stands_locate chain pos).position_eq h.nodup
  refine ⟨hchain, hback, ?_, ?_, ?_, ?_, ?_, ?_, ?_⟩
  · intro front id block back hsplit offset hoffset
    rw [hposition]
    exact (Chain.Stands.inBlock hsplit hoffset).position_eq h.nodup
  · intro front id block back hsplit offset hoffset
    rw [hback, Nat.min_eq_left (Chain.Stands.inBlock hsplit hoffset).le_length]
  · intro front id block back hsplit offset hoffset hpast
    rw [hlocate, hsplit]
    exact Chain.locate_inBlock hoffset hpast
  · intro front id block back hsplit hne
    rw [hlocate, hsplit]
    exact Chain.exists_locate_start hne ((id, block) :: back)
  · intro pos id hid
    rw [hlocate] at hid ⊢
    obtain ⟨block, hmem, hoffset⟩ := (Chain.stands_locate chain pos).exists_mem hid
    exact ⟨block, hmem, h.stored (id, block) hmem, hoffset⟩
  · intro pos
    rw [hlocate]
    exact Chain.locate_eq_unset_iff
  · intro cursor
    rw [hposition]
    exact Chain.position_eq_none_iff

/-- Blocks of several capacities, one of them empty at the start and one in the middle. -/
theorem seeks_of_reaches_empty_blocks :
    let first : Block := ⟨[], 3, none, some ⟨0, 1⟩, by decide⟩
    let second : Block := ⟨[7, 8], 4, some ⟨2, 0⟩, some ⟨3, 0⟩, by decide⟩
    let third : Block := ⟨[], 1, some ⟨0, 1⟩, some ⟨1, 0⟩, by decide⟩
    let last : Block := ⟨[9], 2, some ⟨3, 0⟩, none, by decide⟩
    let blocks : Slab Block :=
      ⟨#[.occupied 1 second, .occupied 0 last, .occupied 0 first, .occupied 0 third], none, 4⟩
    let file : File := ⟨"a", some ⟨2, 0⟩, some ⟨1, 0⟩, 1, false, 3, 4⟩
    let chain : Chain := [(⟨2, 0⟩, first), (⟨0, 1⟩, second), (⟨3, 0⟩, third), (⟨1, 0⟩, last)]
    chain.Reaches blocks file.head ∧ file.Seeks blocks chain ∧
      file.position blocks (Cursor.inBlock ⟨1, 0⟩ 0) = some 2 ∧
      file.locate blocks 2 = Cursor.inBlock ⟨0, 1⟩ 2 := by
  intro first second third last blocks file chain
  have h : chain.Reaches blocks file.head :=
    ⟨rfl, by decide, rfl, by decide, rfl, by decide, rfl, by decide, rfl⟩
  exact ⟨h, seeks_of_reaches h, by decide, by decide⟩

end File

end Filestore
