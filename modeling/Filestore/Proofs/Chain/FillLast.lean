import Filestore.Proofs.Chain.Push

/-!
# `Filestore.Proofs.Chain.FillLast`: zeros in the last block of a chain

`Chain.lastRoom` is the number of bytes that still fit into the last block of a chain, and
`Chain.fillLast` puts zeros there, as many as are asked for or as fit. No other block changes, and
where zeros are left over the last block has become full (`Packed.full_of_lastRoom`).

Extending a file begins this way: the zeros go into the last block as far as they fit, and only
what is left takes new blocks. A chain without blocks has no room at its end and stays as it is,
which saves a case in every statement about an extension; and so does a chain whose last block is
full (`fillLast_eq_self`), since filling it with nothing is nothing.

The lemmas are in pairs, one for a chain without blocks and one for a chain with a last block, and
everything else follows by splitting a chain that way and not by recursion from the front.
-/

set_option autoImplicit false

namespace Filestore

namespace Block

/-- Filling a block with no zeros, or without room for one, leaves it as it was, down to its links
and its capacity. -/
theorem zeroFill_eq_self {block : Block} {len : Nat} (h : block.zeroCount len = 0) :
    block.zeroFill len = block := by
  simp only [zeroFill, h, List.replicate_zero, List.append_nil]

end Block

namespace Chain

/-- How many bytes still fit into the last block; none where there is no block. -/
def lastRoom (chain : Chain) : Nat :=
  match chain.getLast? with
  | none => 0
  | some entry => entry.2.room

/-- The chain with `len` zeros appended in its last block, or as many of them as fit. -/
def fillLast (len : Nat) (chain : Chain) : Chain :=
  match chain.getLast? with
  | none => []
  | some entry => chain.dropLast ++ [(entry.1, entry.2.zeroFill len)]

variable {chain : Chain} {capacity : Nat}

/-- A chain of no blocks has no last block with room in it. -/
@[simp] theorem lastRoom_nil : lastRoom [] = 0 := rfl

/-- The room left at the end of a chain is that of the block it ends in. -/
@[simp] theorem lastRoom_concat (front : Chain) (entry : BlockId × Block) :
    lastRoom (front ++ [entry]) = entry.2.room := by
  rw [lastRoom, List.getLast?_concat]

/-- Without a block there is nothing that could be filled. -/
@[simp] theorem fillLast_nil (len : Nat) : fillLast len [] = [] := rfl

/-- Filling changes the last block and leaves the blocks in front of it as they are. -/
@[simp] theorem fillLast_concat (len : Nat) (front : Chain) (id : BlockId) (block : Block) :
    fillLast len (front ++ [(id, block)]) = front ++ [(id, block.zeroFill len)] := by
  rw [fillLast, List.getLast?_concat, List.dropLast_concat]

/-- No handle changes: the zeros go into a block that is already there. -/
theorem ids_fillLast (len : Nat) (chain : Chain) : (chain.fillLast len).ids = chain.ids := by
  rcases List.eq_nil_or_concat' chain with rfl | ⟨front, ⟨id, block⟩, rfl⟩
  · rfl
  · simp

/-- The zeros that fit come after the bytes, and nothing else changes about the contents. -/
theorem contents_fillLast (len : Nat) (chain : Chain) :
    (chain.fillLast len).contents
      = chain.contents ++ List.replicate (min len chain.lastRoom) 0 := by
  rcases List.eq_nil_or_concat' chain with rfl | ⟨front, ⟨id, block⟩, rfl⟩
  · simp
  · simp [Block.zeroFill, Block.zeroCount]

/-- Without room in the last block the chain stays as it was, however many zeros are left. -/
theorem fillLast_eq_self (hroom : chain.lastRoom = 0) (len : Nat) : chain.fillLast len = chain := by
  rcases List.eq_nil_or_concat' chain with rfl | ⟨front, ⟨id, block⟩, rfl⟩
  · rfl
  · rw [lastRoom_concat] at hroom
    have hcount : block.zeroCount len = 0 := by
      rw [Block.zeroCount, show block.room = 0 from hroom, Nat.min_zero]
    rw [fillLast_concat, Block.zeroFill_eq_self hcount]

/-- The zeros take up room, as far as there is some: either all of them fit, or none is left. -/
theorem lastRoom_fillLast (len : Nat) (chain : Chain) :
    (chain.fillLast len).lastRoom = chain.lastRoom - len := by
  rcases List.eq_nil_or_concat' chain with rfl | ⟨front, ⟨id, block⟩, rfl⟩
  · simp
  · rw [fillLast_concat, lastRoom_concat, lastRoom_concat]
    show (block.zeroFill len).capacity - (block.zeroFill len).occupied = block.room - len
    rw [Block.occupied_zeroFill]
    simp only [Block.zeroFill, Block.zeroCount, Block.room]
    omega

/-- Zeros in the last block leave a packed chain packed: the last block is the one that may be
short, and it only gets fuller. -/
theorem Packed.fillLast (h : Packed capacity chain) (len : Nat) :
    Packed capacity (chain.fillLast len) := by
  rcases List.eq_nil_or_concat' chain with rfl | ⟨front, ⟨id, block⟩, rfl⟩
  · exact h
  · rw [fillLast_concat]
    exact h.replace rfl (block.occupied_zeroFill len ▸ Nat.le_add_right _ _)

/-- Where nothing more fits, every block of a packed chain is full, the last one included, and
another block may be linked. -/
theorem Packed.full_of_lastRoom (h : Packed capacity chain) (hroom : chain.lastRoom = 0) :
    ∀ entry ∈ chain, entry.2.occupied = capacity := by
  rcases List.eq_nil_or_concat' chain with rfl | ⟨front, last, rfl⟩
  · exact fun _ hentry => nomatch hentry
  · obtain ⟨hfront, hcapacity⟩ := uniform_concat.mp h.toUniform
    intro entry hentry
    rcases List.mem_append.mp hentry with hentry | hentry
    · exact (hfront entry hentry).2
    · have hfits := last.2.fits
      rw [lastRoom_concat] at hroom
      rw [List.mem_singleton.mp hentry]
      unfold Block.room Block.occupied at *
      omega

end Chain

end Filestore
