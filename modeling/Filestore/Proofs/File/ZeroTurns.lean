import Filestore.Proofs.File.Extent

/-!
# `Filestore.Proofs.File.ZeroTurns`: an extension turn by turn

An extension can be told as a loop. While zeros are left, a block is appended unless the last one
has room, and then the last one is filled. `File.zeroTurn` is a turn of it, and `File.ZeroTurns`
relates a file to the end that the turns come to, if they come to one: a turn that fails, or no
zeros left. There is no more than one such end (`ZeroTurns.unique`).

`File.extendZeros` fills the last block once and then links copies of one block of zeros, which
all share their bytes. `Spans.zeroTurns` says that the turns do come to an end, and to the one
that `File.extendZeros` gives: the same result, file and storage, slot for slot. They end because
of the capacity. An appended block has room for a zero, so every turn puts one in.

The two are compared a turn at a time. A turn on a file whose last block has room is `fillTail`
(`zeroTurn_eq_fillTail`), and every other one links a block of zeros (`zeroTurn_eq_linkCopy`),
since an empty block that is linked and then filled is the same as a copy. After a filling the
last block is full or no zeros are left, so the first kind of turn happens once at most.
-/

set_option autoImplicit false

namespace Filestore

namespace File

/-- One turn: a block is appended unless the last one has room, and that block or the new one is
filled with at most `len` zeros. Gives their number. -/
def zeroTurn (file : File) (blocks : Slab Block) (capacity len : Nat) :
    Except Error Nat × File × Slab Block :=
  match file.openTail blocks with
  | some tail => file.fillBlock blocks tail len
  | none =>
    match file.appendBlock blocks capacity with
    | (.error e, same, stored) => (.error e, same, stored)
    | (.ok id, longer, stored) => longer.fillBlock stored id len

/-- The turns that append `len` zeros come to an end with the result. -/
inductive ZeroTurns (capacity : Nat) :
    File → Slab Block → Nat → Except Error Unit × File × Slab Block → Prop where
  /-- No zeros are left. -/
  | done {file : File} {blocks : Slab Block} :
    ZeroTurns capacity file blocks 0 (.ok (), file, blocks)
  /-- A turn fails. -/
  | failed {file file' : File} {blocks blocks' : Slab Block} {len : Nat} {e : Error}
    (hlen : 0 < len) (hturn : file.zeroTurn blocks capacity len = (.error e, file', blocks')) :
    ZeroTurns capacity file blocks len (.error e, file', blocks')
  /-- A turn puts in some zeros, and others are left for the turns after it. -/
  | turned {file file' : File} {blocks blocks' : Slab Block} {len count : Nat}
    {result : Except Error Unit × File × Slab Block} (hlen : 0 < len)
    (hturn : file.zeroTurn blocks capacity len = (.ok count, file', blocks'))
    (hrest : ZeroTurns capacity file' blocks' (len - count) result) :
    ZeroTurns capacity file blocks len result

variable {file : File} {blocks : Slab Block} {chain : Chain} {capacity len : Nat}

/-- The turns come to one end only, because a turn is a function of the file and of what is left. -/
theorem ZeroTurns.unique {result result' : Except Error Unit × File × Slab Block}
    (h : ZeroTurns capacity file blocks len result)
    (h' : ZeroTurns capacity file blocks len result') : result = result' := by
  induction h with
  | done =>
    cases h' with
    | done => rfl
    | failed hlen => cases hlen
    | turned hlen => cases hlen
  | failed hlen hturn =>
    cases h' with
    | done => cases hlen
    | failed _ hturn' =>
      cases hturn.symm.trans hturn'
      rfl
    | turned _ hturn' => cases hturn.symm.trans hturn'
  | turned hlen hturn _ ih =>
    cases h' with
    | done => cases hlen
    | failed _ hturn' => cases hturn.symm.trans hturn'
    | turned _ hturn' hrest' =>
      cases hturn.symm.trans hturn'
      exact ih hrest'

/-- Without room in its last block, a file has none to fill, so a turn has to append one. -/
theorem Spans.openTail_eq_none (h : file.Spans blocks chain) (hroom : chain.lastRoom = 0) :
    file.openTail blocks = none := by
  rw [h.openTail_eq, hroom]
  rfl

/-- A turn on a file whose last block has no room links a block of zeros, as many as are left or
fit into a block. -/
theorem Spans.zeroTurn_eq_linkCopy (h : file.Spans blocks chain) (hmax : capacity ≤ Block.maxBuffer)
    (hroom : chain.lastRoom = 0) (len : Nat) :
    file.zeroTurn blocks capacity len =
      let linked := file.linkCopy blocks ((Block.ofCapacity capacity).zeroFill len)
      (.ok (min len capacity), linked.2) := by
  obtain ⟨id, longer, stored, hlink, hedit⟩ :=
    h.link (show (Block.ofCapacity capacity).next = none from rfl)
  -- The block is the last one of the chain, so it is there to be filled, as the empty one it is.
  have hnew : stored.get? id = some _ :=
    hedit.spans.stored _ (List.mem_append_right _ (List.mem_singleton_self _))
  have hempty : ((Block.ofCapacity capacity).zeroFill len).truncate 0 = Block.ofCapacity capacity :=
    rfl
  simp only [zeroTurn, h.openTail_eq_none hroom, File.appendBlock, Block.allocate_eq_ok hmax, hlink,
    fillBlock, hnew, File.linkCopy, hempty, h.tail_eq, Block.occupied_zeros]
  rfl

/-- The turns on a file whose last block has no room link copies of a block of zeros. Each of them
but the last is full, so the next turn has no room either. -/
theorem Spans.zeroTurns_linkCopies (hpos : 0 < capacity) (hmax : capacity ≤ Block.maxBuffer)
    {total fuel : Nat} (htotal : len ≤ total) (hfuel : len ≤ fuel) (h : file.Spans blocks chain)
    (hroom : 0 < len → chain.lastRoom = 0) :
    ZeroTurns capacity file blocks len
      (linkCopies ((Block.ofCapacity capacity).zeroFill total) fuel file blocks len) := by
  induction fuel generalizing file blocks chain len with
  | zero =>
    cases Nat.le_zero.mp hfuel
    exact .done
  | succ fuel ih =>
    cases len with
    | zero => exact .done
    | succ len =>
      have hturn := h.zeroTurn_eq_linkCopy hmax (hroom (Nat.succ_pos len)) (len + 1)
      obtain ⟨id, longer, stored, hlink, hedit⟩ :=
        h.linkCopy (show ((Block.ofCapacity capacity).zeroFill (len + 1)).next = none from rfl)
      simp only [hlink] at hturn
      refine .turned (Nat.succ_pos len) hturn ?_
      simp only [linkCopies, Block.truncate_zeros capacity htotal, hlink, Block.occupied_zeros]
      -- Zeros are left only where the new block is full.
      refine ih (by omega) (by omega) hedit.spans fun hrest => ?_
      rw [Chain.push, Chain.lastRoom_concat]
      show capacity - ((Block.ofCapacity capacity).zeroFill (len + 1)).occupied = 0
      rw [Block.occupied_zeros]
      omega

/-- The turns on a file whose last block has no room append zeros in new blocks, or fail at once
where there can be no such block. -/
theorem Spans.zeroTurns_appendZeros (hpos : 0 < capacity) (h : file.Spans blocks chain)
    (hroom : 0 < len → chain.lastRoom = 0) :
    ZeroTurns capacity file blocks len (file.appendZeros blocks capacity len) := by
  unfold File.appendZeros
  split
  · rename_i hzero
    rw [hzero]
    exact .done
  · rename_i hlen
    have hlen := Nat.pos_of_ne_zero hlen
    by_cases hmax : capacity ≤ Block.maxBuffer
    · simp only [Block.allocate_eq_ok hmax]
      exact h.zeroTurns_linkCopies hpos hmax (Nat.le_refl len) (Nat.le_refl len) hroom
    · have herror := Block.allocate_eq_error (Nat.lt_of_not_le hmax)
      simp only [herror]
      refine .failed hlen ?_
      simp only [zeroTurn, h.openTail_eq_none (hroom hlen), File.appendBlock, herror]

/-- Filling the last block with no zeros, or without room for one, leaves everything as it was. -/
theorem Spans.fillTail_eq_self (h : file.Spans blocks chain) (hnone : min len chain.lastRoom = 0) :
    file.fillTail blocks len = (.ok 0, file, blocks) := by
  rw [File.fillTail, h.openTail_eq]
  by_cases hroom : 0 < chain.lastRoom
  · rw [if_pos hroom]
    rcases List.eq_nil_or_concat' chain with rfl | ⟨front, ⟨last, block⟩, rfl⟩
    · cases hroom
    · rw [Chain.lastRoom_concat] at hnone
      obtain ⟨htail, hblock⟩ := h.last_eq
      have hcount : block.zeroCount len = 0 := hnone
      simp only [htail, fillBlock, hblock, hcount, Block.zeroFill_eq_self hcount,
        Slab.set_get? hblock]
      rfl
  · rw [if_neg hroom]

/-- A turn on a file whose last block has room fills that block, whatever the capacity of new ones
is. -/
theorem Spans.zeroTurn_eq_fillTail (h : file.Spans blocks chain) (hroom : 0 < chain.lastRoom)
    (capacity len : Nat) : file.zeroTurn blocks capacity len = file.fillTail blocks len := by
  rcases List.eq_nil_or_concat' chain with rfl | ⟨front, ⟨last, block⟩, rfl⟩
  · cases hroom
  · rw [zeroTurn, File.fillTail, h.openTail_eq, if_pos hroom, h.last_eq.1]

/-- The turns come to the end that an extension does, on every file that spans a chain. -/
theorem Spans.zeroTurns (hpos : 0 < capacity) (h : file.Spans blocks chain) (len : Nat) :
    ZeroTurns capacity file blocks len (file.extendZeros blocks capacity len) := by
  obtain ⟨longer, stored, hfill, hedit⟩ := h.fillTail len
  have hroom := Chain.lastRoom_fillLast len chain
  have hrest : ZeroTurns capacity longer stored (len - min len chain.lastRoom)
      (file.extendZeros blocks capacity len) := by
    simp only [File.extendZeros, hfill]
    exact hedit.spans.zeroTurns_appendZeros hpos fun hleft => by omega
  by_cases hnone : min len chain.lastRoom = 0
  -- Nothing fits into the last block, so that filling it is no turn.
  · rw [h.fillTail_eq_self hnone, Prod.mk.injEq, Prod.mk.injEq] at hfill
    obtain ⟨-, rfl, rfl⟩ := hfill
    rwa [hnone] at hrest
  · exact .turned (by omega) ((h.zeroTurn_eq_fillTail (by omega) capacity len).trans hfill) hrest

end File

end Filestore
