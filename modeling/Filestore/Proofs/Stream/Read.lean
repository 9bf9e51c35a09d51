import Filestore.Proofs.Stream.Ready

/-!
# `Filestore.Proofs.Stream.Read`: what a read does

`ReadStep.Lawful` says everything that one step of a read may do: copy bytes at the cursor, move
from the end of a block to the start of the next one, or come to the end of the file. From it,
`Resting.read_spec`: a read gives the bytes at the cursor, as many as are asked for or as there
are, and leaves the cursor past them. The stream is at rest again, since a read moves to the start
of a block only to copy a byte from there.

The loop is followed by induction on its fuel (`readFrom_spec`). A move comes after a step that is
past the start of a block and ends at a start, so it takes at most two steps to copy a byte, and
the fuel of `Stream.read` does not run out.

The last part is about reads that are asked for more bytes than there are
(`Resting.read_min_size`). Whether a read sets an unset cursor does not depend on how much it is
asked for, and everything else follows from `Resting.read_spec` and `Resting.cursor_unique`.
-/

set_option autoImplicit false

namespace Filestore

namespace Stream

variable {config : Config} {stream : Stream} {file : File} {blocks : Slab Block} {chain : Chain}
  {cursor : Cursor} {pos want : Nat}

/-- A step that a read of `want` bytes may take from a cursor at position `pos`. It never fails,
and it moves or ends only at the end of a block. -/
def ReadStep.Lawful (chain : Chain) (cursor : Cursor) (pos want : Nat) : ReadStep → Prop
  | .copied bytes next =>
    0 < bytes.length ∧ bytes.length ≤ want ∧
    (chain.contents.drop pos).take want
      = bytes ++ (chain.contents.drop (pos + bytes.length)).take (want - bytes.length) ∧
    next.block ≠ none ∧ 0 < next.offset ∧ chain.Stands next (pos + bytes.length)
  | .moved next =>
    0 < cursor.offset ∧ next.block ≠ none ∧ next.offset = 0 ∧ chain.Stands next pos
  | .ended => 0 < cursor.offset ∧ pos = chain.contents.length
  | .refused _ => False

/-- The bytes at a position inside a block are those of the block from there on, and then those of
the blocks after it. So what one step copies is the front of what the read gives. -/
private theorem take_drop_contents {front back : Chain} {id : BlockId} {block : Block}
    {offset : Nat} (hoffset : offset ≤ block.occupied) (want : Nat) :
    ((Chain.contents (front ++ (id, block) :: back)).drop
        (front.contents.length + offset)).take want
      = block.readAt offset want
        ++ ((Chain.contents (front ++ (id, block) :: back)).drop
          (front.contents.length + offset + (block.readAt offset want).length)).take
            (want - (block.readAt offset want).length) := by
  have hdrop : (Chain.contents (front ++ (id, block) :: back)).drop (front.contents.length + offset)
      = block.bytes.drop offset ++ Chain.contents back := by
    rw [Chain.contents_append, List.drop_length_add_append, Chain.contents_cons,
      List.drop_append_of_le_length hoffset]
  have hread : (block.readAt offset want).length = min want (block.bytes.drop offset).length := by
    rw [Block.readAt, List.length_take]
  have hfirst : (block.bytes.drop offset ++ back.contents).take (block.readAt offset want).length
      = block.readAt offset want := by
    rw [List.take_append_of_le_length (by omega), hread, ← List.take_take, List.take_length]
    rfl
  rw [← List.drop_drop (j := front.contents.length + offset), hdrop]
  conv => lhs; rw [← Nat.add_sub_of_le (show (block.readAt offset want).length ≤ want by omega)]
  rw [List.take_add, hfirst]

/-- Every step of a read from a set cursor is lawful, in a file whose blocks all hold bytes. -/
theorem readStep_lawful (fd : Nat) (hspans : file.Spans blocks chain)
    (hfilled : ∀ entry ∈ chain, 0 < entry.2.occupied) (hstands : chain.Stands cursor pos)
    (hset : cursor.block ≠ none) (hwant : 0 < want) :
    (readStep blocks fd want cursor).Lawful chain cursor pos want := by
  cases hstands with
  | unset => exact absurd rfl hset
  | @inBlock front back id block offset hchain hoffset =>
    subst hchain
    have hmem : (id, block) ∈ front ++ (id, block) :: back :=
      List.mem_append_right _ List.mem_cons_self
    have hblock : blocks.get? id = some block := hspans.stored _ hmem
    have hpos := hfilled _ hmem
    by_cases hend : block.occupied ≤ offset
    -- At the end of the block, the step depends on whether another block follows.
    · simp only [readStep, Cursor.inBlock, hblock, hend, if_true]
      have hoffset : offset = block.occupied := Nat.le_antisymm hoffset hend
      subst hoffset
      obtain ⟨-, -, -, -, hback⟩ := Chain.joined_append.mp hspans.joined
      cases back with
      | nil =>
        rw [show block.next = none from hback]
        refine ⟨hpos, ?_⟩
        rw [Chain.contents_append, List.length_append, Chain.length_contents_cons]
        rfl
      | cons entry rest =>
        obtain ⟨nextId, nextBlock⟩ := entry
        rw [hback.1]
        have hsplit : front ++ (id, block) :: (nextId, nextBlock) :: rest
            = (front ++ [(id, block)]) ++ (nextId, nextBlock) :: rest := by simp
        have hstands := Chain.stands_start hsplit
        rw [Chain.contents_append, List.length_append, Chain.length_contents_cons] at hstands
        simp only [Chain.contents_nil, List.length_nil, Nat.add_zero] at hstands
        exact ⟨hpos, Option.some_ne_none _, rfl, hstands⟩
    · simp only [readStep, Cursor.inBlock, hblock, hend, if_false]
      have hlength := block.length_readAt offset want
      refine ⟨by omega, by omega, take_drop_contents hoffset want, Option.some_ne_none _, ?_, ?_⟩
      · show 0 < offset + _
        omega
      · rw [Nat.add_assoc]
        exact .inBlock rfl (by omega)

/-- The loop of a read gives the bytes at the cursor. A step copies a byte, or moves to the start
of a block, where the step after it copies a byte; the fuel counts two for a byte and one for a
move. -/
theorem readFrom_spec (fd : Nat) (hspans : file.Spans blocks chain)
    (hfilled : ∀ entry ∈ chain, 0 < entry.2.occupied) {fuel : Nat}
    (hstands : chain.Stands cursor pos) (hset : cursor.block ≠ none)
    (hsettled : want = 0 → chain.Settled cursor)
    (hfuel : 2 * want + (if cursor.offset = 0 then 0 else 1) ≤ fuel) :
    ∃ next, readFrom blocks fd fuel want [] cursor
        = (.ok ((chain.contents.drop pos).take want), next) ∧
      chain.Stands next (pos + ((chain.contents.drop pos).take want).length) ∧
      chain.Settled next := by
  -- A wanted byte takes at most two steps: a move never follows a move, since it needs a cursor
  -- past the start of its block and leaves one at the start.
  induction fuel generalizing want cursor pos with
  | zero =>
    have hzero : want = 0 := by omega
    subst hzero
    exact ⟨cursor, rfl, hstands, hsettled rfl⟩
  | succ fuel ih =>
    cases want with
    | zero => exact ⟨cursor, rfl, hstands, hsettled rfl⟩
    | succ want =>
      have hstep := readStep_lawful fd hspans hfilled hstands hset (Nat.succ_pos want)
      simp only [readFrom]
      generalize readStep blocks fd (want + 1) cursor = step at hstep
      cases step with
      | copied bytes next =>
        obtain ⟨hpos, hle, hbytes, hset', hoffset, hstands'⟩ := hstep
        obtain ⟨last, hrest, hlast, hsettled'⟩ := ih hstands' hset'
          (fun (_ : want + 1 - bytes.length = 0) => Chain.settled_of_offset_pos hoffset)
          (by split <;> omega)
        refine ⟨last, ?_, ?_, hsettled'⟩
        · -- The bytes copied so far come before those of the rest of the loop.
          simp only
          rw [readFrom_eq_append, hrest, hbytes]
          simp [Except.map]
        · rwa [hbytes, List.length_append, ← Nat.add_assoc]
      | moved next =>
        obtain ⟨hoffset, hset', hstart, hstands'⟩ := hstep
        -- The fuel that the move takes is the one step granted to a cursor past a start.
        rw [if_neg (Nat.pos_iff_ne_zero.mp hoffset)] at hfuel
        exact ih hstands' hset' (by rintro ⟨⟩) (by rw [if_pos hstart]; omega)
      | ended =>
        obtain ⟨hoffset, hend⟩ := hstep
        rw [hend, List.drop_length, List.take_nil, List.length_nil, Nat.add_zero, ← hend]
        exact ⟨cursor, rfl, hstands, Chain.settled_of_offset_pos hoffset⟩
      | refused error => exact hstep.elim

/-- The cursor that the loop of a read starts from. An empty file that the cursor has not touched
is not read at all. -/
def startReading (stream : Stream) : Option Cursor :=
  match stream.cursor.block, stream.file.head with
  | none, none => none
  | none, some head => some (Cursor.inBlock head 0)
  | some _, _ => some stream.cursor

/-- A read is its loop, where there is a cursor to start from, and gives nothing otherwise. -/
theorem read_eq (stream : Stream) (fd want : Nat) :
    stream.read fd want = stream.startReading.elim (.ok [], stream.cursor)
      (readFrom stream.blocks fd (2 * want + 2) want []) := by
  unfold read startReading
  cases stream.cursor.block with
  | some id => rfl
  | none => cases stream.file.head <;> rfl

/-- From rest, a read starts from a set cursor at the same position, unless the file is empty and
was never touched. -/
theorem Resting.startReading_spec (h : stream.Resting config chain pos) :
    (stream.startReading = none ∧ chain = []) ∨
      ∃ start, stream.startReading = some start ∧ start.block ≠ none ∧ chain.Stands start pos ∧
        chain.Settled start := by
  obtain ⟨file, blocks, cursor⟩ := stream
  have hstands := h.stands
  have hsettled := h.settled
  simp only at hstands hsettled
  cases hstands with
  | inBlock hchain hoffset =>
    exact .inr ⟨_, rfl, Option.some_ne_none _, .inBlock hchain hoffset, hsettled⟩
  | unset =>
    cases chain with
    | nil =>
      left
      simp only [startReading, Cursor.unset, show file.head = none from h.spans.joined, true_and]
    | cons entry rest =>
      -- An unset cursor reads from the first block on, where it may be at the start.
      obtain ⟨id, block⟩ := entry
      obtain ⟨hhead, -, -⟩ := h.spans.joined
      have hstart := Chain.stands_start (List.nil_append ((id, block) :: rest)).symm
      refine .inr ⟨Cursor.inBlock id 0, ?_, Option.some_ne_none _, hstart, fun _ hid _ => hid⟩
      simp only [startReading, Cursor.unset, show file.head = some id from hhead]

/-- A read gives the bytes at the cursor, as many as are asked for or as there are, and leaves the
cursor past them, with the stream at rest. -/
theorem Resting.read_spec (h : stream.Resting config chain pos) (fd want : Nat) :
    ∃ next, stream.read fd want = (.ok ((chain.contents.drop pos).take want), next) ∧
      Resting config { stream with cursor := next } chain
        (pos + ((chain.contents.drop pos).take want).length) := by
  rw [read_eq]
  rcases h.startReading_spec with ⟨hstart, rfl⟩ | ⟨start, hstart, hset, hstands, hsettled⟩
  · rw [hstart]
    exact ⟨stream.cursor, by simp, by simpa using h⟩
  · rw [hstart]
    obtain ⟨next, hread, hnext, hsettled'⟩ := readFrom_spec fd h.spans h.packed.filled
      hstands hset (fun (_ : want = 0) => hsettled)
      (show 2 * want + (if start.offset = 0 then 0 else 1) ≤ 2 * want + 2 by split <;> omega)
    exact ⟨next, hread, h.spans, h.packed, h.within, hnext, hsettled'⟩

/-- A step of a read that goes elsewhere goes to a block, in any storage. -/
theorem readStep_block_ne_none {fd : Nat} {next : Cursor}
    (h : readStep blocks fd want cursor = .moved next ∨
      ∃ bytes, readStep blocks fd want cursor = .copied bytes next) : next.block ≠ none := by
  unfold readStep at h
  split at h
  · simp at h
  split at h
  · simp at h
  split at h
  · split at h
    · obtain rfl : Cursor.inBlock _ 0 = next := by simpa using h
      exact Option.some_ne_none _
    · simp at h
  · obtain rfl : Cursor.inBlock _ _ = next := by simpa using h
    exact Option.some_ne_none _

/-- The loop of a read leaves a set cursor set, however it ends. -/
theorem readFrom_block_ne_none (blocks : Slab Block) (fd fuel want : Nat) (done : List Bytes)
    (hset : cursor.block ≠ none) : (readFrom blocks fd fuel want done cursor).2.block ≠ none := by
  induction fuel generalizing want done cursor with
  | zero => cases want <;> exact hset
  | succ fuel ih =>
    cases want with
    | zero => exact hset
    | succ want =>
      simp only [readFrom]
      cases hstep : readStep blocks fd (want + 1) cursor with
      | refused => exact hset
      | ended => exact hset
      | moved next => exact ih _ _ (readStep_block_ne_none (.inl hstep))
      | copied bytes next => exact ih _ _ (readStep_block_ne_none (.inr ⟨bytes, hstep⟩))

/-- Whether a read leaves the cursor without a block does not depend on how much it is asked for,
only on whether it had one and whether the file has. -/
theorem read_block_eq_none_iff (stream : Stream) (fd want : Nat) :
    (stream.read fd want).2.block = none
      ↔ stream.cursor.block = none ∧ stream.file.head = none := by
  have hloop : ∀ start : Cursor, start.block ≠ none →
      (readFrom stream.blocks fd (2 * want + 2) want [] start).2.block ≠ none :=
    fun start => readFrom_block_ne_none stream.blocks fd _ want []
  unfold read
  cases hblock : stream.cursor.block with
  | some id =>
    exact iff_of_false (hloop _ (by simp [hblock])) fun hboth => nomatch hboth.1
  | none =>
    cases stream.file.head with
    | none => exact iff_of_true hblock ⟨rfl, rfl⟩
    | some head =>
      exact iff_of_false (hloop _ (Option.some_ne_none head)) fun hboth => nomatch hboth.2

/-- A read that is asked for more bytes than the file has is a read of as many as the file has,
wherever it starts: the same bytes, and the same cursor. -/
theorem Resting.read_min_size (h : stream.Resting config chain pos) (fd most : Nat) :
    stream.read fd (min stream.file.size most) = stream.read fd most := by
  obtain ⟨capped, hcapped, hcrest⟩ := h.read_spec fd (min stream.file.size most)
  obtain ⟨whole, hwhole, hwrest⟩ := h.read_spec fd most
  -- What is left of the file from the cursor on is no more than the whole of it.
  have hbytes : (chain.contents.drop pos).take (min stream.file.size most)
      = (chain.contents.drop pos).take most := by
    rw [Nat.min_comm, ← List.take_take, List.take_of_length_le
      (show (chain.contents.drop pos).length ≤ stream.file.size by
        rw [h.spans.size_eq, List.length_drop]; exact Nat.sub_le _ _)]
  rw [hbytes] at hcapped hcrest
  -- One loop may end for want of room and the other at the end of the file. Both leave a resting
  -- cursor at one position.
  have hcursor : capped = whole := by
    refine hcrest.cursor_unique hwrest ?_
    have hiff := stream.read_block_eq_none_iff fd (min stream.file.size most)
    have hiff' := stream.read_block_eq_none_iff fd most
    rw [hcapped] at hiff
    rw [hwhole] at hiff'
    exact hiff.trans hiff'.symm
  rw [hcapped, hwhole, hcursor]

end Stream

end Filestore
