import Filestore.Proofs.Stream.Ready

/-!
# `Filestore.Proofs.Stream.WriteStep`: what one step of a write does

`WriteStep.Lawful` says everything that one step of a write may do to a ready stream: store bytes
in the block of the cursor, move from the end of that block to the next one, or end the write at
the limit. `Ready.writeStep_lawful` is that every step from a ready stream is one of these, with a
ready stream after it.

The cases are those of the place of the cursor. At the end of a block that another one follows,
the step moves there (`Ready.writeStep_to_next`). At the end of the last block it appends one and
moves there, or is refused at the limit (`Ready.writeStep_at_tail`, `enterNewBlock_spec`). Inside
a block it stores bytes (`Ready.writeStep_inside`, `Ready.store`).

How many bytes go into a block is counted by the program in bytes that overwrite and bytes that
make the file longer. `Ready.allowance_eq` says that this is what the limit admits at the position
of the cursor: the bytes of a file before the cursor's block are as many as full blocks hold, and
behind the last byte of the last block there is nothing.
-/

set_option autoImplicit false

namespace Filestore

namespace Stream

variable {config : Config} {stream next : Stream} {chain chain' : Chain} {pos fd : Nat}
  {data : Bytes}

/-- At the limit no block is appended, and the write is refused with the stream as it was. -/
theorem enterNewBlock_of_atLimit (h : config.atLimit stream.file.size = true) :
    stream.enterNewBlock config = (.error (tooLarge config stream.file), stream) := by
  rw [enterNewBlock, if_pos h]

/-- Below the limit, full blocks get an empty one after them, and the cursor goes there. The
contents and the position stay what they are. -/
theorem enterNewBlock_spec (hspans : stream.file.Spans stream.blocks chain)
    (hpacked : chain.Packed config.blockSize)
    (hfull : ∀ entry ∈ chain, entry.2.occupied = config.blockSize)
    (hwithin : config.Admits stream.file.size) (hroom : config.atLimit stream.file.size = false) :
    ∃ next chain', stream.enterNewBlock config = (.ok (), next) ∧
      stream.file.Edit stream.blocks chain next.file next.blocks chain' ∧
      chain.ids <+: chain'.ids ∧ chain'.contents = chain.contents ∧
      next.Ready config chain' chain.contents.length ∧
      next.cursor.block ≠ none ∧ next.cursor.offset = 0 := by
  -- Of the new block only the capacity matters, and that it is empty and linked to nothing.
  generalize hempty : Block.ofCapacity config.blockSize = empty
  have hnext : empty.next = none := by rw [← hempty]; rfl
  obtain ⟨id, longer, stored, hlink, hedit⟩ := hspans.link hnext
  have hoccupied : empty.occupied = 0 := by rw [← hempty]; rfl
  have hbytes : empty.bytes = [] := by rw [← hempty]; rfl
  rw [hoccupied] at hedit
  have hentered : stream.enterNewBlock config
      = (.ok (), ⟨longer, stored, Cursor.inBlock id 0⟩) := by
    simp only [enterNewBlock, hroom, Bool.false_eq_true, if_false, File.appendBlock,
      Block.allocate_eq_ok config.blockSize_le_maxBuffer, hempty, hlink]
  have hcontents : (chain.push id empty).contents = chain.contents := by
    rw [Chain.contents_push, hbytes, List.append_nil]
  have hsize : longer.size = stream.file.size := by
    have := hedit.spans.size_eq
    rw [hcontents, ← hspans.size_eq] at this
    exact this
  refine ⟨⟨longer, stored, Cursor.inBlock id 0⟩, chain.push id empty, hentered, hedit, ?_,
    hcontents, ⟨hedit.spans, ?_, ?_, ?_, ?_⟩, Option.some_ne_none id, rfl⟩
  · rw [Chain.ids_push]
    exact List.prefix_append _ _
  · exact Chain.uniform_push hpacked.toUniform hfull id (by rw [← hempty]; rfl)
  · have hstands := Chain.stands_start (show chain.push id empty
      = chain.withNext (some id) ++ [(id, empty.linkPrev (chain.lastId none))] from rfl)
    rwa [Chain.contents_withNext] at hstands
  · show config.Admits longer.size
    rw [hsize]
    exact hwithin
  · -- The new block is the empty one that the cursor has just entered.
    intro entry hentry
    rcases Chain.mem_push hentry with rfl | ⟨old, hold, holdoccupied, -⟩
    · right
      refine ⟨rfl, ?_⟩
      show config.atLimit longer.size = false
      rw [hsize, hroom]
    · left
      rw [holdoccupied]
      exact hpacked.filled old hold

/-- A set cursor of a ready stream is at an offset in one of the blocks, which is in storage and
has the capacity that the settings say. -/
theorem Ready.exists_split (h : stream.Ready config chain pos) (hset : stream.cursor.block ≠ none) :
    ∃ (front : Chain) (id : BlockId) (block : Block) (back : Chain) (offset : Nat),
      chain = front ++ (id, block) :: back ∧ stream.cursor = Cursor.inBlock id offset ∧
      offset ≤ block.occupied ∧ pos = front.contents.length + offset ∧
      stream.blocks.get? id = some block ∧ block.capacity = config.blockSize := by
  have hstands := h.stands
  generalize hcursor : stream.cursor = cursor at hstands hset
  cases hstands with
  | unset => exact absurd rfl hset
  | @inBlock front back id block offset hchain hoffset =>
    have hmem : (id, block) ∈ chain := hchain ▸ List.mem_append_right _ List.mem_cons_self
    exact ⟨front, id, block, back, offset, hchain, rfl, hoffset, rfl, h.spans.stored _ hmem,
      h.uniform.capacity_eq _ hmem⟩

/-- What may go into a block is what the limit admits at the position of the cursor, of the bytes
that fit in the block. -/
theorem Ready.allowance_eq {front back : Chain} {id : BlockId} {block : Block} {offset : Nat}
    (h : stream.Ready config (front ++ (id, block) :: back) pos) (hoffset : offset ≤ block.occupied)
    (data : Bytes) :
    allowance config stream.file block offset data
      = config.admitted (front.contents.length + offset) (block.writeCount offset data) := by
  have hsize := h.spans.size_eq
  have hcapacity : block.capacity = config.blockSize :=
    h.uniform.capacity_eq _ (List.mem_append_right front List.mem_cons_self)
  have hchunk := block.writeCount_eq_min offset data
  rw [Chain.contents_append, List.length_append, Chain.length_contents_cons] at hsize
  simp only at hsize
  unfold allowance Config.admitted
  cases hlimit : config.sizeLimit with
  | none => rfl
  | some limit =>
    have hwithin := h.within limit hlimit
    simp only
    -- In the last block the file ends where the block does, so what goes past the one goes past the
    -- other.
    rcases List.eq_nil_or_concat back with rfl | ⟨_, _, hback⟩
    · simp only [Chain.contents_nil, List.length_nil] at hsize
      omega
    · -- A block before another one is full, so nothing in it goes past the end of the file.
      have hfull := h.uniform.full_of_ne_nil (by simp [hback])
      simp only at hfull
      omega

/-- A write that fits splices its bytes into the block: over what is there, and past its end. -/
theorem bytes_writeAt {block : Block} {offset : Nat} {src : Bytes}
    (hfits : offset + src.length ≤ block.capacity) :
    (block.writeAt offset src).bytes = block.bytes.splice offset src := by
  have haccepted : block.accepted offset src = src := by
    rw [Block.accepted, List.take_of_length_le (by omega)]
  show block.bytes.take offset ++ (block.accepted offset src).overwrite _ = _
  rw [haccepted, Bytes.overwrite_eq_append, List.drop_drop, Bytes.splice, List.append_assoc]

/-- A write that fits in a block splices its bytes into the chain. Past the end of its bytes it
can only be in the last block, so nothing behind it is pushed away. -/
theorem contents_writeAt {front back : Chain} {id : BlockId} {block : Block} {offset capacity : Nat}
    {src : Bytes} (huniform : Chain.Uniform capacity (front ++ (id, block) :: back))
    (hoffset : offset ≤ block.occupied) (hfits : offset + src.length ≤ block.capacity) :
    Chain.contents (front ++ (id, block.writeAt offset src) :: back)
      = (Chain.contents (front ++ (id, block) :: back)).splice (front.contents.length + offset)
          src := by
  have hcapacity : block.capacity = capacity :=
    huniform.capacity_eq _ (List.mem_append_right front List.mem_cons_self)
  rw [Chain.contents_append, Chain.contents_append, Chain.contents_cons, Chain.contents_cons,
    Bytes.splice_append src hoffset, bytes_writeAt hfits]
  rcases List.eq_nil_or_concat back with rfl | ⟨_, _, hback⟩
  · exact .inr rfl
  · -- A block before another one is full, so the write does not reach past it.
    have hfull := huniform.full_of_ne_nil (by simp [hback])
    simp only [Block.occupied] at hfull
    left
    omega

/-- The blocks that the cursor is not in hold bytes, since only the block of the cursor may be
empty. -/
theorem Ready.filled_of_ne (h : stream.Ready config chain pos) {id : BlockId} {offset : Nat}
    (hcursor : stream.cursor = Cursor.inBlock id offset) {entry : BlockId × Block}
    (hentry : entry ∈ chain) (hne : entry.1 ≠ id) : 0 < entry.2.occupied := by
  rcases h.filled entry hentry with hfilled | ⟨hat, -⟩
  · exact hfilled
  · rw [hcursor] at hat
    cases hat
    exact absurd rfl hne

/-- Bytes stored in the block of the cursor advance the stream past them, if they fit there and
end within the limit. -/
theorem Ready.store {front back : Chain} {id : BlockId} {block : Block} {offset : Nat}
    (h : stream.Ready config (front ++ (id, block) :: back) (front.contents.length + offset))
    (hcursor : stream.cursor = Cursor.inBlock id offset) (hoffset : offset ≤ block.occupied)
    (src : Bytes) (hfits : offset + src.length ≤ block.capacity) (hpos : 0 < src.length)
    (hwithin : config.Admits (front.contents.length + offset + src.length)) :
    Advance config stream (front ++ (id, block) :: back) (front.contents.length + offset) src
      ⟨stream.file.grow ((block.writeAt offset src).occupied - block.occupied),
        stream.blocks.set id (block.writeAt offset src), Cursor.inBlock id (offset + src.length)⟩
      (front ++ (id, block.writeAt offset src) :: back) := by
  have hcount : block.writeCount offset src = src.length := by
    rw [Block.writeCount, Block.accepted, List.take_of_length_le (by omega)]
  have hoccupied : (block.writeAt offset src).occupied
      = max block.occupied (offset + src.length) := by
    rw [Block.occupied_writeAt hoffset, hcount]
  have hmore : (block.writeAt offset src).occupied
      = block.occupied + ((block.writeAt offset src).occupied - block.occupied) := by omega
  have hedit := h.spans.replace (show (block.writeAt offset src).prev = block.prev from rfl) rfl
    hmore
  have hcontents := contents_writeAt h.uniform hoffset hfits
  -- The block was uniform before, and stays so with more bytes: it can only grow if it is the last.
  have hcapacity : block.capacity = config.blockSize :=
    h.uniform.capacity_eq _ (List.mem_append_right front List.mem_cons_self)
  refine ⟨hedit, by simp, hcontents, hedit.spans, ?_, ?_, ?_, ?_⟩
  · -- Only the last block may be short of its capacity, and it may only get fuller.
    exact h.uniform.replace rfl (by omega)
  · rw [Nat.add_assoc]
    exact .inBlock rfl (by omega)
  · -- The file ends where it did or where the bytes end, and both are within the limit.
    have hsize := hedit.spans.size_eq
    rw [hcontents, Bytes.length_splice h.le_length, ← h.spans.size_eq] at hsize
    intro limit hlimit
    have hold := h.within limit hlimit
    have hnew := hwithin limit hlimit
    show (stream.file.grow _).size ≤ limit
    omega
  · intro entry hentry
    -- The block of the cursor holds what was stored, and the others held bytes before.
    left
    rcases List.mem_append.mp hentry with hfront | hrest
    · exact h.filled_of_ne hcursor (List.mem_append_left _ hfront)
        (Chain.ne_of_nodup h.spans.nodup (.inl hfront))
    · rcases List.mem_cons.mp hrest with rfl | hback
      · rw [hoccupied]
        omega
      · exact h.filled_of_ne hcursor (List.mem_append_right _ (List.mem_cons_of_mem _ hback))
          (Chain.ne_of_nodup h.spans.nodup (.inr hback))

/-- A step that a write of `data` may take from a ready stream. -/
def WriteStep.Lawful (config : Config) (stream : Stream) (chain : Chain) (pos : Nat)
    (data : Bytes) : WriteStep → Prop
  | .stored count next =>
    stream.cursor.offset ≠ config.blockSize ∧
    0 < count ∧ count ≤ config.admitted pos data.length ∧
    next.cursor.block ≠ none ∧ 0 < next.cursor.offset ∧
    ∃ chain', Advance config stream chain pos (data.take count) next chain'
  | .moved next =>
    stream.cursor.offset = config.blockSize ∧ 0 < config.admitted pos data.length ∧
    next.cursor.block ≠ none ∧ next.cursor.offset = 0 ∧
    ∃ chain', Advance config stream chain pos [] next chain'
  | .refused error count next =>
    error = tooLarge config stream.file ∧
    count = config.admitted pos data.length ∧ count < data.length ∧
    (count = 0 → next = stream) ∧ (0 < count → 0 < next.cursor.offset) ∧
    ∃ chain', Advance config stream chain pos (data.take count) next chain'

/-- A write that is refused at once has stored nothing, moved nothing and complains about the
limit. -/
private theorem Ready.lawful_refused (h : stream.Ready config chain pos) (hdata : data ≠ [])
    (hzero : config.admitted pos data.length = 0) :
    (WriteStep.refused (tooLarge config stream.file) 0 stream).Lawful config stream chain pos
      data :=
  ⟨rfl, hzero.symm, List.length_pos_iff.mpr hdata, fun _ => rfl, fun hlt => absurd hlt (by simp),
    chain, by rw [List.take_zero]; exact h.advance_self⟩

/-- At the end of a block that another one follows, a write moves to that one, whatever the limit,
as it will overwrite what is there. -/
private theorem Ready.writeStep_to_next {front back : Chain} {id : BlockId} {block : Block}
    {entry : BlockId × Block}
    (h : stream.Ready config (front ++ (id, block) :: entry :: back)
      (front.contents.length + block.capacity))
    (hcursor : stream.cursor = Cursor.inBlock id block.capacity)
    (hfull : block.occupied = block.capacity) (hoffset : stream.cursor.offset = config.blockSize)
    (hnext : block.next = some entry.1) (hdata : data ≠ []) :
    (stream.writeStep config fd data).Lawful config stream (front ++ (id, block) :: entry :: back)
      (front.contents.length + block.capacity) data := by
  have hblock : stream.blocks.get? id = some block := h.spans.stored (id, block) (by simp)
  have hpacked := h.packed (by rw [hoffset]; exact config.blockSize_pos)
  have hsplit : front ++ (id, block) :: entry :: back
      = (front ++ [(id, block)]) ++ (entry.1, entry.2) :: back := by simp
  have hstands := Chain.stands_start hsplit
  rw [Chain.contents_append, List.length_append, Chain.length_contents_cons] at hstands
  simp only [Chain.contents_nil, List.length_nil, Nat.add_zero, hfull] at hstands
  simp only [writeStep, hcursor, Cursor.inBlock, hblock, if_pos, hnext]
  refine ⟨hoffset, ?_, Option.some_ne_none _, rfl, front ++ (id, block) :: entry :: back, ?_⟩
  · -- The next block holds a byte, so the position is before the end of the file.
    refine h.within.admitted_pos ?_ (List.length_pos_iff.mpr hdata)
    have hfilled := hpacked.filled entry (by simp)
    rw [h.spans.size_eq, Chain.contents_append, List.length_append, Chain.length_contents_cons,
      Chain.length_contents_cons]
    simp only
    omega
  · exact { h.advance_self with
      ready := Ready.of_packed h.spans hpacked h.within hstands }

/-- At the end of the last block, a write moves to a new one, or is refused at the limit. -/
private theorem Ready.writeStep_at_tail {front : Chain} {id : BlockId} {block : Block}
    (h : stream.Ready config (front ++ [(id, block)]) (front.contents.length + block.capacity))
    (hcursor : stream.cursor = Cursor.inBlock id block.capacity)
    (hfull : block.occupied = block.capacity) (hoffset : stream.cursor.offset = config.blockSize)
    (hnext : block.next = none) (hdata : data ≠ []) :
    (stream.writeStep config fd data).Lawful config stream (front ++ [(id, block)])
      (front.contents.length + block.capacity) data := by
  have hmem : (id, block) ∈ front ++ [(id, block)] := by simp
  have hblock : stream.blocks.get? id = some block := h.spans.stored _ hmem
  have hpacked := h.packed (by rw [hoffset]; exact config.blockSize_pos)
  have hlength : (Chain.contents (front ++ [(id, block)])).length
      = front.contents.length + block.capacity := by
    rw [Chain.contents_append, List.length_append, Chain.length_contents_cons, ← hfull]
    simp only [Chain.contents_nil, List.length_nil, Nat.add_zero]
  have hsize := h.spans.size_eq.trans hlength
  simp only [writeStep, hcursor, Cursor.inBlock, hblock, if_pos, hnext]
  cases hlimit : config.atLimit stream.file.size with
  | true =>
    rw [enterNewBlock_of_atLimit hlimit]
    exact h.lawful_refused hdata (hsize ▸ Config.admitted_of_atLimit hlimit _)
  | false =>
    -- The last block is full too, so a block may be linked to it.
    have hall : ∀ entry ∈ front ++ [(id, block)], entry.2.occupied = config.blockSize := by
      intro entry hentry
      rcases List.mem_append.mp hentry with hentry | hentry
      · exact h.uniform.full_of_append entry hentry
      · rw [List.mem_singleton.mp hentry, hfull]
        exact h.uniform.capacity_eq _ hmem
    obtain ⟨next, chain', hentered, hedit, hids, hcontents, hready, hset, hstart⟩ :=
      enterNewBlock_spec h.spans hpacked hall h.within hlimit
    rw [hentered]
    refine ⟨hoffset, ?_, hset, hstart, chain', hedit, hids, ?_, ?_⟩
    · rw [← hsize]
      exact Config.admitted_pos (List.length_pos_iff.mpr hdata)
        (Config.atLimit_eq_false_iff.mp hlimit)
    · rw [hcontents, Bytes.splice_nil]
    · rw [hlength] at hready
      exact hready

/-- At the end of a block, a write moves to the next one, or is refused where there is none and the
limit is reached. -/
private theorem Ready.writeStep_at_end {front back : Chain} {id : BlockId} {block : Block}
    (h : stream.Ready config (front ++ (id, block) :: back)
      (front.contents.length + block.capacity))
    (hcursor : stream.cursor = Cursor.inBlock id block.capacity)
    (hfull : block.occupied = block.capacity) (hdata : data ≠ []) :
    (stream.writeStep config fd data).Lawful config stream (front ++ (id, block) :: back)
      (front.contents.length + block.capacity) data := by
  have hoffset : stream.cursor.offset = config.blockSize := by
    rw [hcursor]
    exact h.uniform.capacity_eq _ (List.mem_append_right front List.mem_cons_self)
  have hjoined := h.spans.joined
  rw [Chain.joined_append] at hjoined
  obtain ⟨-, -, -, -, hback⟩ := hjoined
  cases back with
  | nil => exact h.writeStep_at_tail hcursor hfull hoffset hback hdata
  | cons entry rest => exact h.writeStep_to_next hcursor hfull hoffset hback.1 hdata

/-- Inside a block, a write stores what the limit admits of the bytes that fit, and is refused
where that is not all of them. -/
private theorem Ready.writeStep_inside {front back : Chain} {id : BlockId} {block : Block}
    {offset : Nat}
    (h : stream.Ready config (front ++ (id, block) :: back) (front.contents.length + offset))
    (hcursor : stream.cursor = Cursor.inBlock id offset) (hoffset : offset ≤ block.occupied)
    (hinside : offset ≠ block.capacity) (hdata : data ≠ []) :
    (stream.writeStep config fd data).Lawful config stream (front ++ (id, block) :: back)
      (front.contents.length + offset) data := by
  have hmem : (id, block) ∈ front ++ (id, block) :: back :=
    List.mem_append_right _ List.mem_cons_self
  have hcapacity : block.capacity = config.blockSize := h.uniform.capacity_eq _ hmem
  have hblock : stream.blocks.get? id = some block := h.spans.stored _ hmem
  have hnotEnd : stream.cursor.offset ≠ config.blockSize := by
    rw [hcursor, ← hcapacity]
    exact hinside
  have hfits : block.occupied ≤ block.capacity := block.fits
  have hchunk := block.writeCount_eq_min offset data
  have hlength := List.length_pos_iff.mpr hdata
  have hchunkLe : block.writeCount offset data ≤ data.length := by omega
  -- The limit is asked about the bytes that fit in the block. Where it admits all of those the
  -- write may go on, and where it does not, no more of the whole data are admitted.
  have hmono := config.admitted_mono (front.contents.length + offset) hchunkLe
  have hle := config.admitted_le (front.contents.length + offset) (block.writeCount offset data)
  have hshort := fun hlt : config.admitted (front.contents.length + offset)
    (block.writeCount offset data) < _ => Config.admitted_of_lt hchunkLe hlt
  simp only [writeStep, hcursor, Cursor.inBlock, hblock, if_neg hinside]
  rw [h.allowance_eq hoffset]
  generalize hcount : config.admitted (front.contents.length + offset)
    (block.writeCount offset data) = count at hmono hle hshort ⊢
  split
  · rename_i hzero
    subst hzero
    exact h.lawful_refused hdata (hshort (by omega))
  · rename_i hzero
    have htake : (data.take count).length = count := by
      rw [List.length_take]
      omega
    have hadvance := h.store hcursor hoffset (data.take count) (by omega) (by omega) (by
      rw [htake]
      exact h.admits.add hmono)
    rw [htake] at hadvance
    split
    · rename_i hless
      refine ⟨rfl, (hshort hless).symm, by omega, fun h => absurd h hzero, ?_, _, hadvance⟩
      intro _
      show 0 < offset + count
      omega
    · refine ⟨hnotEnd, by omega, hmono, Option.some_ne_none _, ?_, _, hadvance⟩
      show 0 < offset + count
      omega

/-- Every step of a write from a ready stream with a set cursor is lawful. This is all that the
loop needs to know of a step. -/
theorem Ready.writeStep_lawful (h : stream.Ready config chain pos) (fd : Nat)
    (hset : stream.cursor.block ≠ none) (hdata : data ≠ []) :
    (stream.writeStep config fd data).Lawful config stream chain pos data := by
  obtain ⟨front, id, block, back, offset, rfl, hcursor, hoffset, rfl, -, hcapacity⟩ :=
    h.exists_split hset
  by_cases hend : offset = block.capacity
  · subst hend
    exact h.writeStep_at_end hcursor (Nat.le_antisymm block.fits hoffset) hdata
  · exact h.writeStep_inside hcursor hoffset hend hdata

end Stream

end Filestore
