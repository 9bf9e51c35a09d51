import Filestore.Proofs.Checked.File
import Filestore.Proofs.Stream.Read
import Filestore.Proofs.Stream.Write

/-!
# `Filestore.Proofs.Checked.Stream`: transfers that check what they rely on

The checked twins of writing and reading at a cursor. They check in every step that the cursor
names a block that is there, that its offset is no larger than what it is subtracted from, that a
write leaves no block shorter, and that the bytes can be counted.

A stream at rest is written and read without fault (`Resting.checkedWrite_eq`,
`Resting.checkedRead_eq`). The loops are followed as they are in `writeFrom_spec` and
`readFrom_spec`: every step leaves a stream that is ready for the next one. The fuel is part of
what is checked. A loop that ran out of it would be a fault here, so the equations also say that a
transfer ends by itself.

Room is asked for at the end of a write only (`Fits`). On the way there is at least as much,
because a write gives nothing back (`Grows`): it adds blocks, and it makes the file longer or
leaves its size. Reading needs no room.
-/

set_option autoImplicit false

namespace Filestore

namespace Stream

/-- Appends a block to the file and goes to its start, unless the file is at the limit. -/
def checkedEnterNewBlock (config : Config) (stream : Stream) :
    Except Fault (Except Error Unit × Stream) :=
  if config.atLimit stream.file.size then .ok (.error (tooLarge config stream.file), stream)
  else do
    let (result, file, blocks) ← stream.file.checkedAppendBlock stream.blocks config.blockSize
    match result with
    | .error e => .ok (.error e, ⟨file, blocks, stream.cursor⟩)
    | .ok id => .ok (.ok (), ⟨file, blocks, Cursor.inBlock id 0⟩)

/-- Gives a cursor without a block the first one, which an empty file gets now. -/
def checkedStartWriting (config : Config) (stream : Stream) :
    Except Fault (Except Error Unit × Stream) :=
  match stream.cursor.block with
  | some _ => .ok (.ok (), stream)
  | none =>
    match stream.file.head with
    | some head => .ok (.ok (), { stream with cursor := Cursor.inBlock head 0 })
    | none => stream.checkedEnterNewBlock config

/-- One step of writing `data`. The cursor has to be in a block that is there, at an offset within
the capacity and the bytes held, and a write may not shorten a block. -/
def checkedWriteStep (config : Config) (data : Bytes) (stream : Stream) : Except Fault WriteStep :=
  match stream.cursor.block with
  | none => .error .expired
  | some id => do
    let block ← stream.blocks.demand id
    let offset := stream.cursor.offset
    if offset = block.capacity then
      match block.next with
      | some next => .ok (.moved { stream with cursor := Cursor.inBlock next 0 })
      | none => do
        let (result, entered) ← stream.checkedEnterNewBlock config
        match result with
        | .error e => .ok (.refused e 0 entered)
        | .ok () => .ok (.moved entered)
    else do
      require (offset ≤ block.capacity) .underflow
      require (offset ≤ block.occupied) .underflow
      let count := allowance config stream.file block offset data
      if count = 0 then .ok (.refused (tooLarge config stream.file) 0 stream)
      else do
        let changed := block.writeAt offset (data.take count)
        require (block.occupied ≤ changed.occupied) .underflow
        let file ← stream.file.checkedGrow (changed.occupied - block.occupied)
        let next : Stream :=
          ⟨file, stream.blocks.set id changed, Cursor.inBlock id (offset + count)⟩
        if count < block.writeCount offset data then
          .ok (.refused (tooLarge config file) count next)
        else .ok (.stored count next)

/-- Writes `data`, after `count` bytes stored before. -/
def checkedWriteFrom (config : Config) : Nat → Nat → Bytes → Stream → Except Fault Written
  | _, count, [], stream => .ok ⟨none, count, stream⟩
  | 0, _, _ :: _, _ => .error .endless
  | fuel + 1, count, byte :: rest, stream => do
    let step ← stream.checkedWriteStep config (byte :: rest)
    match step with
    | .refused e more next => .ok ⟨some e, count + more, next⟩
    | .moved next => checkedWriteFrom config fuel count (byte :: rest) next
    | .stored more next =>
      checkedWriteFrom config fuel (count + more) ((byte :: rest).drop more) next

/-- Writes `data` at the cursor. -/
def checkedWrite (config : Config) (data : Bytes) (stream : Stream) : Except Fault Written := do
  let (result, started) ← stream.checkedStartWriting config
  match result with
  | .error e => .ok ⟨some e, 0, started⟩
  | .ok () => checkedWriteFrom config (2 * data.length + 2) 0 data started

/-- One step of reading at most `want` bytes. -/
def checkedReadStep (blocks : Slab Block) (want : Nat) (cursor : Cursor) : Except Fault ReadStep :=
  match cursor.block with
  | none => .error .expired
  | some id => do
    let block ← blocks.demand id
    if block.occupied ≤ cursor.offset then
      match block.next with
      | some next => .ok (.moved (Cursor.inBlock next 0))
      | none => .ok .ended
    else do
      require (cursor.offset ≤ block.occupied) .underflow
      let bytes := block.readAt cursor.offset want
      .ok (.copied bytes (Cursor.inBlock id (cursor.offset + bytes.length)))

/-- Reads at most `want` bytes, after the pieces `done`. -/
def checkedReadFrom (blocks : Slab Block) :
    Nat → Nat → List Bytes → Cursor → Except Fault (Except Error Bytes × Cursor)
  | _, 0, done, cursor => .ok (.ok done.reverse.flatten, cursor)
  | 0, _ + 1, _, _ => .error .endless
  | fuel + 1, want + 1, done, cursor => do
    let step ← checkedReadStep blocks (want + 1) cursor
    match step with
    | .refused e => .ok (.error e, cursor)
    | .ended => .ok (.ok done.reverse.flatten, cursor)
    | .moved next => checkedReadFrom blocks fuel (want + 1) done next
    | .copied bytes next =>
      checkedReadFrom blocks fuel (want + 1 - bytes.length) (bytes :: done) next

/-- Reads at most `want` bytes at the cursor. -/
def checkedRead (want : Nat) (stream : Stream) : Except Fault (Except Error Bytes × Cursor) :=
  match stream.cursor.block, stream.file.head with
  | none, none => .ok (.ok [], stream.cursor)
  | none, some head => checkedReadFrom stream.blocks (2 * want + 2) want [] (Cursor.inBlock head 0)
  | some _, _ => checkedReadFrom stream.blocks (2 * want + 2) want [] stream.cursor

section Room

/-- There are no more blocks than slots can have numbers, and no more bytes than can be counted.

- `len_le`: the blocks have slots.
- `size_lt`: the size fits in its word. -/
structure Fits (stream : Stream) : Prop where
  len_le : stream.blocks.len ≤ Slab.maxSlots
  size_lt : stream.file.size < File.maxSize

/-- The storage has no fewer blocks and the file no fewer bytes.

- `len_le`: no block was given back.
- `size_le`: no byte was dropped. -/
structure Grows (stream next : Stream) : Prop where
  len_le : stream.blocks.len ≤ next.blocks.len
  size_le : stream.file.size ≤ next.file.size

variable {config : Config} {stream next last : Stream} {fd : Nat}

/-- What fits after a growth fitted before: there were no more blocks and no more bytes then. -/
theorem Grows.fits (h : stream.Grows next) (hfits : next.Fits) : stream.Fits :=
  ⟨Nat.le_trans h.len_le hfits.len_le, Nat.lt_of_le_of_lt h.size_le hfits.size_lt⟩

/-- A stream that stays as it is only grows. -/
theorem Grows.refl (stream : Stream) : stream.Grows stream := ⟨Nat.le_refl _, Nat.le_refl _⟩

/-- Two growths, one after the other, are one. -/
theorem Grows.trans (h₁ : stream.Grows next) (h₂ : next.Grows last) : stream.Grows last :=
  ⟨Nat.le_trans h₁.len_le h₂.len_le, Nat.le_trans h₁.size_le h₂.size_le⟩

/-- The stream that a step of a write leaves. -/
def WriteStep.after : WriteStep → Stream
  | .stored _ next => next
  | .moved next => next
  | .refused _ _ next => next

/-- A new block only adds, and a file at the limit stays as it is. -/
theorem enterNewBlock_grows (config : Config) (stream : Stream) :
    stream.Grows (stream.enterNewBlock config).2 := by
  unfold enterNewBlock
  split
  · exact .refl stream
  · obtain ⟨hlen, hsize⟩ := stream.file.grows_appendBlock stream.blocks config.blockSize
    generalize stream.file.appendBlock stream.blocks config.blockSize = appended at hlen hsize ⊢
    obtain ⟨_ | id, longer, stored⟩ := appended <;> exact ⟨hlen, hsize⟩

/-- A step of a write only adds: it stores bytes, moves the cursor, perhaps into a new block, or
does nothing. -/
theorem writeStep_grows (config : Config) (fd : Nat) (data : Bytes) (stream : Stream) :
    stream.Grows (stream.writeStep config fd data).after := by
  unfold writeStep
  split
  · exact .refl stream
  split
  · exact .refl stream
  simp only
  split
  · split
    · exact ⟨Nat.le_refl _, Nat.le_refl _⟩
    · have hgrows := enterNewBlock_grows config stream
      split <;> rename_i hentered <;> rw [hentered] at hgrows <;> exact hgrows
  · split
    · exact .refl stream
    · split <;> exact ⟨Nat.le_of_eq (Slab.len_set _ _ _).symm, Nat.le_add_right _ _⟩

/-- A loop of writing only adds, since each of its steps does. -/
theorem writeFrom_grows (config : Config) (fd fuel count : Nat) (data : Bytes) (stream : Stream) :
    stream.Grows (writeFrom config fd fuel count data stream).stream := by
  induction fuel generalizing count data stream with
  | zero => cases data <;> exact .refl stream
  | succ fuel ih =>
    cases data with
    | nil => exact .refl stream
    | cons byte rest =>
      have hstep := writeStep_grows config fd (byte :: rest) stream
      simp only [writeFrom]
      generalize stream.writeStep config fd (byte :: rest) = step at hstep
      cases step with
      | refused e more next => exact hstep
      | moved next => exact hstep.trans (ih _ _ next)
      | stored more next => exact hstep.trans (ih _ _ next)

end Room

variable {config : Config} {stream : Stream} {chain : Chain} {pos fd : Nat} {data : Bytes}

section Writing

/-- A new block is entered without fault where there is room for it. -/
theorem checkedEnterNewBlock_eq (hspans : stream.file.Spans stream.blocks chain)
    (hsound : stream.blocks.Sound) (hfits : (stream.enterNewBlock config).2.Fits) :
    stream.checkedEnterNewBlock config = .ok (stream.enterNewBlock config) := by
  have hroom := hfits.len_le
  unfold enterNewBlock at hroom ⊢
  unfold checkedEnterNewBlock
  split
  · rfl
  · rename_i hlimit
    rw [if_neg hlimit] at hroom
    have happend : (stream.file.appendBlock stream.blocks config.blockSize).2.2.len
        ≤ Slab.maxSlots := by
      generalize stream.file.appendBlock stream.blocks config.blockSize = appended at hroom ⊢
      obtain ⟨_ | id, longer, stored⟩ := appended <;> exact hroom
    rw [hspans.checkedAppendBlock_eq hsound happend, ok_bind]
    generalize stream.file.appendBlock stream.blocks config.blockSize = appended
    obtain ⟨_ | id, longer, stored⟩ := appended <;> rfl

/-- A write starts without fault where there is room. It needs some only where the file has no
block yet. -/
theorem checkedStartWriting_eq (config : Config) (hspans : stream.file.Spans stream.blocks chain)
    (hsound : stream.blocks.Sound) (hfits : (stream.startWriting config).2.Fits) :
    stream.checkedStartWriting config = .ok (stream.startWriting config) := by
  unfold startWriting at hfits ⊢
  unfold checkedStartWriting
  cases hblock : stream.cursor.block with
  | some id => rfl
  | none =>
    rw [hblock] at hfits
    cases hhead : stream.file.head with
    | some head => rfl
    | none =>
      rw [hhead] at hfits
      exact checkedEnterNewBlock_eq hspans hsound hfits

/-- A step of a write from a ready stream is faultless where there is room for what it stores. The
cursor of such a stream is in a block of the chain, within its bytes. -/
theorem Ready.checkedWriteStep_eq (h : stream.Ready config chain pos)
    (hset : stream.cursor.block ≠ none) (hsound : stream.blocks.Sound) (fd : Nat) (data : Bytes)
    (hfits : (stream.writeStep config fd data).after.Fits) :
    stream.checkedWriteStep config data = .ok (stream.writeStep config fd data) := by
  -- The cursor is in a block of the chain, so the block is in storage and the offset within it.
  obtain ⟨front, id, block, back, offset, rfl, hcursor, hoffset, -, hblock, -⟩ :=
    h.exists_split hset
  have hcapacity : offset ≤ block.capacity := Nat.le_trans hoffset block.fits
  unfold writeStep at hfits ⊢
  unfold checkedWriteStep
  simp only [hcursor, Cursor.inBlock, hblock] at hfits ⊢
  simp only [Slab.demand_of hblock, ok_bind]
  split
  · rename_i hend
    simp only [hend, if_true] at hfits
    cases hnext : block.next with
    | some next => rfl
    | none =>
      rw [hnext] at hfits
      have hentered : (stream.enterNewBlock config).2.Fits := by
        simp only at hfits
        split at hfits <;> rename_i heq <;> rw [heq] <;> exact hfits
      rw [checkedEnterNewBlock_eq h.spans hsound hentered, ok_bind]
      obtain ⟨result, entered⟩ := stream.enterNewBlock config
      cases result <;> rfl
  · rename_i hinside
    simp only [hinside, if_false] at hfits
    simp only [require_of hcapacity, require_of hoffset, ok_bind]
    split
    · rfl
    · rename_i hsome
      simp only [hsome, if_false] at hfits
      generalize allowance config stream.file block offset data = count at hfits ⊢
      -- A write never makes a block shorter, so the number of new bytes is no negative one.
      have hlonger : block.occupied ≤ (block.writeAt offset (data.take count)).occupied := by
        rw [Block.occupied_writeAt hoffset]
        exact Nat.le_max_left _ _
      have hgrow := File.checkedGrow_eq (show (stream.file.grow
        ((block.writeAt offset (data.take count)).occupied - block.occupied)).size < File.maxSize by
          split at hfits <;> exact hfits.size_lt)
      simp only [require_of hlonger, hgrow, ok_bind]
      split <;> rfl

/-- The loop of a write is faultless where there is room for what it stores. The fuel pays two
steps for each byte and one more for a cursor at the end of a full block. -/
theorem checkedWriteFrom_eq {fuel : Nat} (count : Nat) (h : stream.Ready config chain pos)
    (hset : stream.cursor.block ≠ none) (hsound : stream.blocks.Sound)
    (hfuel : 2 * data.length + (if stream.cursor.offset = config.blockSize then 1 else 0) ≤ fuel)
    (hfits : (writeFrom config fd fuel count data stream).stream.Fits) :
    checkedWriteFrom config fuel count data stream
      = .ok (writeFrom config fd fuel count data stream) := by
  -- As in `writeFrom_spec`, whose bound on the fuel this is. The room that is there at the end was
  -- there for every step, since steps only add.
  induction fuel generalizing count data stream chain pos with
  | zero =>
    cases data with
    | nil => rfl
    | cons byte rest => simp at hfuel
  | succ fuel ih =>
    cases data with
    | nil => rfl
    | cons byte rest =>
      have hlawful := h.writeStep_lawful fd hset (List.cons_ne_nil byte rest)
      have hstep := h.checkedWriteStep_eq hset hsound fd (byte :: rest)
      simp only [writeFrom] at hfits ⊢
      unfold checkedWriteFrom
      generalize stream.writeStep config fd (byte :: rest) = step at hlawful hstep hfits ⊢
      cases step with
      | stored more next =>
        obtain ⟨hinside, hmore, hle, hset', -, chain', hadvance⟩ := hlawful
        have hlen := Nat.le_trans hle (config.admitted_le _ _)
        rw [if_neg hinside] at hfuel
        rw [hstep ((writeFrom_grows config fd fuel _ _ next).fits hfits), ok_bind]
        refine ih _ hadvance.ready hset' (hadvance.edit.exchange.sound hsound) ?_ hfits
        rw [List.length_drop]
        split <;> omega
      | moved next =>
        obtain ⟨hend, -, hset', hstart, chain', hadvance⟩ := hlawful
        have hne : ¬ 0 = config.blockSize := Nat.ne_of_lt config.blockSize_pos
        rw [if_pos hend] at hfuel
        rw [hstep ((writeFrom_grows config fd fuel _ _ next).fits hfits), ok_bind]
        refine ih _ hadvance.ready hset' (hadvance.edit.exchange.sound hsound) ?_ hfits
        rw [hstart, if_neg hne]
        omega
      | refused e more next =>
        rw [hstep hfits, ok_bind]

/-- A write to a resting stream is faultless where there is room for what it stores, be it short,
in full or refused. -/
theorem Resting.checkedWrite_eq (h : stream.Resting config chain pos)
    (hsound : stream.blocks.Sound) (hfits : (stream.write config fd data).stream.Fits) :
    stream.checkedWrite config data = .ok (stream.write config fd data) := by
  unfold Stream.write at hfits ⊢
  unfold checkedWrite
  have hstarted := checkedStartWriting_eq config h.spans hsound
  rcases h.startWriting_spec with ⟨hstart, -⟩ | ⟨started, chain', hstart, hadvance, hset, -⟩
  · rw [hstart] at hstarted hfits ⊢
    rw [hstarted hfits, ok_bind]
  · rw [hstart] at hstarted hfits ⊢
    simp only at hfits
    rw [hstarted ((writeFrom_grows config fd _ _ _ started).fits hfits), ok_bind]
    exact checkedWriteFrom_eq 0 hadvance.ready hset (hadvance.edit.exchange.sound hsound)
      (by split <;> omega) hfits

end Writing

section Reading

variable {file : File} {blocks : Slab Block} {cursor : Cursor} {want : Nat}

/-- A step of a read from a set cursor is faultless: its block is in the chain and its offset
within the block. -/
theorem checkedReadStep_eq (fd want : Nat) (hspans : file.Spans blocks chain)
    (hstands : chain.Stands cursor pos)
    (hset : cursor.block ≠ none) :
    checkedReadStep blocks want cursor = .ok (readStep blocks fd want cursor) := by
  cases hstands with
  | unset => exact absurd rfl hset
  | @inBlock front back id block offset hchain hoffset =>
    subst hchain
    have hblock : blocks.get? id = some block :=
      hspans.stored (id, block) (List.mem_append_right _ List.mem_cons_self)
    by_cases hend : block.occupied ≤ offset
    · simp only [checkedReadStep, readStep, Cursor.inBlock, Slab.demand_of hblock, ok_bind, hblock,
        hend, if_true]
      cases block.next <;> rfl
    · simp only [checkedReadStep, readStep, Cursor.inBlock, Slab.demand_of hblock, ok_bind, hblock,
        hend, if_false, require, hoffset, if_true]

/-- The loop of a read is faultless. The fuel pays two steps for each byte and one more for a
cursor that may have to move first. -/
theorem checkedReadFrom_eq (hspans : file.Spans blocks chain)
    (hfilled : ∀ entry ∈ chain, 0 < entry.2.occupied) {fuel : Nat} (done : List Bytes)
    (hstands : chain.Stands cursor pos) (hset : cursor.block ≠ none)
    (hfuel : 2 * want + (if cursor.offset = 0 then 0 else 1) ≤ fuel) :
    checkedReadFrom blocks fuel want done cursor =
      .ok (readFrom blocks fd fuel want done cursor) := by
  -- As in `readFrom_spec`, whose bound on the fuel this is. Nothing is stored, so there is always
  -- room.
  induction fuel generalizing want done cursor pos with
  | zero =>
    have hzero : want = 0 := by omega
    subst hzero
    rfl
  | succ fuel ih =>
    cases want with
    | zero => rfl
    | succ want =>
      have hlawful := readStep_lawful fd hspans hfilled hstands hset (Nat.succ_pos want)
      have hstep := checkedReadStep_eq fd (want + 1) hspans hstands hset
      simp only [readFrom]
      unfold checkedReadFrom
      rw [hstep, ok_bind]
      generalize readStep blocks fd (want + 1) cursor = step at hlawful ⊢
      cases step with
      | copied bytes next =>
        obtain ⟨hpos, hle, -, hset', hoffset, hstands'⟩ := hlawful
        exact ih _ hstands' hset' (by split <;> omega)
      | moved next =>
        obtain ⟨hoffset, hset', hstart, hstands'⟩ := hlawful
        rw [if_neg (Nat.pos_iff_ne_zero.mp hoffset)] at hfuel
        exact ih _ hstands' hset' (by rw [if_pos hstart]; omega)
      | ended => rfl
      | refused e => exact hlawful.elim

/-- A read from a resting stream is faultless, wherever its cursor stands and however much is
asked for. -/
theorem Resting.checkedRead_eq (h : stream.Resting config chain pos) (fd want : Nat) :
    stream.checkedRead want = .ok (stream.read fd want) := by
  have hchecked : stream.checkedRead want = stream.startReading.elim (.ok (.ok [], stream.cursor))
      (checkedReadFrom stream.blocks (2 * want + 2) want []) := by
    unfold checkedRead startReading
    cases stream.cursor.block with
    | some id => rfl
    | none => cases stream.file.head <;> rfl
  rw [hchecked, read_eq]
  rcases h.startReading_spec with ⟨hstart, -⟩ | ⟨start, hstart, hset, hstands, -⟩
  · rw [hstart]
    rfl
  · rw [hstart]
    exact checkedReadFrom_eq h.spans h.packed.filled [] hstands hset (by split <;> omega)

end Reading

end Stream

end Filestore
