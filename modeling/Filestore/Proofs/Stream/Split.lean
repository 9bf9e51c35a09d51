import Filestore.Proofs.Stream.Write

/-!
# `Filestore.Proofs.Stream.Split`: a write in two parts

Writing `data ++ more` is writing `data` and then, if all of it was stored, writing `more`
(`Resting.write_append_of_full`, `Resting.write_append_of_short`). The streams are equal to the
last detail: the second write finds the cursor where the loop of the one write would go on, and
the same blocks are appended in the same order.

`Stream.Writes` is a write without fuel: a derivation has one rule for each way a step may go, so
the induction is on the steps of the first write. Only a step that stores the last bytes of `data`
is not a step of the write of `data ++ more`. Where its block is full the next step is the first
one of `more`, and where there is room left the two are one step
(`Ready.writeStep_append_of_room`).

## Outline

* `Writes.unique` and `Ready.writes` tie the derivations to the loop with fuel.
* The section `Step` looks at one step with more bytes behind it. Inside a block, a step is
  `storeStep`, which puts the bytes that fit and that the limit admits; at the end of a block it
  does not look at the bytes at all (`Ready.writeStep_congr`).
* The section `Append` puts the steps together, by induction on the derivation, and takes care of
  how a write starts.
-/

set_option autoImplicit false

namespace Filestore

namespace Stream

/-- A write in as many steps as it takes. -/
inductive Writes (config : Config) (fd : Nat) : Bytes → Stream → Written → Prop where
  /-- Nothing is left to be written. -/
  | done (stream : Stream) : Writes config fd [] stream ⟨none, 0, stream⟩
  /-- A step ended the write. -/
  | refused {data : Bytes} {stream next : Stream} {error : Error} {count : Nat} (hdata : data ≠ [])
    (hstep : stream.writeStep config fd data = .refused error count next) :
    Writes config fd data stream ⟨some error, count, next⟩
  /-- A step moved the cursor, and the write went on. -/
  | moved {data : Bytes} {stream next : Stream} {written : Written} (hdata : data ≠ [])
    (hstep : stream.writeStep config fd data = .moved next)
    (hrest : Writes config fd data next written) : Writes config fd data stream written
  /-- A step stored bytes, and the write went on with the others. -/
  | stored {data : Bytes} {stream next : Stream} {count : Nat} {written : Written}
    (hdata : data ≠ []) (hstep : stream.writeStep config fd data = .stored count next)
    (hrest : Writes config fd (data.drop count) next written) :
    Writes config fd data stream { written with count := count + written.count }

variable {config : Config} {stream next : Stream} {chain : Chain} {pos fd count : Nat}
  {data more : Bytes} {written written' : Written} {error : Error}

/-- A write goes in one way only: each rule is for one outcome of the step, and the step is a
function. -/
theorem Writes.unique (h : Writes config fd data stream written)
    (h' : Writes config fd data stream written') : written = written' := by
  induction h generalizing written' with
  | done stream =>
    cases h' with
    | done => rfl
    | refused hdata | moved hdata | stored hdata => exact absurd rfl hdata
  | refused hdata hstep =>
    cases h' with
    | done => exact absurd rfl hdata
    | refused _ hstep' =>
      cases hstep.symm.trans hstep'
      rfl
    | moved _ hstep' | stored _ hstep' => cases hstep.symm.trans hstep'
  | moved hdata hstep _ ih =>
    cases h' with
    | done => exact absurd rfl hdata
    | moved _ hstep' hrest' =>
      cases hstep.symm.trans hstep'
      exact ih hrest'
    | refused _ hstep' | stored _ hstep' => cases hstep.symm.trans hstep'
  | stored hdata hstep _ ih =>
    cases h' with
    | done => exact absurd rfl hdata
    | stored _ hstep' hrest' =>
      cases hstep.symm.trans hstep'
      rw [ih hrest']
    | refused _ hstep' | moved _ hstep' => cases hstep.symm.trans hstep'

/-- The loop of a write takes the steps of the write, if its fuel does not run out. That it ran
out shows in its error, which is one that no step from a set cursor has. -/
theorem writes_writeFrom {fuel : Nat}
    (h : (writeFrom config fd fuel 0 data stream).error ≠ some (lostCursor fd)) :
    Writes config fd data stream (writeFrom config fd fuel 0 data stream) := by
  induction fuel generalizing data stream with
  | zero =>
    cases data with
    | nil => exact .done stream
    -- Here the fuel ran out with bytes left to write, and that is the error excluded.
    | cons byte rest => exact absurd rfl h
  | succ fuel ih =>
    cases data with
    | nil => exact .done stream
    | cons byte rest =>
      have hdata := List.cons_ne_nil byte rest
      simp only [writeFrom] at h ⊢
      cases hstep : stream.writeStep config fd (byte :: rest) with
      | refused error count next =>
        simp only [Nat.zero_add]
        exact .refused hdata hstep
      | moved next =>
        simp only [hstep] at h
        exact .moved hdata hstep (ih h)
      | stored count next =>
        simp only [hstep, Nat.zero_add] at h ⊢
        rw [writeFrom_eq_add] at h ⊢
        exact .stored hdata hstep (ih h)

/-- From a ready stream, the loop of a write takes the steps of the write, with fuel for two steps
a byte and one more. -/
theorem Ready.writes {fuel : Nat} (h : stream.Ready config chain pos)
    (hset : stream.cursor.block ≠ none) (hfuel : 2 * data.length + 1 ≤ fuel) :
    Writes config fd data stream (writeFrom config fd fuel 0 data stream) := by
  have hcomplete : (writeFrom config fd fuel 0 data stream).Complete config stream chain pos data :=
    writeFrom_spec h hset (by split <;> omega)
  refine writes_writeFrom ?_
  -- What the limit refuses is not what a lost cursor is refused for.
  rw [hcomplete.error_eq]
  split <;> rintro ⟨⟩

section Step

/-- A move leaves a ready stream at the same position, with its cursor set. -/
theorem Ready.ready_of_moved (h : stream.Ready config chain pos) (hset : stream.cursor.block ≠ none)
    (hdata : data ≠ []) (hstep : stream.writeStep config fd data = .moved next) :
    next.cursor.block ≠ none ∧ ∃ chain', next.Ready config chain' pos := by
  have hlawful := h.writeStep_lawful fd hset hdata
  rw [hstep] at hlawful
  obtain ⟨-, -, hset', -, chain', hadvance⟩ := hlawful
  exact ⟨hset', chain', hadvance.ready⟩

/-- A step moves only from the end of a block, where there is no room for another byte. -/
theorem Ready.offset_eq_of_moved (h : stream.Ready config chain pos)
    (hset : stream.cursor.block ≠ none) (hdata : data ≠ [])
    (hstep : stream.writeStep config fd data = .moved next) :
    stream.cursor.offset = config.blockSize := by
  have hlawful := h.writeStep_lawful fd hset hdata
  rw [hstep] at hlawful
  exact hlawful.1

/-- A step that stores bytes leaves a ready stream past them, with its cursor set. -/
theorem Ready.ready_of_stored (h : stream.Ready config chain pos)
    (hset : stream.cursor.block ≠ none) (hdata : data ≠ [])
    (hstep : stream.writeStep config fd data = .stored count next) :
    count ≤ data.length ∧ next.cursor.block ≠ none ∧
      ∃ chain', next.Ready config chain' (pos + count) := by
  have hlawful := h.writeStep_lawful fd hset hdata
  rw [hstep] at hlawful
  obtain ⟨-, -, hle, hset', -, chain', hadvance⟩ := hlawful
  exact ⟨Nat.le_trans hle (config.admitted_le _ _), hset', chain', hadvance.ready_of_admitted hle⟩

attribute [ext] Block

/-- Bytes stored right after others in a block are stored with them: the block is the same as
after one write of both. -/
theorem writeAt_writeAt {block : Block} {offset : Nat} (hoffset : offset ≤ block.occupied)
    (hfits : offset + data.length + more.length ≤ block.capacity) :
    (block.writeAt offset data).writeAt (offset + data.length) more
      = block.writeAt offset (data ++ more) := by
  have hlength : (data ++ more).length = data.length + more.length := List.length_append
  refine Block.ext ?_ rfl rfl rfl
  rw [bytes_writeAt (show _ ≤ (block.writeAt offset data).capacity from hfits),
    bytes_writeAt (by omega), bytes_writeAt (by omega), Bytes.splice_splice hoffset]

/-- The stream after `src` is stored at an offset in a block. -/
def put (stream : Stream) (id : BlockId) (block : Block) (offset : Nat) (src : Bytes) : Stream :=
  ⟨stream.file.grow ((block.writeAt offset src).occupied - block.occupied),
    stream.blocks.set id (block.writeAt offset src), Cursor.inBlock id (offset + src.length)⟩

/-- Bytes put right after others in a block are put there with them: the file has grown by as
much, and the slot is overwritten. -/
theorem put_put {id : BlockId} {block : Block} {offset : Nat} (hoffset : offset ≤ block.occupied)
    (hfits : offset + data.length + more.length ≤ block.capacity) :
    (stream.put id block offset data).put id (block.writeAt offset data) (offset + data.length) more
      = stream.put id block offset (data ++ more) := by
  have hfirst := Block.occupied_writeAt hoffset data
  have hlength : (data ++ more).length = data.length + more.length := List.length_append
  have hcount := block.writeCount_eq_min offset data
  have hsecond := Block.occupied_writeAt
    (show offset + data.length ≤ (block.writeAt offset data).occupied by omega) more
  have hmore : ∀ first second third : Nat, first ≤ second → second ≤ third →
      stream.file.size + (second - first) + (third - second)
        = stream.file.size + (third - first) := by omega
  rw [writeAt_writeAt hoffset hfits] at hsecond
  simp only [put, writeAt_writeAt hoffset hfits, Slab.set_set, File.grow, hlength,
    Nat.add_assoc offset]
  rw [hmore _ _ _ (by omega) (by omega)]

/-- The step that stores bytes in the block of the cursor: of those that fit there, the ones that
the limit admits at the position. Where that is not all of them, it ends the write. -/
def storeStep (config : Config) (stream : Stream) (id : BlockId) (block : Block) (pos : Nat)
    (data : Bytes) : WriteStep :=
  let chunk := min data.length (config.blockSize - stream.cursor.offset)
  let count := config.admitted pos chunk
  let next := stream.put id block stream.cursor.offset (data.take count)
  if count = 0 then .refused (tooLarge config stream.file) 0 stream
  else if count < chunk then .refused (tooLarge config stream.file) count next
  else .stored count next

/-- A step of a write that stored `count` bytes before. -/
def WriteStep.add (count : Nat) : WriteStep → WriteStep
  | .stored more next => .stored (count + more) next
  | .moved next => .moved next
  | .refused error more next => .refused error (count + more) next

/-- Where the limit admits all of the first bytes, it admits of more what it admits after them.
This is `Config.admitted_split` at the end of the first bytes. -/
theorem admitted_add {len : Nat} (hadmitted : config.admitted pos len = len) (rest : Nat) :
    config.admitted pos (len + rest) = len + config.admitted (pos + len) rest := by
  have hmono := config.admitted_mono pos (Nat.le_add_right len rest)
  rw [hadmitted] at hmono
  have hboth := config.admitted_split hmono
  rwa [Nat.add_sub_cancel_left] at hboth

/-- Storing more bytes in the room that is left is one step with storing the first ones, whether
the limit cuts them or not. -/
theorem storeStep_append {id : BlockId} {block : Block}
    (hoffset : stream.cursor.offset ≤ block.occupied)
    (hcapacity : block.capacity = config.blockSize)
    (hroom : stream.cursor.offset + data.length < config.blockSize) (hdata : data ≠ [])
    (hadmitted : config.admitted pos data.length = data.length) (hmore : more ≠ []) :
    stream.storeStep config id block pos (data ++ more)
      = ((stream.put id block stream.cursor.offset data).storeStep config id
          (block.writeAt stream.cursor.offset data) (pos + data.length) more).add data.length := by
  have hpos := List.length_pos_iff.mpr hdata
  have hmorePos := List.length_pos_iff.mpr hmore
  have hend : (stream.put id block stream.cursor.offset data).cursor.offset
      = stream.cursor.offset + data.length := rfl
  have hname : tooLarge config (stream.put id block stream.cursor.offset data).file
      = tooLarge config stream.file := rfl
  -- What fits of all bytes is the first ones and what fits of the others after them, and so is what
  -- the limit admits of that.
  have hchunk : min (data.length + more.length) (config.blockSize - stream.cursor.offset) =
      data.length + min more.length (config.blockSize - (stream.cursor.offset + data.length)) := by
    omega
  simp only [storeStep, List.length_append, hend, hname, hchunk]
  generalize hrest : min more.length _ = rest
  have hle := config.admitted_le (pos + data.length) rest
  rw [admitted_add hadmitted, List.take_length_add_append]
  generalize config.admitted (pos + data.length) rest = count at hle ⊢
  have hput : (stream.put id block stream.cursor.offset data).put id
      (block.writeAt stream.cursor.offset data) (stream.cursor.offset + data.length)
      (more.take count) = stream.put id block stream.cursor.offset (data ++ more.take count) := by
    refine put_put hoffset ?_
    rw [List.length_take]
    omega
  rw [hput, if_neg (show ¬ data.length + count = 0 by omega)]
  by_cases hzero : count = 0
  · rw [if_pos (show data.length + count < data.length + rest by omega), if_pos hzero, hzero,
      List.take_zero, List.append_nil]
    rfl
  · rw [if_neg hzero]
    by_cases hless : count < rest
    · rw [if_pos (show data.length + count < data.length + rest by omega), if_pos hless]
      rfl
    · rw [if_neg (show ¬ data.length + count < data.length + rest by omega), if_neg hless]
      rfl

/-- At the end of a block, the step does not look at the bytes: it moves, or is refused at the
limit. -/
theorem Ready.writeStep_congr (h : stream.Ready config chain pos)
    (hset : stream.cursor.block ≠ none) (hend : stream.cursor.offset = config.blockSize)
    (data more : Bytes) : stream.writeStep config fd data = stream.writeStep config fd more := by
  obtain ⟨front, id, block, back, offset, -, hcursor, -, -, hblock, hcapacity⟩ :=
    h.exists_split hset
  rw [hcursor] at hend
  have hcap : offset = block.capacity := hend.trans hcapacity.symm
  simp only [writeStep, hcursor, Cursor.inBlock, hblock, if_pos hcap]

/-- Before the end of a block, the step stores bytes there, which ones does not matter to where. -/
theorem Ready.writeStep_eq (h : stream.Ready config chain pos) (hset : stream.cursor.block ≠ none)
    (hroom : stream.cursor.offset ≠ config.blockSize) (fd : Nat) :
    ∃ id block, stream.cursor.block = some id ∧ stream.blocks.get? id = some block ∧
      block.capacity = config.blockSize ∧ stream.cursor.offset ≤ block.occupied ∧
      ∀ data, stream.writeStep config fd data = stream.storeStep config id block pos data := by
  obtain ⟨front, id, block, back, offset, rfl, hcursor, hoffset, rfl, hblock, hcapacity⟩ :=
    h.exists_split hset
  rw [hcursor] at hroom
  have hinside : offset ≠ block.capacity := fun heq => hroom (heq.trans hcapacity)
  rw [hcursor]
  refine ⟨id, block, rfl, hblock, hcapacity, hoffset, ?_⟩
  intro data
  have hchunk := block.writeCount_eq_min offset data
  rw [hcapacity] at hchunk
  have hle := config.admitted_le (front.contents.length + offset) (block.writeCount offset data)
  -- As many bytes as are admitted are there to be taken.
  have htake : (data.take (config.admitted (front.contents.length + offset)
      (block.writeCount offset data))).length
      = config.admitted (front.contents.length + offset) (block.writeCount offset data) := by
    rw [List.length_take]
    omega
  simp only [writeStep, storeStep, put, hcursor, Cursor.inBlock, hblock, if_neg hinside,
    h.allowance_eq hoffset, ← hchunk, htake]
  rfl

/-- What more bytes there are, the step that ended the write of the first ones is the same: the
limit has no room for more. -/
theorem Ready.writeStep_append_of_refused (h : stream.Ready config chain pos)
    (hset : stream.cursor.block ≠ none) (hdata : data ≠ [])
    (hstep : stream.writeStep config fd data = .refused error count next) (more : Bytes) :
    stream.writeStep config fd (data ++ more) = .refused error count next := by
  by_cases hend : stream.cursor.offset = config.blockSize
  · rw [h.writeStep_congr hset hend (data ++ more) data, hstep]
  · obtain ⟨id, block, -, -, hcapacity, hoffset, hstepEq⟩ := h.writeStep_eq hset hend fd
    have hfits := block.fits
    have hpos := List.length_pos_iff.mpr hdata
    rw [hstepEq] at hstep ⊢
    simp only [Block.occupied] at hoffset
    simp only [storeStep, List.length_append] at hstep ⊢
    generalize hchunk : min data.length (config.blockSize - stream.cursor.offset) = chunk at hstep
    generalize hlonger : min (data.length + more.length) _ = longer
    have hle : chunk ≤ longer := by omega
    -- The limit did not admit all that fits, and so it admits no more of more bytes.
    have hless : config.admitted pos chunk < chunk := by
      split at hstep
      · omega
      split at hstep
      · assumption
      · cases hstep
    have htake : (data ++ more).take (config.admitted pos chunk)
        = data.take (config.admitted pos chunk) := List.take_append_of_le_length (by omega)
    rw [Config.admitted_of_lt hle hless, htake, if_pos (Nat.lt_of_lt_of_le hless hle), ← hstep,
      if_pos hless]

/-- A step that moves does so whatever the bytes are, since it is at the end of a block. -/
theorem Ready.writeStep_of_moved (h : stream.Ready config chain pos)
    (hset : stream.cursor.block ≠ none) (hdata : data ≠ [])
    (hstep : stream.writeStep config fd data = .moved next) (more : Bytes) :
    stream.writeStep config fd more = .moved next := by
  rw [h.writeStep_congr hset (h.offset_eq_of_moved hset hdata hstep) more data, hstep]

/-- A step that stores bytes stores all that fit in the block of the cursor, all of which the
limit admits. -/
theorem Ready.exists_put (h : stream.Ready config chain pos) (hset : stream.cursor.block ≠ none)
    (hdata : data ≠ []) (hstep : stream.writeStep config fd data = .stored count next) :
    ∃ id block, stream.blocks.get? id = some block ∧ block.capacity = config.blockSize ∧
      stream.cursor.offset ≤ block.occupied ∧
      (∀ other, stream.writeStep config fd other = stream.storeStep config id block pos other) ∧
      count = min data.length (config.blockSize - stream.cursor.offset) ∧
      config.admitted pos count = count ∧ 0 < count ∧
      next = stream.put id block stream.cursor.offset (data.take count) := by
  have hlawful := h.writeStep_lawful fd hset hdata
  rw [hstep] at hlawful
  obtain ⟨hend, hpos, -⟩ := hlawful
  obtain ⟨id, block, -, hblock, hcapacity, hoffset, hstepEq⟩ := h.writeStep_eq hset hend fd
  refine ⟨id, block, hblock, hcapacity, hoffset, hstepEq, ?_⟩
  rw [hstepEq] at hstep
  simp only [storeStep] at hstep
  split at hstep
  · cases hstep
  split at hstep
  · cases hstep
  · rename_i hall
    have hadmitted := Nat.le_antisymm (config.admitted_le pos _) (Nat.le_of_not_lt hall)
    rw [hadmitted] at hstep
    cases hstep
    exact ⟨rfl, hadmitted, hpos, rfl⟩

/-- A step that fills its block stores the same bytes whatever bytes come after, because no more
fit. -/
theorem Ready.writeStep_append_of_full (h : stream.Ready config chain pos)
    (hset : stream.cursor.block ≠ none) (hdata : data ≠ [])
    (hstep : stream.writeStep config fd data = .stored count next)
    (hfull : next.cursor.offset = config.blockSize) (more : Bytes) :
    stream.writeStep config fd (data ++ more) = .stored count next := by
  obtain ⟨id, block, -, -, -, hstepEq, hcount, hadmitted, hpos, rfl⟩ :=
    h.exists_put hset hdata hstep
  replace hfull : stream.cursor.offset + (data.take count).length = config.blockSize := hfull
  rw [List.length_take] at hfull
  have hchunk : min (data.length + more.length) (config.blockSize - stream.cursor.offset) = count :=
    by omega
  have htake : (data ++ more).take count = data.take count :=
    List.take_append_of_le_length (by omega)
  simp only [hstepEq, storeStep, List.length_append, hchunk, hadmitted, htake,
    if_neg (Nat.pos_iff_ne_zero.mp hpos), if_neg (Nat.lt_irrefl count)]

/-- A step that leaves room in its block has stored all bytes. -/
theorem Ready.eq_length_of_stored (h : stream.Ready config chain pos)
    (hset : stream.cursor.block ≠ none) (hdata : data ≠ [])
    (hstep : stream.writeStep config fd data = .stored count next)
    (hroom : next.cursor.offset ≠ config.blockSize) : count = data.length := by
  obtain ⟨id, block, -, hcapacity, hoffset, -, hcount, -, -, rfl⟩ := h.exists_put hset hdata hstep
  replace hroom : stream.cursor.offset + (data.take count).length ≠ config.blockSize := hroom
  have hfits := block.fits
  simp only [Block.occupied] at hoffset
  rw [List.length_take] at hroom
  omega

/-- Where a step has stored all bytes and left room in its block, the first step for more bytes is
one with it. -/
theorem Ready.writeStep_append_of_room (h : stream.Ready config chain pos)
    (hset : stream.cursor.block ≠ none) (hdata : data ≠ [])
    (hstep : stream.writeStep config fd data = .stored count next)
    (hroom : next.cursor.offset ≠ config.blockSize) (hmore : more ≠ []) :
    stream.writeStep config fd (data ++ more) = (next.writeStep config fd more).add count := by
  obtain rfl := h.eq_length_of_stored hset hdata hstep hroom
  obtain ⟨-, hset', chain', hready⟩ := h.ready_of_stored hset hdata hstep
  obtain ⟨id', block', hid, hblock', -, -, hnextEq⟩ := hready.writeStep_eq hset' hroom fd
  obtain ⟨id, block, hblock, hcapacity, hoffset, hstepEq, hcount, hadmitted, -, hnext⟩ :=
    h.exists_put hset hdata hstep
  rw [List.take_length] at hnext
  subst hnext
  -- The second step is in the block that the first one has changed.
  obtain rfl : id = id' := Option.some.inj hid
  obtain rfl := Option.some.inj ((Slab.get?_set_self hblock _).symm.trans hblock')
  replace hroom : stream.cursor.offset + data.length ≠ config.blockSize := hroom
  have hfits := block.fits
  simp only [Block.occupied] at hoffset
  rw [hstepEq, hnextEq]
  exact storeStep_append hoffset hcapacity (by omega) hdata hadmitted hmore

end Step

section Append

/-- A write that was refused is refused alike with more bytes after it: every step of it is a step
of the longer write. -/
theorem Ready.writes_append_of_refused (h : stream.Ready config chain pos)
    (hset : stream.cursor.block ≠ none) (hrun : Writes config fd data stream written)
    (herror : written.error ≠ none) (more : Bytes) :
    Writes config fd (data ++ more) stream written := by
  -- No step of the write stores the last bytes, so each is one of the longer write too.
  induction hrun generalizing chain pos with
  | done => exact absurd rfl herror
  | refused hdata hstep =>
    exact .refused (List.append_ne_nil_of_left_ne_nil hdata more)
      (h.writeStep_append_of_refused hset hdata hstep more)
  | @moved data stream next written hdata hstep _ ih =>
    obtain ⟨hset', chain', hready⟩ := h.ready_of_moved hset hdata hstep
    exact .moved (List.append_ne_nil_of_left_ne_nil hdata more)
      (h.writeStep_of_moved hset hdata hstep (data ++ more)) (ih hready hset' herror)
  | @stored data stream next count written hdata hstep hrest ih =>
    obtain ⟨hle, hset', chain', hready⟩ := h.ready_of_stored hset hdata hstep
    have hfull : next.cursor.offset = config.blockSize := by
      refine Decidable.byContradiction fun hroom => ?_
      rw [h.eq_length_of_stored hset hdata hstep hroom, List.drop_length] at hrest
      cases hrest with
      | done => exact herror rfl
      | refused hdata | moved hdata | stored hdata => exact absurd rfl hdata
    refine .stored (List.append_ne_nil_of_left_ne_nil hdata more)
      (h.writeStep_append_of_full hset hdata hstep hfull more) ?_
    rw [List.drop_append_of_le_length hle]
    exact ih hready hset' herror

/-- Where a step has stored all of the first bytes and its block has room, the write of the others
starts in that step. -/
theorem Ready.writes_append_of_room (h : stream.Ready config chain pos)
    (hset : stream.cursor.block ≠ none) (hdata : data ≠ [])
    (hstep : stream.writeStep config fd data = .stored data.length next)
    (hroom : next.cursor.offset ≠ config.blockSize)
    (hmore : Writes config fd more next written') :
    Writes config fd (data ++ more) stream
      { written' with count := data.length + written'.count } := by
  have hne := List.append_ne_nil_of_left_ne_nil hdata more
  have hfirst := fun hmore : more ≠ [] => h.writeStep_append_of_room hset hdata hstep hroom hmore
  cases hmore with
  | done =>
    rw [List.append_nil]
    exact .stored hdata hstep (List.drop_length.symm ▸ .done next)
  | refused hne' hstep' =>
    refine .refused hne ?_
    rw [hfirst hne', hstep']
    rfl
  -- A step moves on only from the end of a block, and this block has room.
  | moved hne' hstep' =>
    obtain ⟨-, hset', chain', hready⟩ := h.ready_of_stored hset hdata hstep
    exact absurd (hready.offset_eq_of_moved hset' hne' hstep') hroom
  | @stored _ _ last count written'' hne' hstep' hrest' =>
    have hboth : stream.writeStep config fd (data ++ more)
        = .stored (data.length + count) last := by
      rw [hfirst hne', hstep']
      rfl
    have hwrites := Writes.stored hne hboth ((List.drop_length_add_append count).symm ▸ hrest')
    rwa [Nat.add_assoc] at hwrites

/-- A write of more bytes goes on where the one of the first bytes ended. -/
theorem Ready.writes_append (h : stream.Ready config chain pos)
    (hset : stream.cursor.block ≠ none) (hrun : Writes config fd data stream written)
    (herror : written.error = none) (hmore : Writes config fd more written.stream written') :
    Writes config fd (data ++ more) stream
      { written' with count := written.count + written'.count } := by
  induction hrun generalizing chain pos with
  | done =>
    simp only [Nat.zero_add]
    exact hmore
  | refused => cases herror
  | @moved data stream next written hdata hstep _ ih =>
    obtain ⟨hset', chain', hready⟩ := h.ready_of_moved hset hdata hstep
    exact .moved (List.append_ne_nil_of_left_ne_nil hdata more)
      (h.writeStep_of_moved hset hdata hstep (data ++ more)) (ih hready hset' herror hmore)
  | @stored data stream next count written hdata hstep hrest ih =>
    obtain ⟨hle, hset', chain', hready⟩ := h.ready_of_stored hset hdata hstep
    by_cases hfull : next.cursor.offset = config.blockSize
    · have hboth := ih hready hset' herror hmore
      rw [← List.drop_append_of_le_length hle] at hboth
      have hwrites := Writes.stored (List.append_ne_nil_of_left_ne_nil hdata more)
        (h.writeStep_append_of_full hset hdata hstep hfull more) hboth
      rwa [← Nat.add_assoc] at hwrites
    · -- All of the first bytes are stored, and their block has room for the next ones.
      obtain rfl := h.eq_length_of_stored hset hdata hstep hfull
      rw [List.drop_length] at hrest
      obtain rfl := hrest.unique (.done next)
      exact h.writes_append_of_room hset hdata hstep hfull hmore

/-- A write from rest is refused at once, whatever the bytes are, or it is one from a ready stream
with a set cursor, the same one for all bytes. -/
theorem Resting.write_cases (h : stream.Resting config chain pos) (fd : Nat) :
    (∃ error, ∀ data, stream.write config fd data = ⟨some error, 0, stream⟩) ∨
      ∃ started chain', started.Ready config chain' pos ∧ started.cursor.block ≠ none ∧
        ∀ data, Writes config fd data started (stream.write config fd data) := by
  unfold Stream.write
  rcases h.startWriting_spec with ⟨hstart, -⟩ | ⟨started, chain', hstart, hadvance, hset, -⟩
  · rw [hstart]
    exact .inl ⟨tooLarge config stream.file, fun _ => rfl⟩
  · rw [hstart]
    have hready : started.Ready config chain' pos := hadvance.ready
    exact .inr ⟨started, chain', hready, hset, fun data => hready.writes hset (Nat.le_succ _)⟩

/-- A stream that is past the start of a block is written to where it is, without a start to be
found. -/
theorem Resting.writes_of_offset_pos (h : stream.Resting config chain pos)
    (hoffset : 0 < stream.cursor.offset) (fd : Nat) (data : Bytes) :
    Writes config fd data stream (stream.write config fd data) := by
  have hset := h.stands.block_ne_none hoffset
  obtain ⟨id, hid⟩ := Option.ne_none_iff_exists'.mp hset
  have hstart : stream.startWriting config = (.ok (), stream) := by
    simp only [startWriting, hid]
  simp only [Stream.write, hstart]
  exact h.ready.writes hset (Nat.le_succ _)

/-- A write that stores all of some bytes is part of the write of those and more: what is left of
that one is a write of the others. -/
theorem Resting.write_append_of_full (h : stream.Resting config chain pos) (hdata : data ≠ [])
    (fd : Nat) (hfull : (stream.write config fd data).error = none) (more : Bytes) :
    stream.write config fd (data ++ more) =
      { (stream.write config fd data).stream.write config fd more with
        count := data.length
          + ((stream.write config fd data).stream.write config fd more).count } := by
  have hcomplete := h.write_complete hdata fd
  have hcount : (stream.write config fd data).count = data.length := by
    have herror := hcomplete.error_eq
    have hle := hcomplete.count_eq ▸ config.admitted_le pos data.length
    rw [hfull] at herror
    split at herror
    · cases herror
    · omega
  have hpos := hcomplete.offset_pos (by rw [hcount]; exact List.length_pos_iff.mpr hdata)
  obtain ⟨chain', -, -, -, hrest⟩ := hcomplete.resting h
  rcases h.write_cases fd with ⟨error, hrefused⟩ | ⟨started, chain'', hready, hset, hwrites⟩
  · rw [hrefused] at hfull
    cases hfull
  · -- The two writes make one run of steps, and so does the write of all; there is only one.
    have hboth := hready.writes_append hset (hwrites data) hfull
      (hrest.writes_of_offset_pos hpos fd more)
    rw [hcount] at hboth
    exact (hwrites (data ++ more)).unique hboth

/-- A write that stores not all of some bytes stores no more of those and more, and leaves the
same stream. -/
theorem Resting.write_append_of_short (h : stream.Resting config chain pos)
    (hshort : (stream.write config fd data).error ≠ none) (more : Bytes) :
    stream.write config fd (data ++ more) = stream.write config fd data := by
  rcases h.write_cases fd with ⟨error, hrefused⟩ | ⟨started, chain', hready, hset, hwrites⟩
  · rw [hrefused, hrefused]
  · exact (hwrites (data ++ more)).unique
      (hready.writes_append_of_refused hset (hwrites data) hshort more)

end Append

end Stream

end Filestore
