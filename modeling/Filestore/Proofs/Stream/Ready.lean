import Filestore.Proofs.Bytes
import Filestore.Proofs.File.Extent
import Filestore.Stream

/-!
# `Filestore.Proofs.Stream.Ready`: the invariant of a write

`Stream.Ready` is what stays true in the loop of `Stream.writeFrom`: the file spans a uniform
chain within the size limit, the cursor stands in it at a known position, and a block is empty
only if the cursor has just entered it and the limit leaves it room. `Stream.Advance` relates two
streams of the loop: bytes were put over the contents at the cursor, and the cursor went past
them. Advances compose (`Advance.trans`).

Between calls a stream is `Stream.Resting`, which is more: no block is empty, and the cursor is at
the start of no block but the first. So its cursor is determined by its position, up to whether it
is set (`Resting.cursor_unique`). A write or a read in the middle of its loop may be at the start
of another block; `Ready.resting` is how it comes back to rest.

A write that goes to position `pos` may store `Config.admitted config pos len` of `len` bytes. The
lemmas about it are those of a minimum: what is admitted of more bytes is no less, and what is
admitted of a write is admitted in two parts (`Config.admitted_split`).
-/

set_option autoImplicit false

namespace Filestore

/-- The size is one that the settings allow. -/
def Config.Admits (config : Config) (size : Nat) : Prop :=
  ∀ limit, config.sizeLimit = some limit → size ≤ limit

/-- How many of `len` bytes the limit lets a write at a position store. -/
def Config.admitted (config : Config) (pos len : Nat) : Nat :=
  match config.sizeLimit with
  | none => len
  | some limit => min len (limit - pos)

/-- There can be a buffer of the size of a block, since settings with larger blocks are refused. -/
theorem Config.blockSize_le_maxBuffer (config : Config) : config.blockSize ≤ Block.maxBuffer := by
  have := config.blockSize_lt
  unfold Block.maxBuffer
  omega

/-- A file that is not at the limit has room for a byte, and one without a limit always has. -/
theorem Config.atLimit_eq_false_iff {config : Config} {size : Nat} :
    config.atLimit size = false ↔ ∀ limit, config.sizeLimit = some limit → size < limit := by
  unfold Config.atLimit
  cases config.sizeLimit with
  | none => simp
  | some limit => simp

/-- No more bytes are admitted than there are. -/
theorem Config.admitted_le (config : Config) (pos len : Nat) : config.admitted pos len ≤ len := by
  unfold Config.admitted
  split
  · exact Nat.le_refl _
  · exact Nat.min_le_left _ _

/-- All bytes are admitted that end within the limit. -/
theorem Config.admitted_of_admits {config : Config} {pos len : Nat}
    (h : config.Admits (pos + len)) : config.admitted pos len = len := by
  unfold Config.admitted
  split
  · rfl
  · rename_i limit hlimit
    have hle := h limit hlimit
    omega

/-- Of more bytes, no fewer are admitted at the same position. -/
theorem Config.admitted_mono (config : Config) (pos : Nat) {chunk len : Nat} (h : chunk ≤ len) :
    config.admitted pos chunk ≤ config.admitted pos len := by
  unfold Config.admitted
  split <;> omega

/-- Where not all bytes are admitted, no more of more bytes are: the limit is reached already. -/
theorem Config.admitted_of_lt {config : Config} {pos chunk len : Nat} (h : chunk ≤ len)
    (hlt : config.admitted pos chunk < chunk) :
    config.admitted pos len = config.admitted pos chunk := by
  unfold Config.admitted at hlt ⊢
  split at hlt <;> omega

/-- At the limit no byte is admitted, however many there are. -/
theorem Config.admitted_of_atLimit {config : Config} {size : Nat} (h : config.atLimit size = true)
    (len : Nat) : config.admitted size len = 0 := by
  unfold Config.atLimit at h
  unfold Config.admitted
  cases hlimit : config.sizeLimit with
  | none => simp [hlimit] at h
  | some limit =>
    simp only [hlimit, decide_eq_true_eq] at h ⊢
    omega

/-- A byte is admitted at a position that every limit leaves room after. -/
theorem Config.admitted_pos {config : Config} {pos len : Nat} (hlen : 0 < len)
    (hroom : ∀ limit, config.sizeLimit = some limit → pos < limit) :
    0 < config.admitted pos len := by
  unfold Config.admitted
  split
  · exact hlen
  · rename_i limit hlimit
    have := hroom limit hlimit
    omega

/-- A write of admitted bytes ends within the limit, if it starts there. -/
theorem Config.Admits.add {config : Config} {pos len count : Nat} (h : config.Admits pos)
    (hcount : count ≤ config.admitted pos len) : config.Admits (pos + count) := by
  intro limit hlimit
  have hpos := h limit hlimit
  unfold Config.admitted at hcount
  rw [hlimit] at hcount
  simp only at hcount
  omega

/-- A smaller size than an allowed one is allowed. -/
theorem Config.Admits.of_le {config : Config} {size size' : Nat} (h : config.Admits size)
    (hle : size' ≤ size) : config.Admits size' :=
  fun limit hlimit => Nat.le_trans hle (h limit hlimit)

/-- A byte is admitted before the end of a file of an allowed size, because that only overwrites. -/
theorem Config.Admits.admitted_pos {config : Config} {size pos len : Nat} (h : config.Admits size)
    (hpos : pos < size) (hlen : 0 < len) : 0 < config.admitted pos len :=
  Config.admitted_pos hlen fun limit hlimit => Nat.lt_of_lt_of_le hpos (h limit hlimit)

/-- What is admitted of a write is admitted in two parts: what was stored, and what is admitted of
the rest at the position after it. -/
theorem Config.admitted_split {config : Config} {pos len count : Nat}
    (hcount : count ≤ config.admitted pos len) :
    config.admitted pos len = count + config.admitted (pos + count) (len - count) := by
  unfold Config.admitted at hcount ⊢
  cases hlimit : config.sizeLimit with
  | none =>
    simp only [hlimit] at hcount ⊢
    omega
  | some limit =>
    simp only [hlimit] at hcount ⊢
    omega

namespace Stream

/-- The file spans a uniform chain within the limit, and the cursor stands in it.

- `spans`: the file lies in storage as the chain.
- `uniform`: every block but the last is full.
- `stands`: the cursor is in the chain, with `pos` bytes before it.
- `within`: the file is no larger than allowed.
- `filled`: a block is empty only if the cursor has just entered it and there is room for a byte. -/
structure Ready (config : Config) (stream : Stream) (chain : Chain) (pos : Nat) : Prop where
  spans : stream.file.Spans stream.blocks chain
  uniform : chain.Uniform config.blockSize
  stands : chain.Stands stream.cursor pos
  within : config.Admits stream.file.size
  filled : ∀ entry ∈ chain, 0 < entry.2.occupied ∨
    stream.cursor = Cursor.inBlock entry.1 0 ∧ config.atLimit stream.file.size = false

/-- From `stream` to `next`, `bytes` were put over the contents at the cursor.

- `edit`: the file was edited.
- `ids`: blocks were only added, at the end.
- `contents`: the bytes are in place.
- `ready`: the cursor is past the bytes. -/
structure Advance (config : Config) (stream : Stream) (chain : Chain) (pos : Nat) (bytes : Bytes)
    (next : Stream) (chain' : Chain) : Prop where
  edit : stream.file.Edit stream.blocks chain next.file next.blocks chain'
  ids : chain.ids <+: chain'.ids
  contents : chain'.contents = chain.contents.splice pos bytes
  ready : next.Ready config chain' (pos + bytes.length)

variable {config : Config} {stream next last : Stream} {chain chain' chain'' : Chain} {pos : Nat}

/-- Nothing was stored and nothing moved: the stream advances to itself past no bytes. -/
theorem Ready.advance_self (h : stream.Ready config chain pos) :
    Advance config stream chain pos [] stream chain where
  edit := h.spans.edit_self
  ids := List.prefix_refl _
  contents := (Bytes.splice_nil _ _).symm
  ready := h

/-- The position is within the file. -/
theorem Ready.le_length (h : stream.Ready config chain pos) : pos ≤ chain.contents.length :=
  h.stands.le_length

/-- The position is one that the settings allow as a size, since the file is within the limit. -/
theorem Ready.admits (h : stream.Ready config chain pos) : config.Admits pos :=
  h.within.of_le (h.spans.size_eq ▸ h.le_length)

/-- One piece stored right after another is both stored. The edits compose, and bytes put next to
each other are put there at once. -/
theorem Advance.trans {bytes more : Bytes} (h : stream.Ready config chain pos)
    (h₁ : Advance config stream chain pos bytes next chain')
    (h₂ : Advance config next chain' (pos + bytes.length) more last chain'') :
    Advance config stream chain pos (bytes ++ more) last chain'' where
  edit := h₁.edit.trans h₂.edit
  ids := h₁.ids.trans h₂.ids
  contents := by rw [h₂.contents, h₁.contents, Bytes.splice_splice h.le_length]
  ready := by
    rw [List.length_append, ← Nat.add_assoc]
    exact h₂.ready

/-- After bytes that the limit admits, the stream is ready past them. As many were stored as were
counted, since no more are admitted than there are. -/
theorem Advance.ready_of_admitted {data : Bytes} {count : Nat}
    (h : Advance config stream chain pos (data.take count) next chain')
    (hcount : count ≤ config.admitted pos data.length) :
    next.Ready config chain' (pos + count) := by
  have hready := h.ready
  have hle := Nat.le_trans hcount (config.admitted_le pos data.length)
  rwa [List.length_take, Nat.min_eq_left hle] at hready

/-- Past the start of a block, no block is empty, for only a block that was just entered may be. -/
theorem Ready.packed (h : stream.Ready config chain pos) (hoffset : 0 < stream.cursor.offset) :
    chain.Packed config.blockSize where
  toUniform := h.uniform
  filled entry hentry := by
    rcases h.filled entry hentry with hfilled | ⟨hcursor, -⟩
    · exact hfilled
    · rw [hcursor] at hoffset
      exact absurd hoffset (Nat.lt_irrefl 0)

/-- A stream on a packed chain is ready wherever its cursor stands. -/
theorem Ready.of_packed (hspans : stream.file.Spans stream.blocks chain)
    (hpacked : chain.Packed config.blockSize) (hwithin : config.Admits stream.file.size)
    (hstands : chain.Stands stream.cursor pos) : stream.Ready config chain pos :=
  ⟨hspans, hpacked.toUniform, hstands, hwithin, fun entry h => .inl (hpacked.filled entry h)⟩

/-- What holds of a stream between calls: no block is empty, and the cursor is at the start of a
block only in the first one.

- `spans`: the file lies in storage as the chain.
- `packed`: every block but the last is full, and the last one is not empty.
- `within`: the file is no larger than allowed.
- `stands`: the cursor is in the chain, with `pos` bytes before it.
- `settled`: the cursor is at the start of no block but the first. -/
structure Resting (config : Config) (stream : Stream) (chain : Chain) (pos : Nat) : Prop where
  spans : stream.file.Spans stream.blocks chain
  packed : chain.Packed config.blockSize
  within : config.Admits stream.file.size
  stands : chain.Stands stream.cursor pos
  settled : chain.Settled stream.cursor

/-- A stream at rest is ready, so the loop of a write may start from it. -/
theorem Resting.ready (h : stream.Resting config chain pos) : stream.Ready config chain pos :=
  .of_packed h.spans h.packed h.within h.stands

/-- A ready stream past the start of a block is at rest, so this is how a call may leave it. -/
theorem Ready.resting (h : stream.Ready config chain pos) (hoffset : 0 < stream.cursor.offset) :
    stream.Resting config chain pos :=
  ⟨h.spans, h.packed hoffset, h.within, h.stands, Chain.settled_of_offset_pos hoffset⟩

/-- Between calls, the position of a set cursor says in which block it is, and where: in the block
of the last byte before it. -/
theorem Resting.cursor_eq (h : stream.Resting config chain pos)
    (hset : stream.cursor.block ≠ none) :
    ∃ id, chain.ids[(pos - 1) / config.blockSize]? = some id ∧ stream.cursor
      = Cursor.inBlock id (pos - config.blockSize * ((pos - 1) / config.blockSize)) := by
  have hstands := h.stands
  have hsettled := h.settled
  obtain ⟨_, _, ⟨block, offset⟩⟩ := stream
  cases block with
  | none => exact absurd rfl hset
  | some id =>
    obtain ⟨hid, hoffset⟩ := h.packed.toUniform.settled_eq h.spans.nodup hstands hsettled
    exact ⟨id, hid, congrArg (Cursor.inBlock id) hoffset⟩

/-- Between calls, two cursors at one position are the same, unless only one of them is set. The
file and the storage need not be the same, only the chain. -/
theorem Resting.cursor_unique (h : stream.Resting config chain pos)
    (h' : next.Resting config chain pos)
    (hsame : stream.cursor.block = none ↔ next.cursor.block = none) :
    stream.cursor = next.cursor := by
  by_cases hset : stream.cursor.block = none
  · rw [h.stands.eq_unset hset, h'.stands.eq_unset (hsame.mp hset)]
  · obtain ⟨id, hid, hcursor⟩ := h.cursor_eq hset
    obtain ⟨id', hid', hcursor'⟩ := h'.cursor_eq (mt hsame.mpr hset)
    obtain rfl := Option.some.inj (hid.symm.trans hid')
    rw [hcursor, hcursor']

end Stream

end Filestore
