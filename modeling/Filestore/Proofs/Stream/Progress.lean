import Filestore.Proofs.Loop
import Filestore.Proofs.Stream.Read
import Filestore.Proofs.Stream.Write

/-!
# `Filestore.Proofs.Stream.Progress`: the loops of transfers get on

A write and a read are loops. `Writing.turn` and `Reading.turn` are one turn of each, and
`Writing.run` and `Reading.run` are the loops with fuel. A loop gets on in a state
(`Writing.Progresses`, `Reading.Progresses`) when its step there stores or copies a byte, or ends
the loop, or goes to another block, from where the very next step does one or the other. So there
are no two steps in a row without a byte.

From a stream at rest, both loops get on and end (`Resting.write_ends`, `Resting.read_ends`). A
turn lowers a rank: two for every byte that is left, and one more where the next step may be a
move. So `n` bytes take no more than `2 * n + 2` turns, of which the last one may find that no
byte is left.

What is said of the steps goes by positions and contents, not by chains: `Writing.Progresses` and
`Reading.Progresses` can be read without the invariant. The invariant, `Ready` for a write and
`Chain.Stands` for a read, is `Underway`; it is kept by a turn, and in it every step progresses.
The general part, that a loop whose turns lower a rank ends, is `Filestore.Proofs.Loop`.
-/

set_option autoImplicit false

namespace Filestore

namespace Stream

section Writing

/-- A write between two turns of its loop. -/
structure Writing where
  /-- How many bytes are stored. -/
  count : Nat
  /-- The bytes that are left. -/
  data : Bytes
  /-- The stream. -/
  stream : Stream

/-- One turn of the loop of a write: a step, unless no byte is left. -/
def Writing.turn (config : Config) (fd : Nat) (writing : Writing) : Written ⊕ Writing :=
  match writing.data with
  | [] => .inl ⟨none, writing.count, writing.stream⟩
  | byte :: rest =>
    match writing.stream.writeStep config fd (byte :: rest) with
    | .refused error more next => .inl ⟨some error, writing.count + more, next⟩
    | .moved next => .inr ⟨writing.count, byte :: rest, next⟩
    | .stored more next => .inr ⟨writing.count + more, (byte :: rest).drop more, next⟩

/-- The loop of a write, with fuel. -/
def Writing.run (config : Config) (fd fuel : Nat) (writing : Writing) : Written :=
  writeFrom config fd fuel writing.count writing.data writing.stream

/-- The step stored at least one of the bytes `data`, at the position of the cursor, or ended the
write at the limit. -/
def WriteStep.StoresOrEnds (config : Config) (stream : Stream) (data : Bytes) : WriteStep → Prop
  | .stored count next =>
    0 < count ∧ count ≤ data.length ∧
    ∃ pos, stream.file.position stream.blocks stream.cursor = some pos ∧
      next.file.contents next.blocks
        = (stream.file.contents stream.blocks).splice pos (data.take count) ∧
      next.file.position next.blocks next.cursor = some (pos + count)
  | .moved _ => False
  | .refused error _ _ => error = tooLarge config stream.file

/-- The step stored a byte, or ended the write, or went to another block, where the next step stores
a byte or ends the write. -/
def WriteStep.Progresses (config : Config) (fd : Nat) (stream : Stream) (data : Bytes) :
    WriteStep → Prop
  | .moved next =>
    next.cursor.block ≠ none ∧ next.cursor.block ≠ stream.cursor.block ∧
    (next.writeStep config fd data).StoresOrEnds config next data
  | step => step.StoresOrEnds config stream data

/-- The loop of a write gets on, if bytes are left. -/
def Writing.Progresses (config : Config) (fd : Nat) (writing : Writing) : Prop :=
  writing.data ≠ [] → (writing.stream.writeStep config fd writing.data).Progresses config fd
    writing.stream writing.data

variable {config : Config} {stream next : Stream} {chain chain' : Chain} {pos fd : Nat}
  {data : Bytes}

/-- The loop with fuel takes a turn for every unit of it, so the loop of the store is the one
whose turns are looked at here. -/
theorem Writing.run_succ (config : Config) (fd fuel : Nat) (writing : Writing) :
    writing.run config fd (fuel + 1)
      = Sum.elim id (Writing.run config fd fuel) (writing.turn config fd) := by
  obtain ⟨count, data, stream⟩ := writing
  cases data with
  | nil => rfl
  | cons byte rest =>
    simp only [Writing.run, Writing.turn, writeFrom]
    cases stream.writeStep config fd (byte :: rest) <;> rfl

/-- A lawful step that is not a move stores a byte or ends the write. The bytes are at the
position of the cursor, and the cursor goes past them. -/
theorem Ready.storesOrEnds (h : stream.Ready config chain pos) {step : WriteStep}
    (hlawful : step.Lawful config stream chain pos data) (hmoved : ∀ next, step ≠ .moved next) :
    step.StoresOrEnds config stream data := by
  cases step with
  | moved next => exact absurd rfl (hmoved next)
  | refused error count next => exact hlawful.1
  | stored count next =>
    obtain ⟨-, hcount, hle, -, -, chain', hadvance⟩ := hlawful
    have hready := hadvance.ready_of_admitted hle
    refine ⟨hcount, Nat.le_trans hle (config.admitted_le _ _), pos,
      h.spans.position_eq h.stands, ?_, hready.spans.position_eq hready.stands⟩
    rw [hready.spans.contents_eq, h.spans.contents_eq, hadvance.contents]

/-- The start of a block, at the position of the end of a block, is in another one: a block has
room for at least one byte, so its start and its end are apart. -/
theorem Ready.block_ne (h : stream.Ready config chain pos)
    (hend : stream.cursor.offset = config.blockSize) (hstart : next.cursor.offset = 0)
    (hadvance : Advance config stream chain pos [] next chain') :
    next.cursor.block ≠ stream.cursor.block := by
  intro hsame
  have hlength : chain.contents.length ≤ chain'.contents.length :=
    Nat.le_of_eq (by rw [hadvance.contents, Bytes.splice_nil])
  -- The cursor from before the move stands in the chain after it, at the same position.
  have hstands := h.stands.extend h.uniform hadvance.ready.uniform hadvance.ids hlength
  have hoffset := hadvance.ready.stands.offset_eq hstands hsame hadvance.ready.spans.nodup
  have hpos := config.blockSize_pos
  omega

/-- Every step of a write from a ready stream with a set cursor gets on. After a move the cursor
is at the start of a block, from where no step moves. -/
theorem Ready.writeStep_progresses (h : stream.Ready config chain pos) (fd : Nat)
    (hset : stream.cursor.block ≠ none) (hdata : data ≠ []) :
    (stream.writeStep config fd data).Progresses config fd stream data := by
  have hlawful := h.writeStep_lawful fd hset hdata
  generalize stream.writeStep config fd data = step at hlawful
  cases step with
  | stored count next => exact h.storesOrEnds hlawful (by rintro _ ⟨⟩)
  | refused error count next => exact h.storesOrEnds hlawful (by rintro _ ⟨⟩)
  | moved next =>
    obtain ⟨hend, -, hset', hstart, chain', hadvance⟩ := hlawful
    have hnext := hadvance.ready.writeStep_lawful fd hset' hdata
    refine ⟨hset', h.block_ne hend hstart hadvance, hadvance.ready.storesOrEnds hnext ?_⟩
    -- A move starts at the end of a block, and this one has come to the start of a block.
    intro last hlast
    rw [hlast] at hnext
    exact Nat.ne_of_lt config.blockSize_pos (hstart.symm.trans hnext.1)

/-- The stream is ready and its cursor is set. -/
def Writing.Underway (config : Config) (writing : Writing) : Prop :=
  writing.stream.cursor.block ≠ none ∧ ∃ chain pos, writing.stream.Ready config chain pos

/-- Two for every byte that is left, and one where the next step may be a move. -/
def Writing.rank (config : Config) (writing : Writing) : Nat :=
  2 * writing.data.length + if writing.stream.cursor.offset = config.blockSize then 1 else 0

/-- The loop of a write that is underway gets on, as long as bytes are left. -/
theorem Writing.Underway.progresses {writing : Writing} (h : writing.Underway config) (fd : Nat) :
    writing.Progresses config fd := by
  intro hdata
  obtain ⟨hset, chain, pos, hready⟩ := h
  exact hready.writeStep_progresses fd hset hdata

/-- A turn of a write keeps it underway and lowers its rank: by two for every byte stored, or by
one for a move away from the end of a block. -/
theorem Writing.Underway.turn {writing after : Writing} (h : writing.Underway config)
    (hturn : writing.turn config fd = .inr after) :
    after.Underway config ∧ after.rank config < writing.rank config := by
  obtain ⟨count, data, stream⟩ := writing
  obtain ⟨hset, chain, pos, hready⟩ := h
  simp only at hset hready
  cases data with
  | nil => cases hturn
  | cons byte rest =>
    have hlawful := hready.writeStep_lawful fd hset (List.cons_ne_nil byte rest)
    simp only [Writing.turn] at hturn
    generalize stream.writeStep config fd (byte :: rest) = step at hlawful hturn
    cases step with
    | refused error more next => cases hturn
    | stored more next =>
      obtain ⟨hinside, hmore, -, hset', -, chain', hadvance⟩ := hlawful
      cases hturn
      refine ⟨⟨hset', chain', _, hadvance.ready⟩, ?_⟩
      simp only [Writing.rank, if_neg hinside, List.length_drop, List.length_cons]
      split <;> omega
    | moved next =>
      obtain ⟨hend, -, hset', hstart, chain', hadvance⟩ := hlawful
      cases hturn
      refine ⟨⟨hset', chain', _, hadvance.ready⟩, ?_⟩
      have hne : ¬ 0 = config.blockSize := Nat.ne_of_lt config.blockSize_pos
      simp only [Writing.rank, if_pos hend, hstart, if_neg hne]
      omega

/-- From rest, the loop of a write gets on, and ends with what the write gives, within two turns
for every byte and two more. -/
theorem Resting.write_ends (h : stream.Resting config chain pos) (fd : Nat) (data : Bytes)
    {started : Stream} (hstart : stream.startWriting config = (.ok (), started)) :
    Loop.Ends (Writing.turn config fd) (Writing.run config fd) (Writing.Progresses config fd)
      (2 * data.length + 2) ⟨0, data, started⟩ (stream.write config fd data) := by
  have hwrite : stream.write config fd data
      = Writing.run config fd (2 * data.length + 2) ⟨0, data, started⟩ := by
    simp only [Stream.write, hstart, Writing.run]
  rw [hwrite]
  rcases h.startWriting_spec with ⟨hrefused, -⟩ | ⟨_, chain', hstarted, hadvance, hset, -⟩
  · cases hstart.symm.trans hrefused
  · cases hstart.symm.trans hstarted
    have hunderway : Writing.Underway config ⟨0, data, started⟩ :=
      ⟨hset, chain', _, hadvance.ready⟩
    refine Loop.ends_of_rank (Writing.run_succ config fd) (fun _ h => h.progresses fd)
      (fun _ _ h hturn => h.turn hturn) hunderway ?_
    simp only [Writing.rank]
    split <;> omega

end Writing

section Reading

/-- A read between two turns of its loop. -/
structure Reading where
  /-- How many bytes are still wanted. -/
  want : Nat
  /-- The pieces that are copied, the latest first. -/
  done : List Bytes
  /-- The place in the file. -/
  cursor : Cursor

/-- One turn of the loop of a read: a step, unless no byte is wanted. -/
def Reading.turn (blocks : Slab Block) (fd : Nat) (reading : Reading) :
    (Except Error Bytes × Cursor) ⊕ Reading :=
  match reading.want with
  | 0 => .inl (.ok reading.done.reverse.flatten, reading.cursor)
  | want + 1 =>
    match readStep blocks fd (want + 1) reading.cursor with
    | .refused error => .inl (.error error, reading.cursor)
    | .ended => .inl (.ok reading.done.reverse.flatten, reading.cursor)
    | .moved next => .inr ⟨want + 1, reading.done, next⟩
    | .copied bytes next => .inr ⟨want + 1 - bytes.length, bytes :: reading.done, next⟩

/-- The loop of a read, with fuel. -/
def Reading.run (blocks : Slab Block) (fd fuel : Nat) (reading : Reading) :
    Except Error Bytes × Cursor :=
  readFrom blocks fd fuel reading.want reading.done reading.cursor

/-- The step copied at least one of the `want` bytes at the position of the cursor. -/
def ReadStep.Copies (file : File) (blocks : Slab Block) (want : Nat) (cursor : Cursor) :
    ReadStep → Prop
  | .copied bytes next =>
    0 < bytes.length ∧ bytes.length ≤ want ∧
    ∃ pos, file.position blocks cursor = some pos ∧
      bytes <+: (file.contents blocks).drop pos ∧
      file.position blocks next = some (pos + bytes.length)
  | _ => False

/-- The step copied a byte, or came to the end of the file, or went to the next block, from which
the next step copies a byte. -/
def ReadStep.Progresses (file : File) (blocks : Slab Block) (fd want : Nat) (cursor : Cursor) :
    ReadStep → Prop
  | .moved next =>
    next.block ≠ none ∧ next.block ≠ cursor.block ∧
    next.block = (cursor.block.bind blocks.get?).bind Block.next ∧
    (readStep blocks fd want next).Copies file blocks want next
  | .ended => file.position blocks cursor = some file.size
  | step => step.Copies file blocks want cursor

/-- The loop of a read gets on, if bytes are wanted. -/
def Reading.Progresses (file : File) (blocks : Slab Block) (fd : Nat) (reading : Reading) : Prop :=
  0 < reading.want → (readStep blocks fd reading.want reading.cursor).Progresses file blocks fd
    reading.want reading.cursor

variable {config : Config} {stream : Stream} {file : File} {blocks : Slab Block} {chain : Chain}
  {cursor next : Cursor} {pos want fd : Nat}

/-- The loop with fuel takes a turn for every unit of it, as the loop of a write does. -/
theorem Reading.run_succ (blocks : Slab Block) (fd fuel : Nat) (reading : Reading) :
    reading.run blocks fd (fuel + 1)
      = Sum.elim id (Reading.run blocks fd fuel) (reading.turn blocks fd) := by
  obtain ⟨want, done, cursor⟩ := reading
  cases want with
  | zero => rfl
  | succ want =>
    simp only [Reading.run, Reading.turn, readFrom]
    cases readStep blocks fd (want + 1) cursor <;> rfl

/-- A lawful step that copies bytes copies some of the contents at the position of the cursor, no
more than are wanted, and the cursor goes past them. -/
theorem copies_of_lawful (hspans : file.Spans blocks chain) (hstands : chain.Stands cursor pos)
    {bytes : Bytes} (hlawful : (ReadStep.copied bytes next).Lawful chain cursor pos want) :
    (ReadStep.copied bytes next).Copies file blocks want cursor := by
  obtain ⟨hpos, hle, hbytes, -, -, hstands'⟩ := hlawful
  refine ⟨hpos, hle, pos, hspans.position_eq hstands, ?_, hspans.position_eq hstands'⟩
  rw [hspans.contents_eq]
  exact (hbytes ▸ List.prefix_append _ _).trans (List.take_prefix want _)

/-- A move goes to the block that the block of the cursor is linked to, whatever the storage is. -/
theorem block_eq_of_moved (h : readStep blocks fd want cursor = .moved next) :
    next.block = (cursor.block.bind blocks.get?).bind Block.next := by
  unfold readStep at h
  split at h
  · cases h
  rename_i id hid
  split at h
  · cases h
  rename_i block hblock
  split at h
  · split at h
    · rename_i hnext
      cases h
      rw [hid, Option.bind_some, hblock, Option.bind_some, hnext]
      rfl
    · cases h
  · cases h

/-- Every step of a read from a set cursor gets on. After a move the cursor is at the start of a
block, which is not empty, so the next step copies a byte. -/
theorem readStep_progresses (fd : Nat) (hspans : file.Spans blocks chain)
    (hfilled : ∀ entry ∈ chain, 0 < entry.2.occupied) (hstands : chain.Stands cursor pos)
    (hset : cursor.block ≠ none) (hwant : 0 < want) :
    (readStep blocks fd want cursor).Progresses file blocks fd want cursor := by
  have hlawful := readStep_lawful fd hspans hfilled hstands hset hwant
  cases hstep : readStep blocks fd want cursor with
  | copied bytes next =>
    rw [hstep] at hlawful
    exact copies_of_lawful hspans hstands hlawful
  | ended =>
    rw [hstep] at hlawful
    show file.position blocks cursor = some file.size
    rw [hspans.position_eq hstands, hlawful.2, hspans.size_eq]
  | refused error =>
    rw [hstep] at hlawful
    exact hlawful
  | moved next =>
    rw [hstep] at hlawful
    obtain ⟨hpos, hset', hstart, hstands'⟩ := hlawful
    refine ⟨hset', fun hsame => ?_, block_eq_of_moved hstep, ?_⟩
    · have hoffset := hstands'.offset_eq hstands hsame hspans.nodup
      omega
    · -- The cursor is at the start of a block, and only past it a step moves on or ends.
      have hnext := readStep_lawful fd hspans hfilled hstands' hset' hwant
      generalize readStep blocks fd want next = step at hnext
      cases step with
      | copied bytes last => exact copies_of_lawful hspans hstands' hnext
      | moved last => exact absurd hstart (Nat.pos_iff_ne_zero.mp hnext.1)
      | ended => exact absurd hstart (Nat.pos_iff_ne_zero.mp hnext.1)
      | refused error => exact hnext

/-- The cursor is set and stands in the chain. -/
def Reading.Underway (chain : Chain) (reading : Reading) : Prop :=
  reading.cursor.block ≠ none ∧ ∃ pos, chain.Stands reading.cursor pos

/-- Two for every byte that is wanted, and one where the next step may be a move. -/
def Reading.rank (reading : Reading) : Nat :=
  2 * reading.want + if reading.cursor.offset = 0 then 0 else 1

/-- The loop of a read that is underway gets on, as long as bytes are wanted. -/
theorem Reading.Underway.progresses {reading : Reading} (h : reading.Underway chain)
    (hspans : file.Spans blocks chain) (hfilled : ∀ entry ∈ chain, 0 < entry.2.occupied)
    (fd : Nat) : reading.Progresses file blocks fd := by
  intro hwant
  obtain ⟨hset, pos, hstands⟩ := h
  exact readStep_progresses fd hspans hfilled hstands hset hwant

/-- A turn of a read keeps it underway and lowers its rank, by two for every byte copied, or by
one for a move. -/
theorem Reading.Underway.turn {reading after : Reading} (h : reading.Underway chain)
    (hspans : file.Spans blocks chain) (hfilled : ∀ entry ∈ chain, 0 < entry.2.occupied)
    (hturn : reading.turn blocks fd = .inr after) :
    after.Underway chain ∧ after.rank < reading.rank := by
  obtain ⟨want, done, cursor⟩ := reading
  obtain ⟨hset, pos, hstands⟩ := h
  simp only at hset hstands
  cases want with
  | zero => cases hturn
  | succ want =>
    have hlawful := readStep_lawful fd hspans hfilled hstands hset (Nat.succ_pos want)
    simp only [Reading.turn] at hturn
    generalize readStep blocks fd (want + 1) cursor = step at hlawful hturn
    cases step with
    | refused error => cases hturn
    | ended => cases hturn
    | copied bytes next =>
      obtain ⟨hpos, hle, -, hset', -, hstands'⟩ := hlawful
      cases hturn
      refine ⟨⟨hset', _, hstands'⟩, ?_⟩
      simp only [Reading.rank]
      split <;> split <;> omega
    | moved next =>
      obtain ⟨hpos, hset', hstart, hstands'⟩ := hlawful
      cases hturn
      refine ⟨⟨hset', _, hstands'⟩, ?_⟩
      simp only [Reading.rank, if_pos hstart, if_neg (Nat.pos_iff_ne_zero.mp hpos)]
      omega

/-- From rest, the loop of a read gets on, and ends with what the read gives, within two turns for
every byte and two more. -/
theorem Resting.read_ends (h : stream.Resting config chain pos) (fd want : Nat) {start : Cursor}
    (hstart : stream.startReading = some start) :
    Loop.Ends (Reading.turn stream.blocks fd) (Reading.run stream.blocks fd)
      (Reading.Progresses stream.file stream.blocks fd) (2 * want + 2) ⟨want, [], start⟩
      (stream.read fd want) := by
  rw [read_eq, hstart]
  rcases h.startReading_spec with ⟨hnone, -⟩ | ⟨_, hstarted, hset, hstands, -⟩
  · cases hstart.symm.trans hnone
  · cases hstart.symm.trans hstarted
    have hunderway : Reading.Underway chain ⟨want, [], start⟩ := ⟨hset, pos, hstands⟩
    refine Loop.ends_of_rank (Reading.run_succ stream.blocks fd)
      (fun _ hstate => hstate.progresses h.spans h.packed.filled fd)
      (fun _ _ hstate hturn => hstate.turn h.spans h.packed.filled hturn) hunderway ?_
    simp only [Reading.rank]
    split <;> omega

end Reading

end Stream

end Filestore
