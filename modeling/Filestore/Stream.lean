import Filestore.Config
import Filestore.File.Extent

/-!
# `Filestore.Stream`: reading and writing at a cursor

A `Stream` is a file, the storage of its blocks and a cursor in it. Writing and reading go block
by block, and each is a step function repeated: a step stores or copies bytes (`stored`,
`copied`), or moves the cursor to the next block (`moved`), or ends the transfer. Two moves never
follow each other, so a transfer of `n` bytes takes at most `2 * n` steps, and the fuel of `2 * n
+ 2` that the loops carry does not run out. If it did, the transfer would end as if its cursor
were lost. That this never happens is proved in `Filestore.Proofs.Stream.Progress`.

A write may end in the middle of its data. The limit is about growth: bytes that are overwritten
do not count against it, bytes past the end of the file do (`allowance`), and no block is added to
a file that is at the limit. A write that has stored some of its bytes keeps them and says how
many they are, along with the failure that ended it. A read ends early only at the end of the
file, which is no failure.

The loops also carry what they have done so far; `writeFrom_eq_add` and `readFrom_eq_append` take
that out again, so that proofs about them follow the steps alone.
-/

set_option autoImplicit false

namespace Filestore

/-- A file under a cursor. -/
structure Stream where
  /-- The file. -/
  file : File
  /-- The storage its blocks are in. -/
  blocks : Slab Block
  /-- The place in the file. -/
  cursor : Cursor
  deriving DecidableEq, Repr

namespace Stream

/-- What one step of a write does. -/
inductive WriteStep where
  /-- Stored `count` bytes. -/
  | stored (count : Nat) (next : Stream)
  /-- Moved the cursor to the next block. -/
  | moved (next : Stream)
  /-- Ended the write, after storing `count` bytes. -/
  | refused (error : Error) (count : Nat) (next : Stream)
  deriving DecidableEq, Repr

/-- What a whole write did: the failure that ended it, if one did, and the bytes stored. -/
structure Written where
  /-- What ended the write before its last byte. -/
  error : Option Error
  /-- How many bytes were stored. -/
  count : Nat
  /-- The stream afterwards. -/
  stream : Stream
  deriving DecidableEq, Repr

/-- What one step of a read does. -/
inductive ReadStep where
  /-- Copied bytes. -/
  | copied (bytes : Bytes) (cursor : Cursor)
  /-- Moved the cursor to the next block. -/
  | moved (cursor : Cursor)
  /-- Came to the end of the file. -/
  | ended
  /-- Found the cursor expired. -/
  | refused (error : Error)
  deriving DecidableEq, Repr

/-- The complaint that a descriptor's cursor names no block. -/
def lostCursor (fd : Nat) : Error := .staleHandle ("cursor of fd " ++ toString fd)

/-- The complaint that the block of a descriptor's cursor is gone. -/
def lostBlock (fd : Nat) : Error := .staleHandle ("cursor block of fd " ++ toString fd)

/-- The complaint that the size limit leaves the file no room. -/
def tooLarge (config : Config) (file : File) : Error :=
  .fileTooLarge file.name (config.sizeLimit.getD 0)

/-- Appends a block to the file and goes to its start, unless the file is at the limit. -/
def enterNewBlock (config : Config) (stream : Stream) : Except Error Unit × Stream :=
  if config.atLimit stream.file.size then (.error (tooLarge config stream.file), stream)
  else
    let (result, file, blocks) := stream.file.appendBlock stream.blocks config.blockSize
    match result with
    | .error e => (.error e, ⟨file, blocks, stream.cursor⟩)
    | .ok id => (.ok (), ⟨file, blocks, Cursor.inBlock id 0⟩)

/-- Gives a cursor without a block the first one, which an empty file gets now. -/
def startWriting (config : Config) (stream : Stream) : Except Error Unit × Stream :=
  match stream.cursor.block with
  | some _ => (.ok (), stream)
  | none =>
    match stream.file.head with
    | some head => (.ok (), { stream with cursor := Cursor.inBlock head 0 })
    | none => stream.enterNewBlock config

/-- How many of the bytes `data` may go into a block at `offset`: all that fit over bytes already
there, and past the end as many as the limit leaves room for. -/
def allowance (config : Config) (file : File) (block : Block) (offset : Nat) (data : Bytes) : Nat :=
  -- The limit is about growth: bytes that are overwritten do not count against it.
  let chunk := block.writeCount offset data
  let overlap := min chunk (block.occupied - offset)
  match config.sizeLimit with
  | none => chunk
  | some limit => overlap + min (chunk - overlap) (limit - file.size)

/-- One step of writing `data`. -/
def writeStep (config : Config) (fd : Nat) (data : Bytes) (stream : Stream) : WriteStep :=
  match stream.cursor.block with
  | none => .refused (lostCursor fd) 0 stream
  | some id =>
    match stream.blocks.get? id with
    | none => .refused (lostBlock fd) 0 stream
    | some block =>
      let offset := stream.cursor.offset
      if offset = block.capacity then
        -- Past the last byte that fits here: the next byte goes to the start of another block.
        match block.next with
        | some next => .moved { stream with cursor := Cursor.inBlock next 0 }
        | none =>
          match stream.enterNewBlock config with
          | (.error e, same) => .refused e 0 same
          | (.ok (), entered) => .moved entered
      else
        let count := allowance config stream.file block offset data
        if count = 0 then .refused (tooLarge config stream.file) 0 stream
        else
          -- Only what goes past the end of the block makes the file longer.
          let changed := block.writeAt offset (data.take count)
          let file := stream.file.grow (changed.occupied - block.occupied)
          let next : Stream :=
            ⟨file, stream.blocks.set id changed, Cursor.inBlock id (offset + count)⟩
          if count < block.writeCount offset data then .refused (tooLarge config file) count next
          else .stored count next

/-- Writes `data` in at most `fuel` steps, after `count` bytes stored before. -/
def writeFrom (config : Config) (fd : Nat) : Nat → Nat → Bytes → Stream → Written
  | _, count, [], stream => ⟨none, count, stream⟩
  | 0, count, _ :: _, stream => ⟨some (lostCursor fd), count, stream⟩
  | fuel + 1, count, byte :: rest, stream =>
    match stream.writeStep config fd (byte :: rest) with
    | .refused e more next => ⟨some e, count + more, next⟩
    | .moved next => writeFrom config fd fuel count (byte :: rest) next
    | .stored more next => writeFrom config fd fuel (count + more) ((byte :: rest).drop more) next

/-- Bytes stored before are added to the count, and change nothing else about the write. This
takes the accumulator out of the loop. -/
theorem writeFrom_eq_add (config : Config) (fd fuel count : Nat) (data : Bytes)
    (stream : Stream) :
    writeFrom config fd fuel count data stream =
      { writeFrom config fd fuel 0 data stream with
        count := count + (writeFrom config fd fuel 0 data stream).count } := by
  induction fuel generalizing count data stream with
  | zero => cases data <;> simp [writeFrom]
  | succ fuel ih =>
    cases data with
    | nil => simp [writeFrom]
    | cons byte rest =>
      simp only [writeFrom]
      cases stream.writeStep config fd (byte :: rest) with
      | refused e more next => simp
      | moved next => exact ih count _ next
      | stored more next =>
        simp only
        rw [ih, ih (0 + more)]
        simp [Nat.add_assoc]

/-- Writes `data` at the cursor. -/
def write (config : Config) (fd : Nat) (data : Bytes) (stream : Stream) : Written :=
  match stream.startWriting config with
  | (.error e, same) => ⟨some e, 0, same⟩
  | (.ok (), started) => writeFrom config fd (2 * data.length + 2) 0 data started

/-- One step of reading at most `want` bytes. -/
def readStep (blocks : Slab Block) (fd want : Nat) (cursor : Cursor) : ReadStep :=
  match cursor.block with
  | none => .refused (lostCursor fd)
  | some id =>
    match blocks.get? id with
    | none => .refused (lostBlock fd)
    | some block =>
      if block.occupied ≤ cursor.offset then
        match block.next with
        | some next => .moved (Cursor.inBlock next 0)
        | none => .ended
      else
        let bytes := block.readAt cursor.offset want
        .copied bytes (Cursor.inBlock id (cursor.offset + bytes.length))

/-- Reads at most `want` bytes in at most `fuel` steps, after the pieces `done`, of which the latest
is first. -/
def readFrom (blocks : Slab Block) (fd : Nat) :
    Nat → Nat → List Bytes → Cursor → Except Error Bytes × Cursor
  | _, 0, done, cursor => (.ok done.reverse.flatten, cursor)
  | 0, _ + 1, _, cursor => (.error (lostCursor fd), cursor)
  | fuel + 1, want + 1, done, cursor =>
    match readStep blocks fd (want + 1) cursor with
    | .refused e => (.error e, cursor)
    | .ended => (.ok done.reverse.flatten, cursor)
    | .moved next => readFrom blocks fd fuel (want + 1) done next
    | .copied bytes next => readFrom blocks fd fuel (want + 1 - bytes.length) (bytes :: done) next

/-- Pieces read before come before what is read, and change nothing else about the read. This
takes the accumulator out of the loop. -/
theorem readFrom_eq_append (blocks : Slab Block) (fd fuel want : Nat) (done : List Bytes)
    (cursor : Cursor) :
    readFrom blocks fd fuel want done cursor =
      ((readFrom blocks fd fuel want [] cursor).1.map (done.reverse.flatten ++ ·),
        (readFrom blocks fd fuel want [] cursor).2) := by
  induction fuel generalizing want done cursor with
  | zero => cases want <;> simp [readFrom, Except.map]
  | succ fuel ih =>
    cases want with
    | zero => simp [readFrom, Except.map]
    | succ want =>
      simp only [readFrom]
      cases readStep blocks fd (want + 1) cursor with
      | refused e => rfl
      | ended => simp [Except.map]
      | moved next => exact ih _ done next
      | copied bytes next =>
        simp only
        rw [ih _ (bytes :: done), ih _ [bytes]]
        cases (readFrom blocks fd fuel (want + 1 - bytes.length) [] next).1 <;>
          simp [Except.map]

/-- Reads at most `want` bytes at the cursor. A cursor without a block gets the first one, if there
is one, whatever is read. -/
def read (fd want : Nat) (stream : Stream) : Except Error Bytes × Cursor :=
  match stream.cursor.block, stream.file.head with
  | none, none => (.ok [], stream.cursor)
  | none, some head => readFrom stream.blocks fd (2 * want + 2) want [] (Cursor.inBlock head 0)
  | some _, _ => readFrom stream.blocks fd (2 * want + 2) want [] stream.cursor

end Stream

end Filestore
