import Filestore.Store.Call

/-!
# `Filestore.Flat`: the store without its storage

The plain reference for `Filestore.Store`: a file is a name, a byte string and whether the name
still reaches it, and a descriptor is a file and a position in it. There are no blocks, handles,
links, counters or free lists. Numbers that the store keeps count of are counted here: a file's
references are the descriptors bound to it, and its blocks are its size divided by the block size,
rounded up. `FlatStore.perform` answers the same calls as `Store.perform`.

What the two have in common is the vocabulary they are asked and answer in, and none of what they
compute. A `Call` goes in; an `Answer`, with the `Stat` or the `Digest` in it, or a complaint of
type `Error` comes out, and both start from a `Config`. The digest is the value of one function of
the contents, `Digest.ofBytes`, in both. Everything else is said again: how many bytes the limit
lets a write store (`writable`), the statistics (`statOf`), the three counts, and the kind of
outcome that is remembered. The kind is written out wherever a call ends (`succeed`, `refuse`, and
at the end of `write`), so that it does not depend on how the store classes its complaints.

The complaints that are missing here are those about storage. A handle never expires, because
there is none, and no block has to be had. That the store never makes these complaints either, as
long as it is not asked for a larger buffer than there can be, is what the equality of the two
says among other things.
-/

set_option autoImplicit false

namespace Filestore

/-- A file of the reference store. -/
structure FlatFile where
  /-- The name the file was created under. -/
  name : String
  /-- The contents. -/
  bytes : Bytes
  /-- Whether the name still reaches the file. -/
  named : Bool
  deriving DecidableEq, Repr

/-- A descriptor of the reference store. -/
structure FlatDescriptor where
  /-- The number of the file. -/
  file : Nat
  /-- How many bytes of the file are before the cursor. -/
  position : Nat
  deriving DecidableEq, Repr

/-- The reference store. -/
structure FlatStore where
  /-- The settings. -/
  config : Config
  /-- The files, each under a number of its own. -/
  files : List (Nat × FlatFile)
  /-- The open descriptors by number. -/
  descriptors : List (Nat × FlatDescriptor)
  /-- The number of the next file. -/
  nextFile : Nat
  /-- The outcome of the latest call. -/
  lastError : ErrorKind
  deriving DecidableEq, Repr

namespace FlatStore

/-- The reference store without files. -/
def empty (config : Config) : FlatStore := ⟨config, [], [], 0, .noError⟩

/-- How many blocks of the given size a number of bytes takes. -/
def blocksFor (blockSize bytes : Nat) : Nat := (bytes + blockSize - 1) / blockSize

/-- How many descriptors are open. -/
def openCount (store : FlatStore) : Nat := store.descriptors.length

/-- How many files there are, deleted ones that are still open included. -/
def fileCount (store : FlatStore) : Nat := store.files.length

/-- How many blocks all files together take. -/
def blockCount (store : FlatStore) : Nat :=
  store.files.foldr
    (fun entry total => blocksFor store.config.blockSize entry.2.bytes.length + total) 0

/-- How many descriptors are bound to a file. -/
def refs (store : FlatStore) (file : Nat) : Nat :=
  store.descriptors.countP fun entry => entry.2.file == file

/-- The statistics of a file. -/
def statOf (store : FlatStore) (number : Nat) (file : FlatFile) : Stat :=
  { name := file.name
    size := file.bytes.length
    blocks := blocksFor store.config.blockSize file.bytes.length
    refs := store.refs number
    deleted := !file.named }

/-- The file that a name reaches, with its number. -/
def find? (store : FlatStore) (name : String) : Option (Nat × FlatFile) :=
  store.files.find? fun entry => entry.2.named && entry.2.name == name

/-- The file of a number in use, with the descriptor. -/
def opened (store : FlatStore) (fd : Nat) : Option (FlatDescriptor × FlatFile) := do
  let descriptor ← store.descriptors.lookup fd
  let file ← store.files.lookup descriptor.file
  return (descriptor, file)

/-- The lowest number not in a list. A list of `n` numbers leaves one of the first `n + 1` free. -/
def lowestUnused (numbers : List Nat) : Nat :=
  ((List.range (numbers.length + 1)).find? fun n => !numbers.contains n).getD 0

/-- Replaces the contents of a file. -/
def setBytes (store : FlatStore) (number : Nat) (bytes : Bytes) : FlatStore :=
  { store with
    files := store.files.map fun entry =>
      if entry.1 = number then (entry.1, { entry.2 with bytes }) else entry }

/-- Moves a descriptor. -/
def setPosition (store : FlatStore) (fd position : Nat) : FlatStore :=
  { store with
    descriptors := store.descriptors.map fun entry =>
      if entry.1 = fd then (entry.1, { entry.2 with position }) else entry }

/-- Moves every descriptor of a file that is past position `last` back to it. -/
def clampPositions (store : FlatStore) (file last : Nat) : FlatStore :=
  { store with
    descriptors := store.descriptors.map fun entry =>
      if entry.2.file = file then
        (entry.1, { entry.2 with position := min entry.2.position last })
      else entry }

/-- Takes the name off a file. -/
def unname (store : FlatStore) (number : Nat) : FlatStore :=
  { store with
    files := store.files.map fun entry =>
      if entry.1 = number then (entry.1, { entry.2 with named := false }) else entry }

/-- Takes a descriptor away. -/
def unbind (store : FlatStore) (fd : Nat) : FlatStore :=
  { store with descriptors := store.descriptors.filter fun entry => entry.1 != fd }

/-- Drops a file that neither a name nor a descriptor reaches. -/
def sweep (store : FlatStore) (number : Nat) : FlatStore :=
  { store with
    files := store.files.filter fun entry =>
      entry.1 != number || entry.2.named || store.refs number != 0 }

/-- Ends a call that is answered: nothing went wrong. -/
def succeed (store : FlatStore) (answer : Answer) : Except Error Answer × FlatStore :=
  (.ok answer, { store with lastError := .noError })

/-- Ends a call that is refused. Which kind of failure that is stands at every refusal. -/
def refuse (store : FlatStore) (kind : ErrorKind) (complaint : Error) :
    Except Error Answer × FlatStore :=
  (.error complaint, { store with lastError := kind })

/-- Refuses a call on a number that is not in use. -/
def notOpen (store : FlatStore) (fd : Nat) : Except Error Answer × FlatStore :=
  store.refuse .noSuchFile (.badDescriptor fd)

/-- Refuses a call with a name that reaches no file. -/
def notFound (store : FlatStore) (name : String) : Except Error Answer × FlatStore :=
  store.refuse .noSuchFile (.noSuchFile name)

/-- Refuses a call that would take a file past the limit. -/
def tooLarge (store : FlatStore) (file : FlatFile) : Except Error Answer × FlatStore :=
  store.refuse .fileTooLarge (.fileTooLarge file.name (store.config.sizeLimit.getD 0))

/-- Binds the lowest unused number to a file, at position 0. -/
def bind (store : FlatStore) (file : Nat) : Except Error Answer × FlatStore :=
  let fd := lowestUnused (store.descriptors.map Prod.fst)
  { store with descriptors := (fd, ⟨file, 0⟩) :: store.descriptors }.succeed (.descriptor fd)

/-- Opens the file that a name reaches, or a new one if none is reached and `create` is set. -/
def openFile (store : FlatStore) (name : String) (create : Bool) :
    Except Error Answer × FlatStore :=
  match store.find? name with
  | some (number, _) => store.bind number
  | none =>
    if create then
      { store with
        files := (store.nextFile, FlatFile.mk name [] true) :: store.files
        nextFile := store.nextFile + 1 }.bind store.nextFile
    else store.notFound name

/-- How many of `len` bytes the limit lets a write at a position store. -/
def writable (config : Config) (position len : Nat) : Nat :=
  match config.sizeLimit with
  | none => len
  | some limit => min len (limit - position)

/-- Stores as many bytes as the limit lets it, over the contents and past their end. A write that
stores some of its bytes is answered with their number, and is remembered as too large if it does
not store all. -/
def write (store : FlatStore) (fd : Nat) (data : Bytes) : Except Error Answer × FlatStore :=
  match store.opened fd with
  | none => store.notOpen fd
  | some (descriptor, file) =>
    let p := descriptor.position
    let n := writable store.config p data.length
    if n = 0 ∧ data ≠ [] then store.tooLarge file
    else
      let bytes := file.bytes.take p ++ data.take n ++ file.bytes.drop (p + n)
      let after := (store.setBytes descriptor.file bytes).setPosition fd (p + n)
      (.ok (.count n),
        { after with lastError := if n < data.length then .fileTooLarge else .noError })

/-- Gives the bytes from the position on, at most `want` of them. -/
def read (store : FlatStore) (fd want : Nat) : Except Error Answer × FlatStore :=
  match store.opened fd with
  | none => store.notOpen fd
  | some (descriptor, file) =>
    let bytes := (file.bytes.drop descriptor.position).take want
    (store.setPosition fd (descriptor.position + bytes.length)).succeed (.data bytes)

/-- Unbinds a number. -/
def close (store : FlatStore) (fd : Nat) : Except Error Answer × FlatStore :=
  match store.opened fd with
  | none => store.notOpen fd
  | some (descriptor, _) => ((store.unbind fd).sweep descriptor.file).succeed .done

/-- Makes a name reach nothing. -/
def delete (store : FlatStore) (name : String) : Except Error Answer × FlatStore :=
  match store.find? name with
  | none => store.notFound name
  | some (number, _) => ((store.unname number).sweep number).succeed .done

/-- The first `size` bytes of a byte string that zeros continue. -/
def resized (bytes : Bytes) (size : Nat) : Bytes :=
  bytes.take size ++ List.replicate (size - bytes.length) 0

/-- Cuts the contents or appends zeros. No position stays past the end. -/
def resize (store : FlatStore) (fd size : Nat) : Except Error Answer × FlatStore :=
  match store.opened fd with
  | none => store.notOpen fd
  | some (descriptor, file) =>
    if writable store.config 0 size < size then store.tooLarge file
    else
      ((store.setBytes descriptor.file (resized file.bytes size)).clampPositions
        descriptor.file size).succeed .done

/-- Moves a descriptor to the start. -/
def rewind (store : FlatStore) (fd : Nat) : Except Error Answer × FlatStore :=
  match store.opened fd with
  | none => store.notOpen fd
  | some _ => (store.setPosition fd 0).succeed .done

/-- Shows the statistics of the file that a name reaches. -/
def stat (store : FlatStore) (name : String) : Except Error Answer × FlatStore :=
  match store.find? name with
  | none => store.notFound name
  | some (number, file) => store.succeed (.stat (store.statOf number file))

/-- Answers what is asked of an open file. -/
def inspect (store : FlatStore) (fd : Nat) (answer : FlatDescriptor → FlatFile → Answer) :
    Except Error Answer × FlatStore :=
  match store.opened fd with
  | none => store.notOpen fd
  | some (descriptor, file) => store.succeed (answer descriptor file)

/-- The names that reach a file, ascending. -/
def names (store : FlatStore) : List String :=
  ((store.files.filter fun entry => entry.2.named).map fun entry => entry.2.name).mergeSort
    fun a b => decide (a ≤ b)

/-- Answers a call. To ask for the names is the only call that leaves what is remembered as it
was. -/
def perform (store : FlatStore) : Call → Except Error Answer × FlatStore
  | .openFile name create => store.openFile name create
  | .write fd data => store.write fd data
  | .read fd want => store.read fd want
  | .readUpTo fd most => store.read fd most
  | .close fd => store.close fd
  | .delete name => store.delete name
  | .resize fd size => store.resize fd size
  | .rewind fd => store.rewind fd
  | .stat name => store.stat name
  | .statOpen fd =>
    store.inspect fd fun descriptor file => .stat (store.statOf descriptor.file file)
  | .digest fd => store.inspect fd fun _ file => .digest (Digest.ofBytes file.bytes)
  | .names => (.ok (.names store.names), store)
  | .destroy => (.ok .done, empty store.config)

end FlatStore

end Filestore
