import Filestore.Config
import Filestore.Descriptor
import Filestore.Catalog

/-!
# `Filestore.Store.Basic`: the store as a whole

A `Store` is its settings, the storage of blocks, the files with their names, the open
descriptors, and the kind of outcome the latest call had. A call gives its result beside the store
it leaves; `Store.conclude` is the one place where a result is remembered. The one exception is a
write that stored some bytes before it failed: it gives the number of them and remembers the
failure (`Filestore.Store.Transfer`).

A call goes from a descriptor to its file by `Store.opened`, which can fail in two ways: the
number is not in use, or the file of the descriptor is gone. The second is there because a handle
may expire in general; in a store that calls lead to it never happens.

What the store counts is read off in three places, `openCount`, `fileCount` and `blockCount`, and
none of them walks over anything: each is a count that some part keeps. That the counts are those
of what is there is part of the invariants in `Filestore.Proofs.Store.Sound`.
-/

set_option autoImplicit false

namespace Filestore

/-- An in-memory file store. -/
structure Store where
  /-- The settings. -/
  config : Config
  /-- The blocks of every file. -/
  blocks : Slab Block
  /-- The files and their names. -/
  catalog : Catalog
  /-- The open descriptors. -/
  descriptors : DescriptorTable
  /-- The outcome of the latest call. -/
  lastError : ErrorKind
  deriving DecidableEq, Repr

namespace Store

/-- The store without files. -/
def empty (config : Config) : Store :=
  ⟨config, Slab.empty, Catalog.empty, DescriptorTable.empty, .noError⟩

instance : Inhabited Store := ⟨empty Config.standard⟩

/-- How many descriptors are open. -/
def openCount (store : Store) : Nat := store.descriptors.active

/-- How many files are in storage, deleted ones that are still open included. -/
def fileCount (store : Store) : Nat := store.catalog.files.len

/-- How many blocks are in storage. -/
def blockCount (store : Store) : Nat := store.blocks.len

/-- Ends a call: the store remembers the outcome. -/
def conclude {α : Type} (store : Store) (result : Except Error α) : Except Error α × Store :=
  (result, { store with lastError := resultKind result })

/-- The descriptor of a number in use, and its file. -/
def opened (store : Store) (fd : Nat) : Except Error (Descriptor × File) :=
  match store.descriptors.get fd with
  | .error e => .error e
  | .ok descriptor =>
    match store.catalog.get descriptor.file with
    | .error e => .error e
    | .ok file => .ok (descriptor, file)

end Store

end Filestore
