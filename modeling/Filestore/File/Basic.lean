import Filestore.Chain

/-!
# `Filestore.File.Basic`: what a file is

A `File` is a name, the first and the last block of its chain, and what the store counts about it.
The bytes themselves are in the storage of blocks, so whatever reads or changes a file takes that
storage too. `Stat` is the part of a file that callers see: the handles of the blocks are not
among it.

The counts are kept and not computed: a file that is asked for its size does not walk its blocks.
What they count is an invariant: `size` and `blocks` are those of the chain (`File.Spans`), and
`refs` is the number of descriptors bound to the file, which the store keeps.

A file is created under a name and keeps that name in its record for good. Whether the name still
leads to it is a matter of the directory; `deleted` says that it was deleted while descriptors
were open, so that the last one to be closed knows that the file is to go.
-/

set_option autoImplicit false

namespace Filestore

/-- The handle of a file in the storage of files. -/
abbrev FileId := Handle

/-- A named byte string kept as a chain of blocks. -/
structure File where
  /-- The name the file was created under. -/
  name : String
  /-- The first block. -/
  head : Option BlockId
  /-- The last block. -/
  tail : Option BlockId
  /-- How many open descriptors are bound to the file. -/
  refs : Nat
  /-- Whether the name was deleted while descriptors were open. -/
  deleted : Bool
  /-- The number of bytes. -/
  size : Nat
  /-- The number of blocks. -/
  blocks : Nat
  deriving DecidableEq, Repr

/-- What callers see of a file. -/
structure Stat where
  /-- The name the file was created under. -/
  name : String
  /-- The number of bytes. -/
  size : Nat
  /-- The number of blocks. -/
  blocks : Nat
  /-- How many open descriptors are bound to the file. -/
  refs : Nat
  /-- Whether the name was deleted while descriptors were open. -/
  deleted : Bool
  deriving DecidableEq, Repr

namespace File

/-- A file without bytes that no descriptor is bound to. -/
def named (name : String) : File := ⟨name, none, none, 0, false, 0, 0⟩

/-- What callers see of the file. -/
def stat (file : File) : Stat :=
  ⟨file.name, file.size, file.blocks, file.refs, file.deleted⟩

/-- The file's blocks from first to last. -/
def chain (file : File) (blocks : Slab Block) : Chain := Chain.walk blocks file.head

/-- The file's byte string. -/
def contents (file : File) (blocks : Slab Block) : Bytes := (file.chain blocks).contents

/-- The cursor of a stream position, clamped to the end of the file. -/
def locate (file : File) (blocks : Slab Block) (pos : Nat) : Cursor :=
  (file.chain blocks).locate pos

/-- The stream position of a cursor, if its block is one of the file's. -/
def position (file : File) (blocks : Slab Block) (cursor : Cursor) : Option Nat :=
  (file.chain blocks).position cursor

/-- Counts bytes added past the previous end. -/
def grow (file : File) (count : Nat) : File := { file with size := file.size + count }

end File

end Filestore
