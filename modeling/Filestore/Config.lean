import Filestore.Error

/-!
# `Filestore.Config`: the settings of a store

A `Config` is a pair of settings already known to be usable: the block size is between 1 and
`Config.maxBlockSize`, and the type says so. `Config.ofSettings` is the only place where settings
are refused, with a wording for each of the two reasons; every other function takes a `Config` and
has nothing left to check.

The size limit bounds every file on its own, not the store as a whole. Without a limit a file
grows as long as there is memory. `Config.atLimit` is the test that is made before a block is
added: a file at the limit gets no more blocks, so that no block stays empty at the end of a file.
How many bytes of a write fit under the limit is a matter of the write, and `Filestore.Stream` has
it.
-/

set_option autoImplicit false

namespace Filestore

/-- Settings of a store: how large every block is, and how large a file may grow. -/
structure Config where
  /-- Capacity of every block, in bytes. -/
  blockSize : Nat
  /-- Upper bound on the size of a file; `none` lifts it. -/
  sizeLimit : Option Nat
  /-- A block holds at least one byte. -/
  blockSize_pos : 0 < blockSize
  /-- A block size is a 32-bit number. -/
  blockSize_lt : blockSize < 4294967296
  deriving DecidableEq, Repr

namespace Config

/-- The largest block size, in bytes. -/
def maxBlockSize : Nat := 4294967295

/-- The block size where nothing else is asked for. -/
def defaultBlockSize : Nat := 512

/-- The size limit where nothing else is asked for: 100 MiB. -/
def defaultSizeLimit : Nat := 104857600

/-- Settings become a configuration unless no block, or no block within bounds, could be built. -/
def ofSettings (blockSize : Nat) (sizeLimit : Option Nat) : Except Error Config :=
  if hpos : 0 < blockSize then
    if hlt : blockSize < 4294967296 then
      .ok ⟨blockSize, sizeLimit, hpos, hlt⟩
    else
      .error (.invalidConfig
        ("block size " ++ toString blockSize ++ " exceeds " ++ toString maxBlockSize ++ " bytes"))
  else
    .error (.invalidConfig "block size must be non-zero")

/-- The settings where nothing else is asked for. -/
def standard : Config :=
  ⟨defaultBlockSize, some defaultSizeLimit, by decide, by decide⟩

instance : Inhabited Config := ⟨standard⟩

/-- Whether a file of `size` bytes has no room left under the limit. -/
def atLimit (config : Config) (size : Nat) : Bool :=
  match config.sizeLimit with
  | none => false
  | some limit => decide (limit ≤ size)

end Config

end Filestore
