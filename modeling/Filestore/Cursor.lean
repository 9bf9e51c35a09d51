import Filestore.Block

/-!
# `Filestore.Cursor`: where a descriptor stands

A `Cursor` names a block and an offset in it, not a number of bytes from the start of the file. To
go on from a cursor, a read or a write therefore needs no walk along the file; what it needs is
that the block is still there, and truncating a file moves the cursors that would lose theirs.

A cursor without a block (`Cursor.unset`) has not touched its file yet and stands at the start. It
is the cursor of every descriptor that was just opened, also where the file has blocks, and it
stays good when the file loses all of them. The end of one block and the start of the next are two
cursors of one position; `Filestore.Chain.position` gives the position, and
`Filestore.Chain.locate` picks the earlier one of the two.
-/

set_option autoImplicit false

namespace Filestore

/-- The place of the next byte to read or write. -/
structure Cursor where
  /-- The block; `none` stands for the start of a file not yet touched. -/
  block : Option BlockId
  /-- The offset in that block. -/
  offset : Nat
  deriving DecidableEq, Repr, Inhabited

namespace Cursor

/-- The cursor of a descriptor that has not touched its file. -/
def unset : Cursor := ⟨none, 0⟩

/-- The cursor at an offset in a block. -/
def inBlock (block : BlockId) (offset : Nat) : Cursor := ⟨some block, offset⟩

/-- Whether the cursor names no block. -/
def isUnset (cursor : Cursor) : Bool := cursor.block.isNone

end Cursor

end Filestore
