/-!
# `Filestore.Bytes`: byte strings

Everything the store keeps is a byte string. A list is the plainest form of one: a file's contents
are the concatenation of its blocks (`Filestore.Chain.contents`), a write overwrites a segment
(`Bytes.overwrite`), a truncation is `List.take`, and an extension appends a `List.replicate` of
zeros. So the properties of files are stated with the operations of lists and proved with the
library's lemmas about them.

`Bytes.overwrite` is the one operation that lists do not have. It is defined so that the bytes are
not copied where nothing follows, which is how almost all blocks are written;
`overwrite_eq_append` is the equation that proofs use instead of that case distinction.

`Bytes.toHex` shows a byte string in hexadecimal, two lower-case digits to a byte. Commands that
read and digests of contents are reported in this form.
-/

set_option autoImplicit false

namespace Filestore

/-- A byte string. -/
abbrev Bytes := List UInt8

namespace Bytes

/-- The bytes `src` instead of the first bytes of `bytes`, and past their end where `src` is
longer. -/
def overwrite (src bytes : Bytes) : Bytes :=
  match bytes.drop src.length with
  -- Where nothing follows, there is no need to copy.
  | [] => src
  | rest => src ++ rest

/-- What is not overwritten follows the bytes written. This is the equation to reason with: the
definition itself distinguishes whether anything follows at all. -/
theorem overwrite_eq_append (src bytes : Bytes) :
    overwrite src bytes = src ++ bytes.drop src.length := by
  unfold overwrite
  split
  · rename_i h
    rw [h, List.append_nil]
  · rfl

/-- Overwriting makes a byte string longer only by what goes past its end: the result is as long
as the longer one of the two. -/
@[simp] theorem length_overwrite (src bytes : Bytes) :
    (overwrite src bytes).length = max src.length bytes.length := by
  rw [overwrite_eq_append, List.length_append, List.length_drop]
  omega

/-- The two lower-case hexadecimal digits of a byte, high half first. -/
def hexPair (byte : UInt8) : List Char :=
  [Nat.digitChar (byte.toNat / 16), Nat.digitChar (byte.toNat % 16)]

/-- A byte string in lower-case hexadecimal. -/
def toHex (bytes : Bytes) : String :=
  String.ofList (bytes.flatMap hexPair)

end Bytes

end Filestore
