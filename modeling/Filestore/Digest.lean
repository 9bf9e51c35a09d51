import Filestore.Blake3

/-!
# `Filestore.Digest`: digests of contents

A `Digest` is the hash of a byte string: 32 bytes, compared as bytes. It has two written forms.
The one that commands report is `Digest.toHex`, 64 lower-case digits. The one for inspecting
values, `Digest.labelled`, says in addition that the digits are a digest, and `Repr` uses it.

A digest is of the whole contents of a file, wherever a cursor stands. Two files of the same
contents have the same digest however their bytes are spread over blocks, because the hash is
taken of the byte string and not of the blocks.
-/

set_option autoImplicit false

namespace Filestore

/-- The hash of a byte string. -/
structure Digest where
  /-- The bytes of the hash. -/
  bytes : Bytes
  deriving DecidableEq

namespace Digest

/-- The digest of a byte string. -/
def ofBytes (bytes : Bytes) : Digest := ⟨Blake3.hash bytes⟩

/-- The digest in lower-case hexadecimal. -/
def toHex (digest : Digest) : String := digest.bytes.toHex

/-- The digest in hexadecimal, labelled as a digest. -/
def labelled (digest : Digest) : String := "Digest(" ++ digest.toHex ++ ")"

instance : Repr Digest := ⟨fun digest _ => digest.labelled⟩

end Digest

end Filestore
