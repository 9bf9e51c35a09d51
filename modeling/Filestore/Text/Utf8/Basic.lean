import Filestore.Bytes

/-!
# `Filestore.Text.Utf8.Basic`: text as bytes

UTF-8 in both directions. Decoding goes byte by byte with the character begun so far, if one is:
`scan` gives a character for every complete encoding, and one gap for every longest stretch that
begins an encoding and cannot be completed. `decode?` accepts no gap; `decodeLossy` shows each as
U+FFFD.

How long a gap is matters, since each is shown once. A byte that does not fit the character begun
ends that character as one gap and is then looked at afresh, so it may begin a character of its
own. A first byte that begins nothing is a gap by itself. Encodings longer than need be,
surrogates and code points past U+10FFFF are ruled out at the second byte by the range it has to
be in (`lead`), so they are cut into gaps before they are complete.

Encoding is the one of the standard library, a character at a time.
-/

set_option autoImplicit false

namespace Filestore

namespace Text

namespace Utf8

/-- A character begun and not yet complete. -/
structure Partial where
  /-- How many bytes are still owed, less one. -/
  owed : Nat
  /-- The least byte that may come next. -/
  low : UInt8
  /-- The greatest byte that may come next. -/
  high : UInt8
  /-- The bits of the code point so far. -/
  bits : Nat
  deriving DecidableEq, Repr

/-- What a byte is that comes first. -/
inductive Lead where
  /-- A character of its own. -/
  | whole (c : Char)
  /-- The start of a longer encoding. -/
  | begun (state : Partial)
  /-- No start of any encoding. -/
  | bad
  deriving DecidableEq, Repr

/-- What a byte is that comes first. The ranges for the second byte leave out encodings longer than
need be, surrogates, and code points past U+10FFFF. -/
def lead (byte : UInt8) : Lead :=
  let bits := byte.toNat
  if bits < 0x80 then .whole (Char.ofNat bits)
  else if bits < 0xC2 then .bad
  else if bits < 0xE0 then .begun ⟨0, 0x80, 0xBF, bits - 0xC0⟩
  else if bits = 0xE0 then .begun ⟨1, 0xA0, 0xBF, 0⟩
  else if bits = 0xED then .begun ⟨1, 0x80, 0x9F, 0xD⟩
  else if bits < 0xF0 then .begun ⟨1, 0x80, 0xBF, bits - 0xE0⟩
  else if bits = 0xF0 then .begun ⟨2, 0x90, 0xBF, 0⟩
  else if bits < 0xF4 then .begun ⟨2, 0x80, 0xBF, bits - 0xF0⟩
  else if bits = 0xF4 then .begun ⟨2, 0x80, 0x8F, 4⟩
  else .bad

/-- The characters and gaps of a byte string that continues the character begun, if one is. -/
def scan : Option Partial → Bytes → List (Option Char)
  | none, [] => []
  | some _, [] => [none]
  | none, byte :: rest =>
    match lead byte with
    | .whole c => some c :: scan none rest
    | .begun state => scan (some state) rest
    | .bad => none :: scan none rest
  | some state, byte :: rest =>
    if state.low ≤ byte ∧ byte ≤ state.high then
      let bits := state.bits * 64 + (byte.toNat - 0x80)
      match state.owed with
      | 0 => some (Char.ofNat bits) :: scan none rest
      | owed + 1 => scan (some ⟨owed, 0x80, 0xBF, bits⟩) rest
    else
      -- The character begun ends as a gap, and this byte starts afresh.
      match lead byte with
      | .whole c => none :: some c :: scan none rest
      | .begun next => none :: scan (some next) rest
      | .bad => none :: none :: scan none rest

/-- The characters of a byte string without gaps. -/
def decode? (bytes : Bytes) : Option (List Char) := (scan none bytes).mapM id

/-- The characters of a byte string, with U+FFFD for every gap. -/
def decodeLossy (bytes : Bytes) : List Char := (scan none bytes).map (·.getD '\uFFFD')

/-- The bytes of a text. -/
def encode (text : List Char) : Bytes := text.flatMap String.utf8EncodeChar

end Utf8

end Text

end Filestore
