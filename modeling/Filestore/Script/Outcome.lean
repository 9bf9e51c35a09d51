import Filestore.Digest
import Filestore.Error
import Filestore.File.Basic
import Filestore.Json
import Filestore.Text.Utf8.Basic

/-!
# `Filestore.Script.Outcome`: what a command shows

The result of a command that succeeded, as lines of text for a reader (`Outcome.text`) and as JSON
fields for a program (`Outcome.fields`). Bytes read are shown as text in both, with a sign in
place of what is no text; the number of bytes in the JSON form is that of the bytes and not of the
characters shown.

Every result is one line of text, with two exceptions. The names take a line each, so no names
take none at all. And bytes read are written as they are, so that they may contain line ends of
their own. In JSON every result is one object, and its first field says which command it is of.

A write that did not store everything succeeded all the same. Its result says how many bytes were
stored and what the store remembers of it, and the text adds a remark.
-/

set_option autoImplicit false

namespace Filestore

namespace Script

open Text

/-- The result of a command that succeeded. -/
inductive Outcome where
  /-- A file is open. -/
  | opened (name : String) (fd : Nat)
  /-- Bytes are stored, with what the store remembers of it. -/
  | written (fd count : Nat) (lastError : ErrorKind)
  /-- Bytes are read. -/
  | read (fd : Nat) (data : Bytes)
  /-- A descriptor is closed. -/
  | closed (fd : Nat)
  /-- A name is deleted. -/
  | deleted (name : String)
  /-- A file has a new size. -/
  | resized (fd size : Nat)
  /-- A cursor is at the start. -/
  | rewound (fd : Nat)
  /-- The statistics of a file. -/
  | stat (stat : Stat)
  /-- The digest of a file. -/
  | digest (fd : Nat) (digest : Digest)
  /-- The names. -/
  | names (names : List String)
  /-- What the store remembers. -/
  | lastError (kind : ErrorKind)
  /-- Everything is given up. -/
  | destroyed
  deriving DecidableEq, Repr

namespace Outcome

/-- Bytes read, as text. -/
def readable (data : Bytes) : String := String.ofList (Utf8.decodeLossy data)

/-- The remark on a write that did not store everything. -/
def shortfall : ErrorKind → String
  | .noError => ""
  | kind => " (short write: " ++ kind.label ++ ")"

/-- The remark on a file that has lost its name. -/
def lostName (stat : Stat) : String := if stat.deleted then ", deleted" else ""

/-- A result for a reader, each line ended. No names take no line. -/
def text : Outcome → String
  | .opened name fd => name ++ " -> fd " ++ toString fd ++ "\n"
  | .written _ count kind => "wrote " ++ toString count ++ " bytes" ++ shortfall kind ++ "\n"
  | .read _ data => readable data ++ "\n"
  | .closed fd => "closed fd " ++ toString fd ++ "\n"
  | .deleted name => "deleted " ++ name ++ "\n"
  | .resized fd size => "fd " ++ toString fd ++ " resized to " ++ toString size ++ " bytes\n"
  | .rewound fd => "fd " ++ toString fd ++ " rewound\n"
  | .stat s =>
    s.name ++ ": " ++ toString s.size ++ " bytes, " ++ toString s.blocks ++ " blocks, "
      ++ toString s.refs ++ " open" ++ lostName s ++ "\n"
  | .digest _ d => d.toHex ++ "\n"
  | .names all => String.join (all.map (· ++ "\n"))
  | .lastError kind => kind.label ++ "\n"
  | .destroyed => "destroyed\n"

/-- A result for a program. The first field says which it is. -/
def fields : Outcome → List Json.Field
  | .opened name fd => [("op", .text "open"), ("name", .text name), ("fd", .nat fd)]
  | .written fd count kind =>
    [("op", .text "write"), ("fd", .nat fd), ("written", .nat count),
      ("last_error", .text kind.label)]
  | .read fd data =>
    [("op", .text "read"), ("fd", .nat fd), ("len", .nat data.length),
      ("data", .text (readable data))]
  | .closed fd => [("op", .text "close"), ("fd", .nat fd)]
  | .deleted name => [("op", .text "delete"), ("name", .text name)]
  | .resized fd size => [("op", .text "resize"), ("fd", .nat fd), ("size", .nat size)]
  | .rewound fd => [("op", .text "rewind"), ("fd", .nat fd)]
  | .stat s =>
    [("op", .text "stat"), ("name", .text s.name), ("size", .nat s.size),
      ("blocks", .nat s.blocks), ("refs", .nat s.refs), ("deleted", .bool s.deleted)]
  | .digest fd d => [("op", .text "digest"), ("fd", .nat fd), ("digest", .text d.toHex)]
  | .names all => [("op", .text "ls"), ("files", .texts all)]
  | .lastError kind => [("op", .text "errno"), ("last_error", .text kind.label)]
  | .destroyed => [("op", .text "destroy")]

/-- A result as a JSON object. -/
def json (outcome : Outcome) : String := Json.object outcome.fields

end Outcome

end Script

end Filestore
