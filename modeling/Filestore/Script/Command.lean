import Filestore.Text.Numeral.Basic
import Filestore.Text.Utf8.Basic

/-!
# `Filestore.Script.Command`: what a script line asks for

A `Command` is one line of a script, read. `Command.render` writes it as the plainest line that
asks for it: single spaces, numbers in decimal, a fill byte as a number, data as text.

Not every command can be said in a line. A file name with white space in it would be read as more
than one word, and data that are no text cannot be put in a line at all; `render` still gives some
line for them, with the gaps of the data shown. Which commands can be said, and that these are
exactly the ones that a line is ever read as, is in `Filestore.Proofs.Script.RoundTrip`.

Some commands have more than one line. `rm` is another word for `delete`, a fill byte may be a
character, and white space may be anything between the words; `render` picks one.
-/

set_option autoImplicit false

namespace Filestore

namespace Script

open Text

/-- What a script line asks for. -/
inductive Command where
  /-- Open a file by name, creating it if asked to. -/
  | openFile (name : String) (create : Bool)
  /-- Write bytes. -/
  | write (fd : Nat) (data : Bytes)
  /-- Write one byte a number of times. -/
  | fill (fd len : Nat) (byte : UInt8)
  /-- Read at most a number of bytes. -/
  | read (fd most : Nat)
  /-- Close a descriptor. -/
  | close (fd : Nat)
  /-- Delete a name. -/
  | delete (name : String)
  /-- Set the size of an open file. -/
  | resize (fd size : Nat)
  /-- Move a cursor to the start. -/
  | rewind (fd : Nat)
  /-- Show the statistics of a named file. -/
  | stat (name : String)
  /-- Show the statistics of an open file. -/
  | statOpen (fd : Nat)
  /-- Show the digest of an open file. -/
  | digest (fd : Nat)
  /-- Show the names. -/
  | list
  /-- Show the outcome of the latest call. -/
  | lastError
  /-- Give up everything. -/
  | destroy
  deriving DecidableEq, Repr

namespace Command

/-- Words with one space between them. -/
def spaced (words : List (List Char)) : List Char := [' '].intercalate words

/-- The plainest line that asks for a command. Data that are no text are shown with gaps. -/
def render : Command → List Char
  | .openFile name create =>
    spaced (["open".toList, name.toList] ++ if create then ["create".toList] else [])
  | .write fd data => spaced ["write".toList, Numeral.render fd, Utf8.decodeLossy data]
  | .fill fd len byte =>
    spaced ["fill".toList, Numeral.render fd, Numeral.render len, Numeral.render byte.toNat]
  | .read fd most => spaced ["read".toList, Numeral.render fd, Numeral.render most]
  | .close fd => spaced ["close".toList, Numeral.render fd]
  | .delete name => spaced ["delete".toList, name.toList]
  | .resize fd size => spaced ["resize".toList, Numeral.render fd, Numeral.render size]
  | .rewind fd => spaced ["rewind".toList, Numeral.render fd]
  | .stat name => spaced ["stat".toList, name.toList]
  | .statOpen fd => spaced ["fstat".toList, Numeral.render fd]
  | .digest fd => spaced ["digest".toList, Numeral.render fd]
  | .list => "ls".toList
  | .lastError => "errno".toList
  | .destroy => "destroy".toList

end Command

end Script

end Filestore
