import Filestore.Store.Inspect
import Filestore.Store.Naming
import Filestore.Store.Resize
import Filestore.Store.Transfer

/-!
# `Filestore.Store.Call`: the calls a store answers

`Call` is the store's interface as data and `Answer` what a call that succeeds gives back.
`Store.perform` answers one call and `Store.performAll` a list of them, so that a statement about
all uses of a store is one about lists of calls. `Store.Reachable` says the same without the list:
it is the stores that calls lead to, and an induction over it has one case for a call.

Each call is one operation and nothing else, so that what is proved of `perform` is proved of the
operations. Two ways of using a store are not calls of their own. Filling with one byte is a
number of writes (`Filestore.Store.Fill`), hence a list of calls, and asking for the kind of the
latest outcome reads a field.

Listing the names and giving up everything cannot fail. Listing leaves the store as it was, the
remembered outcome included; giving up leaves the empty store, which remembers nothing.
-/

set_option autoImplicit false

namespace Filestore

/-- A call with its arguments. -/
inductive Call where
  /-- Opens a file by name, creating it if asked to. -/
  | openFile (name : String) (create : Bool)
  /-- Writes bytes at a cursor. -/
  | write (fd : Nat) (data : Bytes)
  /-- Reads into a buffer of `want` bytes at a cursor. -/
  | read (fd want : Nat)
  /-- Reads at most `most` bytes at a cursor. -/
  | readUpTo (fd most : Nat)
  /-- Closes a descriptor. -/
  | close (fd : Nat)
  /-- Deletes a name. -/
  | delete (name : String)
  /-- Sets the size of a file. -/
  | resize (fd size : Nat)
  /-- Moves a cursor to the start. -/
  | rewind (fd : Nat)
  /-- Asks for the statistics of a named file. -/
  | stat (name : String)
  /-- Asks for the statistics of an open file. -/
  | statOpen (fd : Nat)
  /-- Asks for the digest of an open file. -/
  | digest (fd : Nat)
  /-- Asks for the names. -/
  | names
  /-- Gives up everything. -/
  | destroy
  deriving DecidableEq, Repr

/-- What a call that succeeds gives back. -/
inductive Answer where
  /-- The number of a descriptor. -/
  | descriptor (fd : Nat)
  /-- A number of bytes. -/
  | count (bytes : Nat)
  /-- Bytes. -/
  | data (bytes : Bytes)
  /-- The statistics of a file. -/
  | stat (stat : Stat)
  /-- The digest of a file. -/
  | digest (digest : Digest)
  /-- The names. -/
  | names (names : List String)
  /-- Nothing but success. -/
  | done
  deriving DecidableEq, Repr

namespace Store

/-- Answers a call. -/
def perform (store : Store) : Call → Except Error Answer × Store
  | .openFile name create => (store.openFile name create).map (·.map .descriptor) id
  | .write fd data => (store.write fd data).map (·.map .count) id
  | .read fd want => (store.read fd want).map (·.map .data) id
  | .readUpTo fd most => (store.readUpTo fd most).map (·.map .data) id
  | .close fd => (store.close fd).map (·.map fun _ => .done) id
  | .delete name => (store.delete name).map (·.map fun _ => .done) id
  | .resize fd size => (store.resize fd size).map (·.map fun _ => .done) id
  | .rewind fd => (store.rewind fd).map (·.map fun _ => .done) id
  | .stat name => (store.stat name).map (·.map .stat) id
  | .statOpen fd => (store.statOpen fd).map (·.map .stat) id
  | .digest fd => (store.digest fd).map (·.map .digest) id
  | .names => (.ok (.names store.names), store)
  | .destroy => (.ok .done, store.destroy)

/-- Answers calls one after another. -/
def performAll (store : Store) : List Call → List (Except Error Answer) × Store
  | [] => ([], store)
  | call :: calls =>
    let (answer, next) := store.perform call
    let (answers, last) := next.performAll calls
    (answer :: answers, last)

/-- The stores that calls lead to from an empty one. -/
inductive Reachable (config : Config) : Store → Prop where
  /-- The empty store. -/
  | empty : Reachable config (Store.empty config)
  /-- The store that a call leaves. -/
  | perform {store : Store} (call : Call) :
    Reachable config store → Reachable config (store.perform call).2

end Store

end Filestore
