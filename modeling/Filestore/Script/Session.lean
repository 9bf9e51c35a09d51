import Filestore.Script.Command
import Filestore.Script.Outcome
import Filestore.Store.Fill
import Filestore.Store.Inspect
import Filestore.Store.Naming
import Filestore.Store.Resize

/-!
# `Filestore.Script.Session`: commands against a store

A `Session` is a store and the number of commands executed on it, failed ones included.

`Session.executeOn` says which operation each command is, and which parts of its result are shown.
A write and a fill show the outcome that the store remembers after them, because a short one gives
a count and not a failure. Three commands cannot fail: listing the names, asking for the latest
outcome, and giving everything up. The first two leave the store as it was, so that the outcome of
the call before them can be asked for more than once; a command that fails to be executed at all,
because its line is no command, does not reach the session.
-/

set_option autoImplicit false

namespace Filestore

namespace Script

/-- A store and the commands executed on it. -/
structure Session where
  /-- The store. -/
  store : Store
  /-- How many commands were executed, failed ones included. -/
  executed : Nat
  deriving DecidableEq, Repr

namespace Session

/-- A session that has executed nothing. -/
def start (config : Config) : Session := ⟨Store.empty config, 0⟩

/-- Executes a command on a store. -/
def executeOn (store : Store) : Command → Except Error Outcome × Store
  | .openFile name create => (store.openFile name create).map (·.map (.opened name)) id
  | .write fd data =>
    let (result, next) := store.write fd data
    (result.map (.written fd · next.lastError), next)
  | .fill fd len byte =>
    let (result, next) := store.fill fd len byte
    (result.map (.written fd · next.lastError), next)
  | .read fd most => (store.readUpTo fd most).map (·.map (.read fd)) id
  | .close fd => (store.close fd).map (·.map fun _ => .closed fd) id
  | .delete name => (store.delete name).map (·.map fun _ => .deleted name) id
  | .resize fd size => (store.resize fd size).map (·.map fun _ => .resized fd size) id
  | .rewind fd => (store.rewind fd).map (·.map fun _ => .rewound fd) id
  | .stat name => (store.stat name).map (·.map .stat) id
  | .statOpen fd => (store.statOpen fd).map (·.map .stat) id
  | .digest fd => (store.digest fd).map (·.map (.digest fd)) id
  | .list => (.ok (.names store.names), store)
  | .lastError => (.ok (.lastError store.lastError), store)
  | .destroy => (.ok .destroyed, store.destroy)

/-- Executes a command. -/
def execute (session : Session) (command : Command) : Except Error Outcome × Session :=
  let (result, store) := executeOn session.store command
  (result, ⟨store, session.executed + 1⟩)

end Session

end Script

end Filestore
