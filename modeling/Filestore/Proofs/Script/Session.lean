import Filestore.Proofs.Store.Fill
import Filestore.Script.Session

/-!
# `Filestore.Proofs.Script.Session`: commands on a sound store

The commands `ls` and `errno` only look at the store (`Command.looks`). Every other command is one
call of the store, or a fill. So commands leave a sound store (`Session.sound_executeAll`), and a
command that fails leaves the store as it was, but for the outcome that the store remembers
(`Session.executeOn_atomic`).

What the store remembers at the beginning of a command matters only to commands that look: all
others set it without having looked at it (`executeOn_with_lastError`). That is why two runs whose
stores differ in nothing else come to the same results as long as no `errno` is among their
commands.

Nothing here depends on how commands are read from lines. Whatever is said of commands is said of
lists of them, and `Session.executeAll` gives the result of each along with the last session.
-/

set_option autoImplicit false

namespace Filestore

namespace Script

/-- Whether a command only looks at the store, and leaves what the store remembers as it is. -/
def Command.looks : Command → Bool
  | .list => true
  | .lastError => true
  | _ => false

namespace Session

open Store

variable {store : Store}

/-- A command that only looks leaves the store as it is, what it remembers included. -/
theorem executeOn_of_looks {command : Command} (hlooks : command.looks = true) (store : Store) :
    (executeOn store command).2 = store := by
  cases command <;> first | rfl | cases hlooks

/-- A command that does more than look does not depend on what the store remembers. -/
theorem executeOn_with_lastError {command : Command} (hlooks : command.looks = false)
    (store : Store) (kind : ErrorKind) :
    executeOn { store with lastError := kind } command = executeOn store command := by
  cases command <;> first | rfl | cases hlooks

/-- A command leaves a store that continues a sound one: the store is sound, and its settings are
the same. -/
theorem continues_executeOn (h : store.Sound) (command : Command) :
    store.Continues (executeOn store command).2 := by
  cases command with
  | openFile name create => exact h.continues_openFile name create
  | write fd data => exact h.continues_write fd data
  | fill fd len byte => exact h.continues_fill fd len byte
  | read fd most => exact h.continues_readUpTo fd most
  | close fd => exact h.continues_close fd
  | delete name => exact h.continues_delete name
  | resize fd size => exact h.continues_resize fd size
  | rewind fd => exact h.continues_rewind fd
  | stat name => exact h.continues (.stat name)
  | statOpen fd => exact h.reports _
  | digest fd => exact h.reports _
  | list => exact ⟨h, rfl⟩
  | lastError => exact ⟨h, rfl⟩
  | destroy => exact ⟨sound_empty store.config, rfl⟩

/-- A command that fails leaves the store as it was, but for the outcome that is remembered. A
fill fails only if its first write does. -/
theorem executeOn_atomic (h : store.Sound) (command : Command) :
    store.Atomic (executeOn store command) := by
  cases command with
  | openFile name create => exact (h.openFile_atomic name create).map _
  | write fd data =>
    exact (h.write_atomic fd data).map_with fun next count =>
      Outcome.written fd count next.lastError
  | fill fd len byte =>
    exact (h.fill_atomic fd len byte).map_with fun next count =>
      Outcome.written fd count next.lastError
  | read fd most => exact (h.readUpTo_atomic fd most).map _
  | close fd => exact (h.close_atomic fd).map _
  | delete name => exact (h.delete_atomic name).map _
  | resize fd size => exact (h.resize_atomic fd size).map _
  | rewind fd => exact (store.rewind_atomic fd).map _
  | stat name => exact (store.stat_atomic name).map _
  | statOpen fd => exact (atomic_conclude store _).map _
  | digest fd => exact (atomic_conclude store _).map _
  | list => exact atomic_of_ok rfl
  | lastError => exact atomic_of_ok rfl
  | destroy => exact atomic_of_ok rfl

/-- Executes commands one after another. -/
def executeAll (session : Session) : List Command → List (Except Error Outcome) × Session
  | [] => ([], session)
  | command :: commands =>
    let (result, next) := session.execute command
    let (results, last) := next.executeAll commands
    (result :: results, last)

/-- Commands leave a sound store, however many there are and whatever came of them. -/
theorem sound_executeAll {session : Session} (h : session.store.Sound) (commands : List Command) :
    (session.executeAll commands).2.store.Sound := by
  induction commands generalizing session with
  | nil => exact h
  | cons command commands ih => exact ih (continues_executeOn h command).sound

end Session

end Script

end Filestore
