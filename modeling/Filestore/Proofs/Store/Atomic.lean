import Mathlib.Control.Monad.Basic
import Filestore.Proofs.Store.Reachable

/-!
# `Filestore.Proofs.Store.Atomic`: a call that fails changes nothing

A call that fails leaves the store as it was, but for the outcome that the store remembers. The
store is the same one to the last detail: the slots of both slabs with their free lists, the
names, the numbers in use, and every cursor, the one that the call worked on among them.

Most calls complain before they change anything. A write is the exception, since it moves its
cursor, and may append a block, before it asks how many bytes the size limit leaves room for. That
a write that fails leaves no trace rests on `Stream.Written.Complete.unchanged`: a write that
comes to a new block stores a byte there, so one that stored nothing came to none. A read moves
its cursor too, but in a sound store it fails only where its number is not open or the buffer
would be too long, and both are found out before the first block.

## Outline

* `Store.Atomic` is the property of an outcome, a result with the store beside it. `atomic_of_ok`
  and `atomic_conclude` are the two ways to have it at once.
* One lemma for each call follows the cases of the spec lemma of that call.
* `Sound.perform_atomic` puts them together, one case for each call, and
  `Reachable.eq_of_perform_eq_error` is the main result.
-/

set_option autoImplicit false

namespace Filestore

namespace Store

/-- If the outcome is a failure, nothing but its kind is left of it: the store beside the result
is the one before, with the kind of the failure in the place of the remembered outcome. -/
def Atomic {α : Type} (store : Store) (outcome : Except Error α × Store) : Prop :=
  ∀ e, outcome.1 = .error e → outcome.2 = { store with lastError := e.kind }

variable {config : Config} {store : Store} {fd : Nat} {descriptor : Descriptor} {file : File}

/-- A call that ends at once remembers its result and does nothing else, so there is nothing to be
undone when the result is a failure. -/
theorem atomic_conclude {α : Type} (store : Store) (result : Except Error α) :
    Atomic store (store.conclude result) := by
  intro e herror
  cases (show result = .error e from herror)
  rfl

/-- A call that succeeds does not fail, and so is atomic whatever it made of the store. This is
what closes the successful case of every lemma below. -/
theorem atomic_of_ok {α : Type} {outcome : Except Error α × Store} {value : α}
    (h : outcome.1 = .ok value) : Atomic store outcome :=
  fun _ herror => nomatch h.symm.trans herror

/-- What is made of a result and of the store beside it fails as the result does, with the same
error and the same store. A session reports on both after a write and after a fill. -/
theorem Atomic.map_with {α β : Type} {outcome : Except Error α × Store} (h : Atomic store outcome)
    (f : Store → α → β) : Atomic store (outcome.1.map (f outcome.2), outcome.2) := by
  obtain ⟨result, next⟩ := outcome
  intro e herror
  cases result with
  | ok value => cases herror
  | error cause =>
    cases herror
    exact h e rfl

/-- What is made of a result alone fails as the result does. So the wrapping of a result in an
`Answer` does not matter. -/
theorem Atomic.map {α β : Type} {outcome : Except Error α × Store} (h : Atomic store outcome)
    (f : α → β) : Atomic store (outcome.map (·.map f) id) :=
  h.map_with fun _ => f

/-- A stream that is put back as it was taken out leaves no trace: writing to a slot what is in
the slot changes neither the slab of files nor the table. -/
theorem putStream_self (hget : store.descriptors.get? fd = some descriptor)
    (hfile : store.file? descriptor.file = some file) :
    store.putStream fd descriptor.file ⟨file, store.blocks, descriptor.cursor⟩ = store := by
  have hset : store.catalog.set descriptor.file file = store.catalog := by
    rw [Catalog.set, Slab.set_get? hfile]
  rw [putStream, hset, DescriptorTable.setCursor_cursor hget]

-- One lemma for each call that may fail. Each follows the cases of the spec lemma.

/-- Opening fails only for a name that does not exist and is not to be created, before a file is
made or a descriptor is taken. -/
theorem Sound.openFile_atomic (h : store.Sound) (name : String) (create : Bool) :
    Atomic store (store.openFile name create) := by
  rcases h.openFile_cases name create with ⟨id, file, -, -, hopen⟩ | ⟨-, -, hopen⟩ |
    ⟨-, -, hopen⟩ <;> rw [hopen]
  · exact atomic_of_ok rfl
  · exact atomic_of_ok rfl
  · exact atomic_conclude store _

/-- A write fails only if it stored nothing. Then it came to no other block either, since a block
that it comes to takes at least one byte, so its stream is the one that it got. -/
theorem Sound.write_atomic (h : store.Sound) (fd : Nat) (data : Bytes) :
    Atomic store (store.write fd data) := by
  rcases h.opened_cases fd with ⟨-, hopened⟩ | ⟨descriptor, file, hget, hfile, hopened⟩ <;>
    simp only [Store.write, hopened]
  · exact atomic_conclude store _
  · split
    · exact atomic_conclude store _
    · rename_i hsome
      obtain ⟨pos, hstands⟩ := h.exists_stands hget
      have hdata : data ≠ [] := fun hnil => hsome (List.isEmpty_iff.mpr hnil)
      have hcomplete := (h.resting hget hfile hstands).write_complete hdata fd
      split
      · exact atomic_of_ok rfl
      · split
        · -- The write is refused for good only if it stored nothing, and then its stream is the
          -- one that it got.
          rename_i hzero
          rw [hcomplete.unchanged hzero, putStream_self hget hfile]
          exact atomic_conclude store _
        · exact atomic_of_ok rfl

/-- A read through an open descriptor of a sound store does not fail at all, and through any other
number it does nothing but say so. -/
theorem Sound.read_atomic (h : store.Sound) (fd want : Nat) :
    Atomic store (store.read fd want) := by
  rcases h.opened_cases fd with ⟨-, hopened⟩ | ⟨descriptor, file, hget, -, -⟩
  · simp only [Store.read, hopened]
    exact atomic_conclude store _
  · obtain ⟨pos, hstands⟩ := h.exists_stands hget
    obtain ⟨bytes, -, hread, -⟩ := h.read_spec hget hstands want
    exact atomic_of_ok hread

/-- A read into a buffer fails where the number is not open or the buffer would be too long, and
in either case before anything is read. -/
theorem Sound.readUpTo_atomic (h : store.Sound) (fd most : Nat) :
    Atomic store (store.readUpTo fd most) := by
  rcases h.opened_cases fd with ⟨-, hopened⟩ | ⟨descriptor, file, -, -, hopened⟩ <;>
    simp only [Store.readUpTo, hopened]
  · exact atomic_conclude store _
  · split
    · exact h.read_atomic fd _
    · exact atomic_conclude store _

/-- Closing fails only for a number that is not open, and does not look at a file then. -/
theorem Sound.close_atomic (h : store.Sound) (fd : Nat) : Atomic store (store.close fd) := by
  rcases h.close_cases fd with ⟨-, hclose⟩ |
    ⟨descriptor, file, left, -, -, -, -, ⟨-, -, hclose⟩ | ⟨-, hclose⟩⟩ <;> rw [hclose]
  · exact atomic_conclude store _
  · exact atomic_of_ok rfl
  · exact atomic_of_ok rfl

/-- Deleting fails only for a name that does not exist, and leaves the directory alone then. -/
theorem Sound.delete_atomic (h : store.Sound) (name : String) :
    Atomic store (store.delete name) := by
  rcases h.delete_cases name with ⟨-, hdelete⟩ |
    ⟨id, file, -, -, ⟨-, hdelete⟩ | ⟨-, hdelete⟩⟩ <;> rw [hdelete]
  · exact atomic_conclude store _
  · exact atomic_of_ok rfl
  · exact atomic_of_ok rfl

/-- A resize fails where the number is not open or the limit does not allow the size. The size
that it allows is always reached, so no resize ends half way. -/
theorem Sound.resize_atomic (h : store.Sound) (fd size : Nat) :
    Atomic store (store.resize fd size) := by
  rcases h.opened_cases fd with ⟨-, hopened⟩ | ⟨descriptor, file, hget, hfile, -⟩
  · simp only [Store.resize, hopened]
    exact atomic_conclude store _
  · rcases h.resize_spec hget hfile size with ⟨-, hresize⟩ | ⟨-, hresize, -⟩
    · rw [hresize]
      exact atomic_conclude store _
    · exact atomic_of_ok hresize

/-- A rewind fails only for a number that is not open, in any store, sound or not, because it does
not look at the file behind the number. -/
theorem rewind_atomic (store : Store) (fd : Nat) : Atomic store (store.rewind fd) := by
  unfold Store.rewind
  split
  · exact atomic_conclude store _
  · exact atomic_of_ok rfl

/-- Asking about a name changes nothing whether or not the name exists, but the answer is
remembered. -/
theorem stat_atomic (store : Store) (name : String) : Atomic store (store.stat name) := by
  unfold Store.stat
  split <;> exact atomic_conclude store _

/-- Every call is atomic in a sound store. There is one case for each call, by the lemmas above,
and the calls that only ask are atomic because they conclude at once. -/
theorem Sound.perform_atomic (h : store.Sound) (call : Call) :
    Atomic store (store.perform call) := by
  cases call with
  | openFile name create => exact (h.openFile_atomic name create).map _
  | write fd data => exact (h.write_atomic fd data).map _
  | read fd want => exact (h.read_atomic fd want).map _
  | readUpTo fd most => exact (h.readUpTo_atomic fd most).map _
  | close fd => exact (h.close_atomic fd).map _
  | delete name => exact (h.delete_atomic name).map _
  | resize fd size => exact (h.resize_atomic fd size).map _
  | rewind fd => exact (store.rewind_atomic fd).map _
  | stat name => exact (store.stat_atomic name).map _
  | statOpen fd => exact (atomic_conclude store _).map _
  | digest fd => exact (atomic_conclude store _).map _
  | names => exact atomic_of_ok rfl
  | destroy => exact atomic_of_ok rfl

/-- Whatever calls were made before, a call that fails leaves the store as it was, but for the
outcome that the store remembers, which is the kind of the failure. -/
theorem Reachable.eq_of_perform_eq_error (h : Reachable config store) {call : Call} {e : Error}
    (herror : (store.perform call).1 = .error e) :
    (store.perform call).2 = { store with lastError := e.kind } :=
  h.sound.perform_atomic call e herror

/-- A write at the end of a full block goes on to another block, which the limit does not let the
file have. The cursor stays at the end of the full block, and that block stays the last one. -/
theorem eq_of_perform_eq_error_full :
    let config : Config := ⟨4, some 4, by decide, by decide⟩
    let store := ((empty config).performAll [.openFile "a" true, .write 0 [1, 2, 3, 4]]).2
    Reachable config store ∧
      (store.perform (.write 0 [5])).1 = .error (.fileTooLarge "a" 4) ∧
      (store.perform (.write 0 [5])).2 = { store with lastError := .fileTooLarge } := by
  intro config store
  have h : Reachable config store := reachable_iff_exists_performAll.mpr ⟨_, rfl⟩
  have herror : (store.perform (.write 0 [5])).1 = .error (.fileTooLarge "a" 4) := by decide
  exact ⟨h, herror, h.eq_of_perform_eq_error herror⟩

end Store

end Filestore
