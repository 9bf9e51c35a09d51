import Filestore.Proofs.Store.Naming
import Filestore.Proofs.Store.Resize
import Filestore.Proofs.Store.Transfer
import Filestore.Store.Call

/-!
# `Filestore.Proofs.Store.Reachable`: every store that calls lead to is sound

A store `Store.Continues` another one when it is sound and has its settings. `Sound.continues` has
one case for each call and says that a call leaves a store that continues a sound one. By
induction on the calls, so does any list of them (`Sound.continues_performAll`), and the stores
that calls lead to from the empty one are sound (`sound_performAll`).

They are the reachable ones (`reachable_iff_exists_performAll`), which are defined by a rule for
the empty store and one for a call. Statements about what comes after a history of calls use
whichever of the two is nearer: a claim about a store and a call takes `Reachable`, and one about
a whole run takes the list.

The lemma of each call follows the cases of its spec lemma and names the change that each of them
is. A change of one file is an `Edited`, an `Adjusted` or a `Discarded` store, all of which are
sound by what they say.
-/

set_option autoImplicit false

namespace Filestore

namespace Store

/-- The store is sound and has the settings of the one before. This is what every call preserves.
- `sound`: the parts of the store agree.
- `config_eq`: the settings stay. -/
structure Continues (store store' : Store) : Prop where
  sound : store'.Sound
  config_eq : store'.config = store.config

variable {config : Config} {store store' : Store} {id : FileId} {bytes : Bytes}
  {place : Nat → Nat → Nat}

/-- A call that only reports leaves the store as it was but for the outcome, which no part of
soundness looks at. -/
theorem Sound.reports (h : store.Sound) (kind : ErrorKind) :
    Continues store { store with lastError := kind } :=
  ⟨h.with_lastError kind, rfl⟩

/-- A change of one file's bytes and cursors leaves a sound store with the same settings. -/
theorem Edited.continues (h : Edited store store' id bytes place) : Continues store store' :=
  ⟨h.sound, h.config_eq⟩

-- One lemma for each call that changes something. Each follows the cases of the spec lemma.

/-- Opening continues a sound store: it binds a descriptor to a file, after it made one if it had
to, or it reports that there is none. -/
theorem Sound.continues_openFile (h : store.Sound) (name : String) (create : Bool) :
    Continues store (store.openFile name create).2 := by
  rcases h.openFile_cases name create with ⟨id, file, -, hfile, hopen⟩ | ⟨hname, -, hopen⟩ |
    ⟨-, -, hopen⟩
  · rw [hopen]
    exact ⟨(h.bind hfile).sound.with_lastError _, rfl⟩
  · obtain ⟨-, hcreated⟩ := h.create hname
    rw [hopen]
    exact ⟨(hcreated.sound.bind hcreated.file?_eq).sound.with_lastError _, rfl⟩
  · rw [hopen]
    exact h.reports _

/-- Deleting continues a sound store: the file loses its name and stays, or goes with its blocks,
or there was none. -/
theorem Sound.continues_delete (h : store.Sound) (name : String) :
    Continues store (store.delete name).2 := by
  rcases h.delete_cases name with ⟨-, hdelete⟩ |
    ⟨id, file, hname, hfile, ⟨hheld, hdelete⟩ | ⟨hfree, hdelete⟩⟩
  · rw [hdelete]
    exact h.reports _
  · rw [hdelete]
    exact ⟨(h.delete_held hname hfile hheld).sound.with_lastError _, rfl⟩
  · rw [hdelete]
    exact ⟨(h.delete_free hname hfile hfree).sound.with_lastError _, rfl⟩

/-- Closing continues a sound store: the file loses a descriptor and stays, or goes with its
blocks, or the number was not open. -/
theorem Sound.continues_close (h : store.Sound) (fd : Nat) :
    Continues store (store.close fd).2 := by
  rcases h.close_cases fd with ⟨-, hclose⟩ |
    ⟨descriptor, file, left, -, hfile, hrelease, hrefs, ⟨hlast, hdeleted, hclose⟩ | ⟨hkept, hclose⟩⟩
  · rw [hclose]
    exact h.reports _
  · rw [hclose]
    exact ⟨(h.close_last hfile hrelease hrefs hlast hdeleted).sound.with_lastError _, rfl⟩
  · rw [hclose]
    exact ⟨(h.close_kept hfile hrelease hrefs hkept).sound.with_lastError _, rfl⟩

/-- A write continues a sound store, also one that is short or refused. -/
theorem Sound.continues_write (h : store.Sound) (fd : Nat) (data : Bytes) :
    Continues store (store.write fd data).2 := by
  rcases h.opened_cases fd with ⟨-, hopened⟩ | ⟨descriptor, file, hget, hfile, -⟩
  · simp only [Store.write, hopened]
    exact h.reports _
  · obtain ⟨pos, hstands⟩ := h.exists_stands hget
    obtain ⟨count, -, -, -, hedited⟩ := h.write_spec hget hfile hstands data
    exact hedited.continues

/-- A read continues a sound store: it moves a cursor to a place in the same file. -/
theorem Sound.continues_read (h : store.Sound) (fd want : Nat) :
    Continues store (store.read fd want).2 := by
  rcases h.opened_cases fd with ⟨-, hopened⟩ | ⟨descriptor, file, hget, -, -⟩
  · simp only [Store.read, hopened]
    exact h.reports _
  · obtain ⟨pos, hstands⟩ := h.exists_stands hget
    obtain ⟨bytes, -, -, -, hedited⟩ := h.read_spec hget hstands want
    exact hedited.continues

/-- A read into a buffer continues a sound store: it is a read, or it reports that the buffer
would be too long. -/
theorem Sound.continues_readUpTo (h : store.Sound) (fd most : Nat) :
    Continues store (store.readUpTo fd most).2 := by
  rcases h.opened_cases fd with ⟨-, hopened⟩ | ⟨descriptor, file, -, -, hopened⟩ <;>
    simp only [Store.readUpTo, hopened]
  · exact h.reports _
  · split
    · exact h.continues_read fd _
    · exact h.reports _

/-- A rewind continues a sound store: an unset cursor stands at the start of any file. -/
theorem Sound.continues_rewind (h : store.Sound) (fd : Nat) :
    Continues store (store.rewind fd).2 := by
  cases hget : store.descriptors.get? fd with
  | none =>
    simp only [Store.rewind, DescriptorTable.get, hget]
    exact h.reports _
  | some descriptor => exact (h.rewind_spec hget).2.2.continues

/-- A resize continues a sound store, whichever way the size goes: the cursors of all descriptors
on the file are in what is left of it. -/
theorem Sound.continues_resize (h : store.Sound) (fd size : Nat) :
    Continues store (store.resize fd size).2 := by
  rcases h.opened_cases fd with ⟨-, hopened⟩ | ⟨descriptor, file, hget, hfile, -⟩
  · simp only [Store.resize, hopened]
    exact h.reports _
  · rcases h.resize_spec hget hfile size with ⟨-, hresize⟩ | ⟨-, -, -, hedited⟩
    · rw [hresize]
      exact h.reports _
    · exact hedited.continues

/-- A call leaves a store that continues a sound one. There is one case for each call, and those
that only ask leave all but the outcome. -/
theorem Sound.continues (h : store.Sound) (call : Call) :
    Continues store (store.perform call).2 := by
  cases call with
  | openFile name create => exact h.continues_openFile name create
  | write fd data => exact h.continues_write fd data
  | read fd want => exact h.continues_read fd want
  | readUpTo fd most => exact h.continues_readUpTo fd most
  | close fd => exact h.continues_close fd
  | delete name => exact h.continues_delete name
  | resize fd size => exact h.continues_resize fd size
  | rewind fd => exact h.continues_rewind fd
  | stat name =>
    show Continues store (store.stat name).2
    unfold Store.stat
    split <;> exact h.reports _
  | statOpen fd => exact h.reports _
  | digest fd => exact h.reports _
  | names => exact ⟨h, rfl⟩
  | destroy => exact ⟨sound_empty store.config, rfl⟩

/-- Calls leave a store that continues a sound one, by induction on the calls. -/
theorem Sound.continues_performAll (h : store.Sound) (calls : List Call) :
    Continues store (store.performAll calls).2 := by
  induction calls generalizing store with
  | nil => exact ⟨h, rfl⟩
  | cons call calls ih =>
    have hstep := h.continues call
    have hrest := ih hstep.sound
    exact ⟨hrest.sound, hrest.config_eq.trans hstep.config_eq⟩

/-- Calls lead from the empty store to a sound one, whatever they are and whether or not they
fail. -/
theorem sound_performAll (config : Config) (calls : List Call) :
    ((empty config).performAll calls).2.Sound :=
  ((sound_empty config).continues_performAll calls).sound

/-- Calls keep the settings of the empty store. No call can change the size of a block or the
limit. -/
theorem config_performAll (config : Config) (calls : List Call) :
    ((empty config).performAll calls).2.config = config :=
  ((sound_empty config).continues_performAll calls).config_eq

/-- Calls made one after another can be made in two parts, the second in the store that the first
part leads to. -/
theorem performAll_append (store : Store) (calls more : List Call) :
    (store.performAll (calls ++ more)).2 = ((store.performAll calls).2.performAll more).2 := by
  induction calls generalizing store with
  | nil => rfl
  | cons call calls ih => exact ih (store.perform call).2

/-- Calls lead from a reachable store to a reachable one, so what is shown of reachable stores may
be used again after any further calls. -/
theorem Reachable.performAll (h : Reachable config store) (calls : List Call) :
    Reachable config (store.performAll calls).2 := by
  induction calls generalizing store with
  | nil => exact h
  | cons call calls ih => exact ih (h.perform call)

/-- The reachable stores are those that lists of calls lead to from the empty one. -/
theorem reachable_iff_exists_performAll :
    Reachable config store ↔ ∃ calls, ((empty config).performAll calls).2 = store := by
  constructor
  · intro h
    induction h with
    | empty => exact ⟨[], rfl⟩
    | perform call _ ih =>
      obtain ⟨calls, rfl⟩ := ih
      exact ⟨calls ++ [call], performAll_append _ calls [call]⟩
  · rintro ⟨calls, rfl⟩
    exact Reachable.empty.performAll calls

/-- A reachable store is sound, so every spec lemma applies to it. -/
theorem Reachable.sound (h : Reachable config store) : store.Sound := by
  obtain ⟨calls, rfl⟩ := reachable_iff_exists_performAll.mp h
  exact sound_performAll config calls

end Store

end Filestore
