import Filestore.Proofs.Chain.Packed
import Filestore.Proofs.Descriptor
import Filestore.Proofs.Directory
import Filestore.Proofs.Store.Storage

/-!
# `Filestore.Proofs.Store.Sound`: the invariant of a store

A store is `Store.Sound` when its parts agree: the files divide the blocks among them (`Storage`),
the table of descriptors and the directory are in order, and of every file handle the rest of the
store tells the truth (`Store.Accounts`): descriptors are open on files in storage, with cursors
in their chains, and are counted by them; names denote the files that bear them and are not
deleted; a deleted file is still open.

An operation changes the accounts of one handle. `Store.Elsewhere` says that two stores agree on
everything else, and `Sound.of_elsewhere` that then only the accounts of that handle are left to
check. The accounts are stated for a handle, not for a file, so they also say what has to be so of
a handle that denotes nothing: no descriptor and no name leads to it (`accounts_of_none`).

The later part reads off what the operations rely on: the file behind a descriptor or a name, the
place of a cursor, and the two ways in which a number may be looked up (`Sound.opened_cases`).
-/

set_option autoImplicit false

namespace Filestore

namespace Store

/-- The file that a handle denotes, if the handle is still good. -/
def file? (store : Store) (id : FileId) : Option File := store.catalog.files.get? id

/-- The blocks of the file that a handle denotes, in their order, or none if it denotes none. -/
def chainOf (store : Store) (id : FileId) : Chain :=
  Filestore.chainOf store.catalog.files store.blocks id

/-- What descriptors and names say of a file is so.

- `opened`: a descriptor is open on a file in storage.
- `stands`: the cursor of a descriptor stands in the file.
- `settled`: it is at the start of no block but the first.
- `refs_eq`: the descriptors open on the file are counted.
- `lookup_iff`: a name denotes the file when the file bears it and is not deleted.
- `held`: a deleted file is open. -/
structure Accounts (store : Store) (id : FileId) : Prop where
  opened : ∀ fd descriptor, store.descriptors.get? fd = some descriptor → descriptor.file = id →
    ∃ file, store.file? id = some file
  stands : ∀ fd descriptor, store.descriptors.get? fd = some descriptor → descriptor.file = id →
    ∃ pos, (store.chainOf id).Stands descriptor.cursor pos
  settled : ∀ fd descriptor, store.descriptors.get? fd = some descriptor → descriptor.file = id →
    (store.chainOf id).Settled descriptor.cursor
  refs_eq : ∀ file, store.file? id = some file → file.refs = (store.descriptors.boundTo id).length
  lookup_iff : ∀ name, store.catalog.lookup name = some id ↔
    ∃ file, store.file? id = some file ∧ file.deleted = false ∧ file.name = name
  held : ∀ file, store.file? id = some file → file.deleted = true → 0 < file.refs

/-- The parts of the store agree.

- `storage`: the files divide the blocks among them.
- `table`: the table knows which numbers are free.
- `ascending`: the names are in order.
- `accounts`: what is said of every file is so. -/
structure Sound (store : Store) : Prop where
  storage : Storage store.config store.blocks store.catalog.files
  table : store.descriptors.Sound
  ascending : store.catalog.directory.Ascending
  accounts : ∀ id, store.Accounts id

/-- The stores agree on everything but one file.

- `file?_eq`: another handle denotes what it denoted.
- `chainOf_eq`: another file has the blocks that it had.
- `get?_iff`: the descriptors open on other files are the same.
- `lookup_iff`: the names of other files are the same. -/
structure Elsewhere (store store' : Store) (id : FileId) : Prop where
  file?_eq : ∀ other, other ≠ id → store'.file? other = store.file? other
  chainOf_eq : ∀ other, other ≠ id → store'.chainOf other = store.chainOf other
  get?_iff : ∀ fd descriptor, descriptor.file ≠ id →
    (store'.descriptors.get? fd = some descriptor ↔ store.descriptors.get? fd = some descriptor)
  lookup_iff : ∀ name other, other ≠ id →
    (store'.catalog.lookup name = some other ↔ store.catalog.lookup name = some other)

variable {store store' : Store} {id other : FileId}

/-- Another file has as many descriptors as before, since the ones open on it are the same. -/
theorem Elsewhere.length_boundTo (h : Elsewhere store store' id) (hne : other ≠ id) :
    (store'.descriptors.boundTo other).length = (store.descriptors.boundTo other).length := by
  rw [DescriptorTable.length_boundTo, DescriptorTable.length_boundTo]
  -- The numbers need not be listed in the same order, but they are the same.
  refine List.Perm.length_eq ?_
  rw [List.perm_ext_iff_of_nodup (DescriptorTable.nodup_numbers _ _)
    (DescriptorTable.nodup_numbers _ _)]
  intro fd
  rw [DescriptorTable.mem_numbers, DescriptorTable.mem_numbers]
  have hiff : ∀ descriptor : Descriptor, decide (descriptor.file = other) = true →
      (store'.descriptors.get? fd = some descriptor ↔
        store.descriptors.get? fd = some descriptor) := fun descriptor hfile =>
    h.get?_iff fd descriptor (by rwa [of_decide_eq_true hfile])
  exact ⟨fun ⟨descriptor, hget, hfile⟩ => ⟨descriptor, (hiff descriptor hfile).mp hget, hfile⟩,
    fun ⟨descriptor, hget, hfile⟩ => ⟨descriptor, (hiff descriptor hfile).mpr hget, hfile⟩⟩

/-- What is said of another file is still so, as nothing that its accounts look at has changed. -/
theorem Accounts.of_elsewhere (h : store.Accounts other) (helse : Elsewhere store store' id)
    (hne : other ≠ id) : store'.Accounts other where
  opened fd descriptor hget hfile := by
    rw [helse.file?_eq other hne]
    exact h.opened fd descriptor ((helse.get?_iff fd descriptor (hfile ▸ hne)).mp hget) hfile
  stands fd descriptor hget hfile := by
    rw [helse.chainOf_eq other hne]
    exact h.stands fd descriptor ((helse.get?_iff fd descriptor (hfile ▸ hne)).mp hget) hfile
  settled fd descriptor hget hfile := by
    rw [helse.chainOf_eq other hne]
    exact h.settled fd descriptor ((helse.get?_iff fd descriptor (hfile ▸ hne)).mp hget) hfile
  refs_eq file hfile := by
    rw [helse.length_boundTo hne]
    exact h.refs_eq file (helse.file?_eq other hne ▸ hfile)
  lookup_iff name := by
    rw [helse.lookup_iff name other hne, helse.file?_eq other hne]
    exact h.lookup_iff name
  held file hfile := h.held file (helse.file?_eq other hne ▸ hfile)

/-- The cursor of a descriptor stands in the file, and is settled there. The two are mostly needed
together. -/
theorem Accounts.cursor (h : store.Accounts id) {fd : Nat} {descriptor : Descriptor}
    (hget : store.descriptors.get? fd = some descriptor) (hid : descriptor.file = id) :
    ∃ pos, (store.chainOf id).Stands descriptor.cursor pos ∧
      (store.chainOf id).Settled descriptor.cursor := by
  obtain ⟨pos, hstands⟩ := h.stands fd descriptor hget hid
  exact ⟨pos, hstands, h.settled fd descriptor hget hid⟩

/-- A file in storage is denoted by the name that it bears and no other, unless it is deleted. -/
theorem Accounts.lookup_iff_file (h : store.Accounts id) {file : File}
    (hfile : store.file? id = some file) (name : String) :
    store.catalog.lookup name = some id ↔ file.deleted = false ∧ file.name = name := by
  rw [h.lookup_iff]
  constructor
  · rintro ⟨current, hcurrent, hbears⟩
    cases hfile.symm.trans hcurrent
    exact hbears
  · exact fun hbears => ⟨file, hfile, hbears⟩

/-- What has to be so of a handle that denotes a file: its cursors, its count, its name and, if it
is deleted, a descriptor that holds it. -/
theorem accounts_of_file {file : File} (hfile : store.file? id = some file)
    (hcursor : ∀ fd descriptor, store.descriptors.get? fd = some descriptor → descriptor.file = id →
      ∃ pos, (store.chainOf id).Stands descriptor.cursor pos ∧
        (store.chainOf id).Settled descriptor.cursor)
    (hrefs : file.refs = (store.descriptors.boundTo id).length)
    (hlookup : ∀ name, store.catalog.lookup name = some id ↔
      file.deleted = false ∧ file.name = name)
    (hheld : file.deleted = true → 0 < file.refs) : store.Accounts id where
  opened _ _ _ _ := ⟨file, hfile⟩
  stands fd descriptor hget hid := by
    obtain ⟨pos, hstands, -⟩ := hcursor fd descriptor hget hid
    exact ⟨pos, hstands⟩
  settled fd descriptor hget hid := by
    obtain ⟨pos, -, hsettled⟩ := hcursor fd descriptor hget hid
    exact hsettled
  -- The statements are about any file under the handle, and there is the one file only.
  refs_eq current hcurrent := by
    cases hfile.symm.trans hcurrent
    exact hrefs
  lookup_iff name := by
    rw [hlookup]
    constructor
    · exact fun hbears => ⟨file, hfile, hbears⟩
    · rintro ⟨current, hcurrent, hbears⟩
      cases hfile.symm.trans hcurrent
      exact hbears
  held current hcurrent := by
    cases hfile.symm.trans hcurrent
    exact hheld

/-- What has to be so of a handle that denotes no file: no descriptor is open on it, and no name
leads to it. -/
theorem accounts_of_none (hfile : store.file? id = none)
    (hopened : ∀ fd descriptor, store.descriptors.get? fd = some descriptor → descriptor.file ≠ id)
    (hlookup : ∀ name, store.catalog.lookup name ≠ some id) : store.Accounts id where
  opened fd descriptor hget hid := absurd hid (hopened fd descriptor hget)
  stands fd descriptor hget hid := absurd hid (hopened fd descriptor hget)
  settled fd descriptor hget hid := absurd hid (hopened fd descriptor hget)
  refs_eq _ hcurrent := by cases hfile.symm.trans hcurrent
  lookup_iff name := by
    constructor
    · exact fun hname => absurd hname (hlookup name)
    · rintro ⟨current, hcurrent, -⟩
      cases hfile.symm.trans hcurrent
  held _ hcurrent := by cases hfile.symm.trans hcurrent

/-- A store that differs from a sound one in one file is sound if that file is in order, and the
storage, the table and the directory are. -/
theorem Sound.of_elsewhere (h : store.Sound) (helse : Elsewhere store store' id)
    (hstorage : Storage store'.config store'.blocks store'.catalog.files)
    (htable : store'.descriptors.Sound) (hascending : store'.catalog.directory.Ascending)
    (haccounts : store'.Accounts id) : store'.Sound where
  storage := hstorage
  table := htable
  ascending := hascending
  accounts other := by
    by_cases heq : other = id
    · exact heq ▸ haccounts
    · exact (h.accounts other).of_elsewhere helse heq

/-- A store without files, names and descriptors is sound, whatever the settings. -/
theorem sound_empty (config : Config) : (empty config).Sound where
  storage := storage_empty config
  table := DescriptorTable.sound_empty
  ascending := Directory.ascending_empty
  accounts _ := accounts_of_none rfl (fun _ _ hget => nomatch hget) fun _ hname => nomatch hname

/-- What a call reports does not matter to soundness: the outcome that is remembered is part of no
account. -/
theorem Sound.with_lastError (h : store.Sound) (kind : ErrorKind) :
    Sound { store with lastError := kind } :=
  ⟨h.storage, h.table, h.ascending, fun id =>
    let accounts := h.accounts id
    ⟨accounts.opened, accounts.stands, accounts.settled, accounts.refs_eq, accounts.lookup_iff,
      accounts.held⟩⟩

/-- A descriptor in use is open on a file in storage, so its handle can be followed. -/
theorem Sound.exists_file (h : store.Sound) {fd : Nat} {descriptor : Descriptor}
    (hget : store.descriptors.get? fd = some descriptor) :
    ∃ file, store.file? descriptor.file = some file :=
  (h.accounts descriptor.file).opened fd descriptor hget rfl

/-- The cursor of a descriptor in use stands in its file, at some position. -/
theorem Sound.exists_stands (h : store.Sound) {fd : Nat} {descriptor : Descriptor}
    (hget : store.descriptors.get? fd = some descriptor) :
    ∃ pos, (store.chainOf descriptor.file).Stands descriptor.cursor pos :=
  (h.accounts descriptor.file).stands fd descriptor hget rfl

/-- A name denotes a file in storage that bears it and is not deleted. -/
theorem Sound.exists_file_of_lookup (h : store.Sound) {name : String}
    (hname : store.catalog.lookup name = some id) :
    ∃ file, store.file? id = some file ∧ file.deleted = false ∧ file.name = name :=
  ((h.accounts id).lookup_iff name).mp hname

/-- A deleted file has no name: whatever name is looked up, it leads elsewhere or nowhere. -/
theorem Sound.lookup_ne_of_deleted (h : store.Sound) {file : File}
    (hfile : store.file? id = some file) (hdeleted : file.deleted = true) (name : String) :
    store.catalog.lookup name ≠ some id := by
  intro hname
  cases hdeleted.symm.trans (((h.accounts id).lookup_iff_file hfile name).mp hname).1

/-- No two names denote one file, as both would be the one that the file bears. -/
theorem Sound.eq_of_lookup (h : store.Sound) {name name' : String}
    (hname : store.catalog.lookup name = some id) (hname' : store.catalog.lookup name' = some id) :
    name = name' := by
  obtain ⟨file, hfile, -, hbears⟩ := h.exists_file_of_lookup hname
  exact hbears.symm.trans (((h.accounts id).lookup_iff_file hfile name').mp hname').2

/-- A number in use is open, with its descriptor and the file that this is open on. -/
theorem opened_eq {fd : Nat} {descriptor : Descriptor} {file : File}
    (hget : store.descriptors.get? fd = some descriptor)
    (hfile : store.file? descriptor.file = some file) :
    store.opened fd = .ok (descriptor, file) := by
  rw [file?] at hfile
  simp only [opened, DescriptorTable.get, hget, Catalog.get, hfile]

/-- A number that is not in use is a bad descriptor. -/
theorem opened_eq_error {fd : Nat} (hget : store.descriptors.get? fd = none) :
    store.opened fd = .error (.badDescriptor fd) := by
  simp only [opened, DescriptorTable.get, hget]

/-- A number is in use and open, or it is not in use and refused. There is no third case in a
sound store: the file of a descriptor is there. -/
theorem Sound.opened_cases (h : store.Sound) (fd : Nat) :
    store.descriptors.get? fd = none ∧ store.opened fd = .error (.badDescriptor fd) ∨
      ∃ descriptor file, store.descriptors.get? fd = some descriptor ∧
        store.file? descriptor.file = some file ∧ store.opened fd = .ok (descriptor, file) := by
  cases hget : store.descriptors.get? fd with
  | none => exact .inl ⟨rfl, opened_eq_error hget⟩
  | some descriptor =>
    obtain ⟨file, hfile⟩ := h.exists_file hget
    exact .inr ⟨descriptor, file, rfl, hfile, opened_eq hget hfile⟩

/-- A file in storage lies there as the chain of its handle. -/
theorem Sound.spans (h : store.Sound) {file : File} (hfile : store.file? id = some file) :
    file.Spans store.blocks (store.chainOf id) :=
  h.storage.spans id file hfile

end Store

end Filestore
