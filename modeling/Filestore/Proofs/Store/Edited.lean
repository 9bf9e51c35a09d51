import Filestore.Proofs.Store.Sound

/-!
# `Filestore.Proofs.Store.Edited`: other bytes and other places in one file

Writes, reads, resizes and rewinds change one file and the cursors on it, and nothing else.
`Store.Edited` says so: the file has other contents, and every descriptor open on it goes from its
position to the one that `place` gives. Positions are numbers, so the property does not mention
where the blocks of the file are, and two edits with the same bytes and positions look alike to
every caller.

`Sound.edit` builds such a change out of an edit of the file, which is about blocks and links, and
a move of the cursors, which is about the table; the store is sound afterwards. Each of the four
operations is then a matter of saying what the edit and the move are. The spec lemmas in
`Filestore.Proofs.Store.Transfer` and `Filestore.Proofs.Store.Resize` do that.
-/

set_option autoImplicit false

namespace Filestore

namespace Store

/-- One file has the contents `bytes` now, and the descriptors open on it were moved.

- `sound`: the parts of the store agree.
- `config_eq`: the settings stay.
- `elsewhere`: nothing else changed.
- `file`: the file bears its name, and its name its file.
- `contents`: the bytes are in place.
- `file_eq`: a descriptor is open on what it was open on.
- `moved`: a descriptor of the file was moved. -/
structure Edited (store store' : Store) (id : FileId) (bytes : Bytes) (place : Nat → Nat → Nat) :
    Prop where
  sound : store'.Sound
  config_eq : store'.config = store.config
  elsewhere : Elsewhere store store' id
  file : ∀ file, store.file? id = some file →
    ∃ file', store'.file? id = some file' ∧ file'.name = file.name ∧ file'.deleted = file.deleted
  contents : (store'.chainOf id).contents = bytes
  file_eq : ∀ fd, (store'.descriptors.get? fd).map Descriptor.file
    = (store.descriptors.get? fd).map Descriptor.file
  moved : ∀ fd descriptor pos, store.descriptors.get? fd = some descriptor →
    descriptor.file = id → (store.chainOf id).Stands descriptor.cursor pos →
    ∃ descriptor', store'.descriptors.get? fd = some descriptor' ∧ descriptor'.file = id ∧
      (store'.chainOf id).Stands descriptor'.cursor (place fd pos)

/-- The store with a file that lies elsewhere, and other cursors. -/
def edited (store : Store) (id : FileId) (file' : File) (blocks' : Slab Block)
    (table' : DescriptorTable) : Store :=
  { store with
    blocks := blocks'
    catalog := store.catalog.set id file'
    descriptors := table' }

/-- The cursors of a table were moved, and nothing else. -/
def CursorsMoved (table table' : DescriptorTable) (move : Nat → Descriptor → Cursor) : Prop :=
  ∀ fd, table'.get? fd
    = (table.get? fd).map fun descriptor => { descriptor with cursor := move fd descriptor }

variable {store : Store} {id : FileId} {file file' : File} {blocks' : Slab Block} {chain' : Chain}
  {table' : DescriptorTable} {move : Nat → Descriptor → Cursor} {place : Nat → Nat → Nat}

/-- What a call reports does not matter to the change: another remembered outcome leaves the file,
the cursors and the rest of the store as they are. -/
theorem Edited.with_lastError {store' : Store} {bytes : Bytes}
    (h : Edited store store' id bytes place) (kind : ErrorKind) :
    Edited store { store' with lastError := kind } id bytes place :=
  ⟨h.sound.with_lastError kind, h.config_eq,
    ⟨h.elsewhere.file?_eq, h.elsewhere.chainOf_eq, h.elsewhere.get?_iff, h.elsewhere.lookup_iff⟩,
    h.file, h.contents, h.file_eq, h.moved⟩

/-- A descriptor whose cursor was moved is open on the file that it was open on, and a number that
was not in use is not in use now. -/
theorem CursorsMoved.file_eq {table : DescriptorTable} (h : CursorsMoved table table' move)
    (fd : Nat) : (table'.get? fd).map Descriptor.file = (table.get? fd).map Descriptor.file := by
  rw [h]
  cases table.get? fd <;> rfl

/-- A descriptor is as it was where its cursor stays. So the descriptors on other files are the
same ones, given that the move does not touch those. -/
theorem CursorsMoved.get?_iff {table : DescriptorTable} (h : CursorsMoved table table' move)
    (hstay : ∀ fd descriptor, table.get? fd = some descriptor → descriptor.file ≠ id →
      move fd descriptor = descriptor.cursor) (fd : Nat) (descriptor : Descriptor)
    (hne : descriptor.file ≠ id) :
    table'.get? fd = some descriptor ↔ table.get? fd = some descriptor := by
  rw [h, Option.map_eq_some_iff]
  constructor
  · rintro ⟨old, hold, rfl⟩
    rw [hold, hstay fd old hold hne]
  · intro hold
    exact ⟨descriptor, hold, by rw [hstay fd descriptor hold hne]⟩

/-- The accounts of a file are right after an edit if its cursors were moved to places in it. The
count of descriptors and the names were not touched, so only the cursors have to be looked at. -/
private theorem Accounts.edit {after : Store} (h : store.Accounts id)
    (hfile : store.file? id = some file)
    (hedit : file.Edit store.blocks (store.chainOf id) file' blocks' chain')
    (hself : after.file? id = some file') (hchain : after.chainOf id = chain')
    (hdirectory : after.catalog.directory = store.catalog.directory)
    (hmoved : CursorsMoved store.descriptors after.descriptors move)
    (hmove : ∀ fd descriptor pos, store.descriptors.get? fd = some descriptor →
      descriptor.file = id → (store.chainOf id).Stands descriptor.cursor pos →
      (store.chainOf id).Settled descriptor.cursor →
      chain'.Stands (move fd descriptor) (place fd pos) ∧ chain'.Settled (move fd descriptor)) :
    after.Accounts id := by
  refine accounts_of_file hself ?_ ?_ ?_ ?_
  -- A cursor on the file is one that was moved. The rest of the accounts reads fields that an edit
  -- keeps.
  · intro fd descriptor hget hid
    rw [hmoved, Option.map_eq_some_iff] at hget
    obtain ⟨old, hold, rfl⟩ := hget
    obtain ⟨pos, hstands, hsettled⟩ := h.cursor hold hid
    rw [hchain]
    exact ⟨_, hmove fd old pos hold hid hstands hsettled⟩
  · rw [hedit.refs_eq, h.refs_eq file hfile]
    exact (DescriptorTable.length_boundTo_congr hmoved.file_eq id).symm
  · intro name
    rw [Catalog.lookup, hdirectory, hedit.deleted_eq, hedit.name_eq]
    exact h.lookup_iff_file hfile name
  · rw [hedit.deleted_eq, hedit.refs_eq]
    exact h.held file hfile

/-- An edit of a file and a move of the cursors on it. The store stays sound if the new chain is
packed and within the limit, and each cursor in the file goes to the place that its position asks
for. -/
theorem Sound.edit (h : store.Sound) (hfile : store.file? id = some file)
    (hedit : file.Edit store.blocks (store.chainOf id) file' blocks' chain')
    (hpacked : chain'.Packed store.config.blockSize) (hwithin : store.config.Admits file'.size)
    (htable : table'.Sound) (hmoved : CursorsMoved store.descriptors table' move)
    (hstay : ∀ fd descriptor, store.descriptors.get? fd = some descriptor →
      descriptor.file ≠ id → move fd descriptor = descriptor.cursor)
    (hmove : ∀ fd descriptor pos, store.descriptors.get? fd = some descriptor →
      descriptor.file = id → (store.chainOf id).Stands descriptor.cursor pos →
      (store.chainOf id).Settled descriptor.cursor →
      chain'.Stands (move fd descriptor) (place fd pos) ∧ chain'.Settled (move fd descriptor)) :
    Edited store (store.edited id file' blocks' table') id chain'.contents place := by
  have hself : (store.edited id file' blocks' table').file? id = some file' :=
    Slab.get?_set_self hfile file'
  obtain ⟨hstorage, hchain, hothers⟩ := h.storage.replace (h.storage.files_sound.set id file')
    (fun other hne => Slab.get?_set_of_ne hne file') hedit.exchange hpacked
    (.inl ⟨file', hself, hedit.spans, hwithin⟩)
  -- The file has the new chain, and its accounts are put together anew. All other files are
  -- elsewhere.
  replace hchain : (store.edited id file' blocks' table').chainOf id = chain' := hchain
  have haccounts := (h.accounts id).edit hfile hedit hself hchain rfl hmoved hmove
  have helse : Elsewhere store (store.edited id file' blocks' table') id :=
    ⟨fun other hne => Slab.get?_set_of_ne hne file', hothers, hmoved.get?_iff hstay,
      fun _ _ _ => Iff.rfl⟩
  refine ⟨h.of_elsewhere helse hstorage htable h.ascending haccounts, rfl, helse, ?_,
    congrArg Chain.contents hchain, hmoved.file_eq, ?_⟩
  · intro current hcurrent
    cases hfile.symm.trans hcurrent
    exact ⟨file', hself, hedit.name_eq, hedit.deleted_eq⟩
  · intro fd descriptor pos hget hid hstands
    refine ⟨{ descriptor with cursor := move fd descriptor }, ?_, hid, ?_⟩
    · show table'.get? fd = _
      rw [hmoved, hget]
      rfl
    · rw [hchain]
      exact (hmove fd descriptor pos hget hid hstands
        ((h.accounts id).settled fd descriptor hget hid)).1

/-- A store in which nothing moved was edited all the same: the contents are what they were, and
every cursor is where it was. This is the case of a call that reports. -/
theorem Sound.edited_refl (h : store.Sound) (id : FileId) :
    Edited store store id (store.chainOf id).contents fun _ place => place where
  sound := h
  config_eq := rfl
  elsewhere := ⟨fun _ _ => rfl, fun _ _ => rfl, fun _ _ _ => Iff.rfl, fun _ _ _ => Iff.rfl⟩
  file file hfile := ⟨file, hfile, rfl, rfl⟩
  contents := rfl
  file_eq _ := rfl
  moved _ descriptor _ hget hid hstands := ⟨descriptor, hget, hid, hstands⟩

end Store

end Filestore
