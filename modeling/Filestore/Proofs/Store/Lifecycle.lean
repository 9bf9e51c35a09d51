import Filestore.Proofs.Store.Reachable

/-!
# `Filestore.Proofs.Store.Lifecycle`: names, descriptors and what they keep alive

A file is in storage while a name denotes it or a descriptor is open on it, and no longer. The
store keeps count of the descriptors in the file and remembers there whether the name was deleted;
`Store.LifecyclesInOrder` says that both are right, and what follows for the number of files.

`lifecyclesInOrder_performAll` is the main result: it holds of every store that calls lead to,
however often a name was deleted and used again while descriptors were open on the earlier files.
A name that is used again denotes the new file, and the earlier one has no name any more, though
it says the same one of itself.

Each part is read off the accounts of a file in a sound store. The number of files takes a count:
the files in storage are those that are deleted and those that are not, the former are held by
descriptors (`Sound.heldDeleted_eq`), and the latter are in a one-to-one relation with the names
(`Sound.entries_perm`).
-/

set_option autoImplicit false

namespace Filestore

namespace Store

/-- The deleted files that descriptors are open on, in the order of their slots. -/
def heldDeleted (store : Store) : List FileId :=
  store.catalog.files.keys.filter fun id =>
    (store.catalog.files.get? id).any File.deleted &&
      decide (0 < (store.descriptors.boundTo id).length)

/-- Files, names and descriptors agree on which files there are.

- `refs_eq`: a file counts the descriptors open on it.
- `refs_pos`: a descriptor is open on a file in storage, which counts at least that one.
- `deleted_iff`: a file is deleted just when no name denotes it.
- `named`: a name denotes a file in storage that bears it and is not deleted.
- `distinct`: two names denote two files.
- `held`: a deleted file is open.
- `stored_iff`: a file is in storage just when a name denotes it or a descriptor is open on it.
- `fileCount_eq`: the files are those with names and the deleted ones that are open. -/
structure LifecyclesInOrder (store : Store) : Prop where
  refs_eq : ∀ id file, store.catalog.files.get? id = some file →
    file.refs = (store.descriptors.boundTo id).length
  refs_pos : ∀ fd descriptor, store.descriptors.get? fd = some descriptor →
    ∃ file, store.catalog.files.get? descriptor.file = some file ∧ 0 < file.refs
  deleted_iff : ∀ id file, store.catalog.files.get? id = some file →
    (file.deleted = true ↔ ∀ name, store.catalog.lookup name ≠ some id)
  named : ∀ name id, store.catalog.lookup name = some id →
    ∃ file, store.catalog.files.get? id = some file ∧ file.deleted = false ∧ file.name = name
  distinct : ∀ name name' id id', store.catalog.lookup name = some id →
    store.catalog.lookup name' = some id' → name ≠ name' → id ≠ id'
  held : ∀ id file, store.catalog.files.get? id = some file → file.deleted = true → 1 ≤ file.refs
  stored_iff : ∀ id, (∃ file, store.catalog.files.get? id = some file) ↔
    (∃ name, store.catalog.lookup name = some id) ∨
      ∃ fd descriptor, store.descriptors.get? fd = some descriptor ∧ descriptor.file = id
  fileCount_eq : store.fileCount = store.names.length + store.heldDeleted.length

variable {store : Store}

/-- A file in storage is deleted just when no name denotes it. The file bears a name in either
case, but once it is deleted that name may denote another file. -/
theorem Sound.deleted_iff (h : store.Sound) {id : FileId} {file : File}
    (hfile : store.file? id = some file) :
    file.deleted = true ↔ ∀ name, store.catalog.lookup name ≠ some id := by
  constructor
  · exact h.lookup_ne_of_deleted hfile
  · intro hnone
    cases hdeleted : file.deleted with
    | true => rfl
    | false =>
      exact absurd (((h.accounts id).lookup_iff_file hfile file.name).mpr ⟨hdeleted, rfl⟩)
        (hnone file.name)

/-- A name is listed with the file that it denotes, and no name is listed twice, since the names
are in order. -/
theorem Sound.mem_entries (h : store.Sound) {name : String} {id : FileId} :
    (name, id) ∈ store.catalog.directory.entries ↔ store.catalog.lookup name = some id :=
  (lookup_eq_some_iff_mem h.ascending.nodup).symm

/-- The files that names denote are those that are not deleted, each of them once, in some order:
names go by their bytes, and files by their slots. -/
theorem Sound.entries_perm (h : store.Sound) : (store.catalog.directory.entries.map Prod.snd).Perm
    (store.catalog.files.keys.filter fun id =>
      !(store.catalog.files.get? id).any File.deleted) := by
  have hnodup : (store.catalog.directory.entries.map Prod.snd).Nodup := by
    rw [List.Nodup, List.pairwise_map]
    refine List.Pairwise.imp_of_mem ?_ h.ascending
    intro _ _ hfirst hlater hlt heq
    have hname := h.eq_of_lookup (h.mem_entries.mp hfirst) (heq ▸ h.mem_entries.mp hlater)
    exact String.lt_irrefl _ (hname ▸ hlt)
  -- Neither list has a file twice: names are distinct, and so are handles.
  rw [List.perm_ext_iff_of_nodup hnodup ((Slab.nodup_keys _).filter _)]
  intro id
  rw [List.mem_map, List.mem_filter, Slab.mem_keys]
  constructor
  · rintro ⟨⟨name, owner⟩, hentry, rfl⟩
    obtain ⟨file, hfile, hkept, -⟩ := h.exists_file_of_lookup (h.mem_entries.mp hentry)
    replace hfile : store.catalog.files.get? owner = some file := hfile
    exact ⟨⟨file, hfile⟩, by simp [hfile, hkept]⟩
  · rintro ⟨⟨file, hfile⟩, hkept⟩
    rw [hfile, Option.any_some, Bool.not_eq_true'] at hkept
    have hname := ((h.accounts id).lookup_iff_file hfile file.name).mpr ⟨hkept, rfl⟩
    exact ⟨(file.name, id), h.mem_entries.mpr hname, rfl⟩

/-- A deleted file in storage is open, so the deleted files that are open are all the deleted
ones. -/
theorem Sound.heldDeleted_eq (h : store.Sound) :
    store.heldDeleted = store.catalog.files.keys.filter fun id =>
      (store.catalog.files.get? id).any File.deleted := by
  refine List.filter_congr ?_
  intro id _
  cases hfile : store.catalog.files.get? id with
  | none => rfl
  | some file =>
    cases hdeleted : file.deleted with
    | false => simp [hdeleted]
    | true =>
      have hheld := (h.accounts id).held file hfile hdeleted
      rw [(h.accounts id).refs_eq file hfile] at hheld
      simp [hdeleted, hheld]

/-- In a sound store, the lifecycles of all files are in order. The number of files is that of
names, and of deleted files that are still open. -/
theorem Sound.lifecyclesInOrder (h : store.Sound) : store.LifecyclesInOrder where
  refs_eq id := (h.accounts id).refs_eq
  refs_pos fd descriptor hget := by
    obtain ⟨file, hfile⟩ := h.exists_file hget
    refine ⟨file, hfile, Nat.pos_of_ne_zero ?_⟩
    intro hzero
    rw [(h.accounts descriptor.file).refs_eq file hfile] at hzero
    exact DescriptorTable.length_boundTo_eq_zero_iff.mp hzero fd descriptor hget rfl
  deleted_iff _ _ hfile := h.deleted_iff hfile
  named name id hname := h.exists_file_of_lookup hname
  distinct name name' id id' hname hname' hne := by
    rintro rfl
    exact hne (h.eq_of_lookup hname hname')
  held id := (h.accounts id).held
  stored_iff id := by
    constructor
    · rintro ⟨file, hfile⟩
      cases hdeleted : file.deleted with
      | false =>
        exact .inl ⟨file.name,
          ((h.accounts id).lookup_iff_file hfile file.name).mpr ⟨hdeleted, rfl⟩⟩
      | true =>
        right
        have hheld := (h.accounts id).held file hfile hdeleted
        rw [(h.accounts id).refs_eq file hfile] at hheld
        have hsome := mt DescriptorTable.length_boundTo_eq_zero_iff.mpr
          (Nat.pos_iff_ne_zero.mp hheld)
        simpa using hsome
    · rintro (⟨name, hname⟩ | ⟨fd, descriptor, hget, rfl⟩)
      · obtain ⟨file, hfile, -⟩ := h.exists_file_of_lookup hname
        exact ⟨file, hfile⟩
      · exact h.exists_file hget
  fileCount_eq := by
    have hnames := h.entries_perm.length_eq
    rw [List.length_map] at hnames
    -- The files in storage are the deleted ones and the others. Those are open, and these named.
    show store.catalog.files.len = (store.catalog.directory.entries.map Prod.fst).length + _
    rw [h.storage.files_sound.counted, List.length_map, hnames, h.heldDeleted_eq, Nat.add_comm,
      ← List.countP_eq_length_filter, ← List.countP_eq_length_filter]
    simpa using List.length_eq_countP_add_countP
      fun id => (store.catalog.files.get? id).any File.deleted

/-- Whatever calls are made, the lifecycles of all files are in order. Nothing is asked of the
calls: they may fail, and they may delete a name that is open under many numbers. -/
theorem lifecyclesInOrder_performAll (config : Config) (calls : List Call) :
    ((empty config).performAll calls).2.LifecyclesInOrder :=
  (sound_performAll config calls).lifecyclesInOrder

end Store

end Filestore
