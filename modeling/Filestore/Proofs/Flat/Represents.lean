import Filestore.Flat
import Filestore.Proofs.Lookup
import Filestore.Proofs.Store.Lifecycle

/-!
# `Filestore.Proofs.Flat.Represents`: a store and its reference

`FlatStore.Represents num flat store` says that the reference store `flat` shows what `store`
holds. `num` gives every file handle the number that the reference knows the file under. A file
shows its name, the bytes of its chain and whether it is still named; a descriptor shows the file
and the position at which its cursor stands. Two cursors at one position show the same, so the
relation forgets where a position between two blocks is kept.

From it follows what the reference looks up: files by name (`find?_eq_some`), descriptors by
number (`opened_eq_some`). Counts agree too (`openCount_eq`, `refs_eq`), although the store counts
as it goes and the reference counts its lists.

The lists of the reference are compared by their members and not as lists, since the order in
which files and descriptors were added has no meaning. That no number comes twice
(`FlatStore.Sound`) makes a look-up in them a question of membership.
-/

set_option autoImplicit false

namespace Filestore

/-- What the reference shows of a file. -/
def Store.shown (store : Store) (id : FileId) (file : File) : FlatFile :=
  ⟨file.name, (store.chainOf id).contents, !file.deleted⟩

namespace FlatStore

/-- The numbers of the reference store are in order.

- `files_nodup`: no number of a file comes twice.
- `files_lt`: a number not yet reached is free.
- `descriptors_nodup`: no number of a descriptor comes twice. -/
structure Sound (flat : FlatStore) : Prop where
  files_nodup : (flat.files.map Prod.fst).Nodup
  files_lt : ∀ number ∈ flat.files.map Prod.fst, number < flat.nextFile
  descriptors_nodup : (flat.descriptors.map Prod.fst).Nodup

/-- The reference store shows what the store holds, with the files numbered by `num`.

- `config_eq`: the settings are the same.
- `lastError_eq`: the latest outcome is the same.
- `num_inj`: two files in storage have two numbers.
- `mem_files`: the files are those in storage.
- `mem_descriptors`: the descriptors are those in use. -/
structure Represents (num : FileId → Nat) (flat : FlatStore) (store : Store) : Prop
    extends flat.Sound where
  config_eq : flat.config = store.config
  lastError_eq : flat.lastError = store.lastError
  num_inj : ∀ id id' file file', store.file? id = some file → store.file? id' = some file' →
    num id = num id' → id = id'
  mem_files : ∀ number shown, (number, shown) ∈ flat.files ↔
    ∃ id file, store.file? id = some file ∧ number = num id ∧ shown = store.shown id file
  mem_descriptors : ∀ fd shown, (fd, shown) ∈ flat.descriptors ↔
    ∃ descriptor pos, store.descriptors.get? fd = some descriptor ∧
      (store.chainOf descriptor.file).Stands descriptor.cursor pos ∧
      shown = ⟨num descriptor.file, pos⟩

variable {num : FileId → Nat} {flat : FlatStore} {store : Store} {id : FileId} {file : File}
  {fd pos : Nat} {descriptor : Descriptor} {name : String}

/-- The empty reference shows the empty store, however handles are numbered. -/
theorem represents_empty (config : Config) (num : FileId → Nat) :
    (FlatStore.empty config).Represents num (Store.empty config) where
  config_eq := rfl
  lastError_eq := rfl
  files_nodup := List.nodup_nil
  files_lt _ hnumber := by cases hnumber
  num_inj _ _ _ _ hfile := by cases hfile
  mem_files _ _ := ⟨fun hmem => (nomatch hmem), fun ⟨_, _, hfile, _⟩ => nomatch hfile⟩
  descriptors_nodup := List.nodup_nil
  mem_descriptors _ _ := ⟨fun hmem => (nomatch hmem), fun ⟨_, _, hget, _⟩ => nomatch hget⟩

namespace Represents

/-- A file in storage is found under its number, and what is found is what it shows. -/
theorem lookup_file (h : flat.Represents num store) (hfile : store.file? id = some file) :
    flat.files.lookup (num id) = some (store.shown id file) :=
  (lookup_eq_some_iff_mem h.files_nodup).mpr ((h.mem_files _ _).mpr ⟨id, file, hfile, rfl, rfl⟩)

/-- A descriptor in use is found under its number, with the position at which its cursor stands. -/
theorem lookup_descriptor (h : flat.Represents num store)
    (hget : store.descriptors.get? fd = some descriptor)
    (hstands : (store.chainOf descriptor.file).Stands descriptor.cursor pos) :
    flat.descriptors.lookup fd = some ⟨num descriptor.file, pos⟩ :=
  (lookup_eq_some_iff_mem h.descriptors_nodup).mpr
    ((h.mem_descriptors _ _).mpr ⟨descriptor, pos, hget, hstands, rfl⟩)

/-- A descriptor in use is open: the reference finds it and its file. -/
theorem opened_eq_some (h : flat.Represents num store)
    (hget : store.descriptors.get? fd = some descriptor)
    (hfile : store.file? descriptor.file = some file)
    (hstands : (store.chainOf descriptor.file).Stands descriptor.cursor pos) :
    flat.opened fd = some (⟨num descriptor.file, pos⟩, store.shown descriptor.file file) := by
  simp only [opened, h.lookup_descriptor hget hstands, h.lookup_file hfile, Option.bind_eq_bind,
    Option.bind_some, Option.pure_def]

/-- A number that is not in use is not found among the descriptors of the reference. -/
theorem lookup_eq_none (h : flat.Represents num store) (hget : store.descriptors.get? fd = none) :
    flat.descriptors.lookup fd = none := by
  rw [lookup_eq_none_iff_not_mem]
  intro hmem
  obtain ⟨⟨other, shown⟩, hentry, rfl⟩ := List.mem_map.mp hmem
  obtain ⟨descriptor, pos, hsome, -⟩ := (h.mem_descriptors _ _).mp hentry
  cases hget.symm.trans hsome

/-- No descriptor is open under a number that is not in use, so the reference refuses it too. -/
theorem opened_eq_none (h : flat.Represents num store) (hget : store.descriptors.get? fd = none) :
    flat.opened fd = none := by
  simp only [opened, h.lookup_eq_none hget, Option.bind_eq_bind, Option.bind_none]

/-- A name that denotes a file reaches it, and no other of the same name: the others have lost
theirs. -/
theorem find?_eq_some (h : flat.Represents num store) (hsound : store.Sound)
    (hname : store.catalog.lookup name = some id) (hfile : store.file? id = some file) :
    flat.find? name = some (num id, store.shown id file) := by
  obtain ⟨hkept, hbears⟩ := ((hsound.accounts id).lookup_iff_file hfile name).mp hname
  have hmem : (num id, store.shown id file) ∈ flat.files :=
    (h.mem_files _ _).mpr ⟨id, file, hfile, rfl, rfl⟩
  -- Some file is reached, and whichever it is, the store has it under the same name.
  have hreached : (flat.find? name).isSome := by
    rw [find?, List.find?_isSome]
    exact ⟨_, hmem, by simp [Store.shown, hkept, hbears]⟩
  obtain ⟨⟨number, shown⟩, hfound⟩ := Option.isSome_iff_exists.mp hreached
  obtain ⟨other, file', hfile', rfl, rfl⟩ := (h.mem_files _ _).mp (List.mem_of_find?_eq_some hfound)
  have hboth := List.find?_some hfound
  simp only [Store.shown, Bool.and_eq_true, Bool.not_eq_true', beq_iff_eq] at hboth
  have hother := ((hsound.accounts other).lookup_iff name).mpr ⟨file', hfile', hboth.1, hboth.2⟩
  cases hname.symm.trans hother
  cases hfile.symm.trans hfile'
  exact hfound

/-- A name that denotes nothing reaches nothing, as no file in storage has it. -/
theorem find?_eq_none (h : flat.Represents num store) (hsound : store.Sound)
    (hname : store.catalog.lookup name = none) : flat.find? name = none := by
  rw [find?, List.find?_eq_none]
  rintro ⟨number, shown⟩ hmem hboth
  obtain ⟨id, file, hfile, rfl, rfl⟩ := (h.mem_files _ _).mp hmem
  simp only [Store.shown, Bool.and_eq_true, Bool.not_eq_true', beq_iff_eq] at hboth
  have hsome := ((hsound.accounts id).lookup_iff name).mpr ⟨file, hfile, hboth.1, hboth.2⟩
  cases hname.symm.trans hsome

/-- The reference counts as many descriptors of a kind as the table has. Both counts that are
compared are cases of this one. -/
theorem countP_descriptors (h : flat.Represents num store) (hsound : store.Sound)
    {p : Descriptor → Bool} {q : FlatDescriptor → Bool}
    (hkind : ∀ fd descriptor pos, store.descriptors.get? fd = some descriptor →
      q ⟨num descriptor.file, pos⟩ = p descriptor) :
    (flat.descriptors.countP fun entry => q entry.2) = (store.descriptors.numbers p).length := by
  -- Both count numbers, so it is enough that they count the same ones.
  have hnodup : ((flat.descriptors.filter fun entry => q entry.2).map Prod.fst).Nodup :=
    h.descriptors_nodup.sublist (List.filter_sublist.map _)
  have hperm : ((flat.descriptors.filter fun entry => q entry.2).map Prod.fst).Perm
      (store.descriptors.numbers p) := by
    rw [List.perm_ext_iff_of_nodup hnodup (DescriptorTable.nodup_numbers _ _)]
    intro fd
    rw [List.mem_map, DescriptorTable.mem_numbers]
    constructor
    · rintro ⟨⟨other, shown⟩, hentry, rfl⟩
      obtain ⟨hmem, hq⟩ := List.mem_filter.mp hentry
      obtain ⟨descriptor, pos, hget, -, rfl⟩ := (h.mem_descriptors _ _).mp hmem
      exact ⟨descriptor, hget, (hkind _ _ pos hget) ▸ hq⟩
    · rintro ⟨descriptor, hget, hp⟩
      obtain ⟨pos, hstands⟩ := hsound.exists_stands hget
      refine ⟨(fd, ⟨num descriptor.file, pos⟩), List.mem_filter.mpr ⟨?_, ?_⟩, rfl⟩
      · exact (h.mem_descriptors _ _).mpr ⟨descriptor, pos, hget, hstands, rfl⟩
      · exact (hkind fd descriptor pos hget).trans hp
  rw [List.countP_eq_length_filter, ← hperm.length_eq, List.length_map]

/-- As many descriptors are open as the table says, which keeps a count of them. -/
theorem openCount_eq (h : flat.Represents num store) (hsound : store.Sound) :
    flat.openCount = store.openCount := by
  have hcount : (flat.descriptors.countP fun _ => true)
      = (store.descriptors.numbers fun _ => true).length :=
    h.countP_descriptors hsound (q := fun _ => true) fun _ _ _ _ => rfl
  rw [List.countP_true] at hcount
  exact hcount.trans hsound.table.active_eq.symm

/-- A file has as many descriptors as its record says, which keeps a count of them. -/
theorem refs_eq (h : flat.Represents num store) (hsound : store.Sound)
    (hfile : store.file? id = some file) : flat.refs (num id) = file.refs := by
  rw [(hsound.accounts id).refs_eq file hfile, DescriptorTable.length_boundTo]
  refine h.countP_descriptors hsound (q := fun shown => shown.file == num id) ?_
  intro fd descriptor pos hget
  obtain ⟨file', hfile'⟩ := hsound.exists_file hget
  rw [Bool.eq_iff_iff, beq_iff_eq, decide_eq_true_iff]
  exact ⟨h.num_inj _ _ _ _ hfile' hfile, congrArg num⟩

/-- The statistics of a file are what the store says of it, all five parts of them. -/
theorem statOf_eq (h : flat.Represents num store) (hsound : store.Sound)
    (hfile : store.file? id = some file) :
    flat.statOf (num id) (store.shown id file) = file.stat := by
  have hspans := hsound.spans hfile
  have hblocks : file.blocks
      = blocksFor flat.config.blockSize (store.chainOf id).contents.length := by
    rw [hspans.blocks_eq, h.config_eq]
    exact (hsound.storage.packed id).length_eq
  rw [statOf, File.stat, h.refs_eq hsound hfile, hspans.size_eq, hblocks]
  simp [Store.shown]

end Represents

end FlatStore

end Filestore
