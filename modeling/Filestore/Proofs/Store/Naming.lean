import Filestore.Proofs.Store.Sound
import Filestore.Store.Naming

/-!
# `Filestore.Proofs.Store.Naming`: what opening, closing and deleting do to a store

Opening makes a file where there is none (`Sound.created`) and binds a descriptor to it
(`Sound.bound`). Closing takes a descriptor away, deleting a name; either of them takes the file
out of storage when neither a name nor a descriptor is left to reach it (`Sound.discarded`). A
file that stays keeps its blocks.

There are two kinds of change. `Adjusted` is a file with other accounts: a count of descriptors, a
mark that it was deleted, a name that leads to it or no longer does. `Discarded` is a file that is
gone with its blocks. `Sound.adjust` and `Sound.discard` make either out of what happens to the
directory and the table, and say that the store is sound afterwards.

The spec lemmas `Sound.openFile_cases`, `Sound.delete_cases` and `Sound.close_cases` say what each
call does in which case, and `Sound.create`, `Sound.bind`, `Sound.delete_held`,
`Sound.delete_free`, `Sound.close_kept` and `Sound.close_last` which of the two kinds of change
each case is. So later proofs do not look into the operations.
-/

set_option autoImplicit false

namespace Filestore

namespace Store

variable {store : Store} {id : FileId} {file : File} {name : String} {fd : Nat}

/-- The store with a new empty file of a name, which the name denotes from now on. -/
def created (store : Store) (name : String) : Store :=
  { store with catalog := (store.catalog.create name).2 }

/-- The store with one more descriptor on a file, under the lowest number that is free, and
counted by the file. -/
def bound (store : Store) (id : FileId) (file : File) : Store :=
  { store with
    catalog := store.catalog.set id { file with refs := file.refs + 1 }
    descriptors := (store.descriptors.allocate id).2 }

/-- The store with another table and directory, and a file with other accounts. The blocks are not
touched. -/
def adjusted (store : Store) (id : FileId) (file' : File) (directory' : Directory)
    (table' : DescriptorTable) : Store :=
  { store with
    catalog := ⟨store.catalog.files.set id file', directory'⟩
    descriptors := table' }

/-- The store with another table and directory, without a file and its blocks. The blocks go to
the free list in the order of the chain. -/
def discarded (store : Store) (id : FileId) (file : File) (directory' : Directory)
    (table' : DescriptorTable) : Store :=
  { store with
    blocks := (file.release store.blocks).2.2
    catalog := ⟨store.catalog.files.erase id, directory'⟩
    descriptors := table' }

/-- A file has other accounts, and nothing else changed.

- `sound`: the parts of the store agree.
- `elsewhere`: nothing else changed.
- `file?_eq`: the handle denotes the file with its new accounts.
- `chainOf_eq`: the file has the blocks that it had. -/
structure Adjusted (store store' : Store) (id : FileId) (file' : File) : Prop where
  sound : store'.Sound
  elsewhere : Elsewhere store store' id
  file?_eq : store'.file? id = some file'
  chainOf_eq : store'.chainOf id = store.chainOf id

/-- A file is gone, and nothing else changed.

- `sound`: the parts of the store agree.
- `elsewhere`: nothing else changed.
- `file?_eq`: the handle denotes nothing. -/
structure Discarded (store store' : Store) (id : FileId) : Prop where
  sound : store'.Sound
  elsewhere : Elsewhere store store' id
  file?_eq : store'.file? id = none

/-- No descriptor is open on a handle that denotes no file, so a handle that is still to be given
out is in no slot of the table. -/
theorem Sound.file_ne (h : store.Sound) (hfile : store.file? id = none) (fd : Nat)
    (descriptor : Descriptor) (hget : store.descriptors.get? fd = some descriptor) :
    descriptor.file ≠ id := by
  intro hid
  obtain ⟨file, hfile'⟩ := (h.accounts id).opened fd descriptor hget hid
  cases hfile.symm.trans hfile'

/-- A file with other accounts lies in storage as it did. The accounts themselves are left to be
shown, for the one file that they are about; all others are as before, as the table and the
directory are the same ones elsewhere. -/
theorem Sound.adjust (h : store.Sound) (hfile : store.file? id = some file) (file' : File)
    (directory' : Directory) (table' : DescriptorTable)
    (hextent : file'.Spans store.blocks (store.chainOf id)) (htable : table'.Sound)
    (hascending : directory'.Ascending)
    (hget : ∀ fd descriptor, descriptor.file ≠ id →
      (table'.get? fd = some descriptor ↔ store.descriptors.get? fd = some descriptor))
    (hlookup : ∀ name other, other ≠ id →
      (directory'.get? name = some other ↔ store.catalog.lookup name = some other))
    (haccounts : (store.adjusted id file' directory' table').file? id = some file' →
      (store.adjusted id file' directory' table').chainOf id = store.chainOf id →
      (store.adjusted id file' directory' table').Accounts id) :
    Adjusted store (store.adjusted id file' directory' table') id file' := by
  have hself : (store.catalog.files.set id file').get? id = some file' :=
    Slab.get?_set_self hfile file'
  -- The size is that of the same chain as before, so it is still within the limit.
  have hadmits : store.config.Admits file'.size := by
    rw [hextent.size_eq, ← (h.spans hfile).size_eq]
    exact h.storage.within id file hfile
  obtain ⟨hstorage, hchain, hothers⟩ := h.storage.replace (h.storage.files_sound.set id file')
    (fun other hne => Slab.get?_set_of_ne hne file') (Slab.Exchange.refl store.blocks _)
    (h.storage.packed id) (.inl ⟨file', hself, hextent, hadmits⟩)
  have helse : Elsewhere store (store.adjusted id file' directory' table') id :=
    ⟨fun other hne => Slab.get?_set_of_ne hne file', hothers, hget, hlookup⟩
  exact ⟨h.of_elsewhere helse hstorage htable hascending (haccounts hself hchain), helse,
    hself, hchain⟩

/-- A file that nothing refers to any more goes with its blocks. What has to be shown is that no
descriptor and no name of the store afterwards leads to it. -/
theorem Sound.discard (h : store.Sound) (hfile : store.file? id = some file)
    (directory' : Directory) (table' : DescriptorTable) (htable : table'.Sound)
    (hascending : directory'.Ascending)
    (hget : ∀ fd descriptor, table'.get? fd = some descriptor ↔
      descriptor.file ≠ id ∧ store.descriptors.get? fd = some descriptor)
    (hlookup : ∀ name other, directory'.get? name = some other ↔
      other ≠ id ∧ store.catalog.lookup name = some other) :
    Discarded store (store.discarded id file directory' table') id := by
  have hself : (store.discarded id file directory' table').file? id = none :=
    Slab.get?_erase_self _ id
  obtain ⟨-, hedit⟩ := (h.spans hfile).release
  obtain ⟨hstorage, -, hothers⟩ := h.storage.replace (h.storage.files_sound.erase id)
    (fun other hne => Slab.get?_erase_of_ne hne _) hedit.exchange (Chain.packed_nil _)
    (.inr ⟨hself, rfl⟩)
  have helse : Elsewhere store (store.discarded id file directory' table') id :=
    ⟨fun other hne => Slab.get?_erase_of_ne hne _, hothers,
      fun fd descriptor hne => (hget fd descriptor).trans (and_iff_right hne),
      fun name other hne => (hlookup name other).trans (and_iff_right hne)⟩
  -- There is no file under the handle now, and what is left to be seen is that nothing leads to it.
  have haccounts : (store.discarded id file directory' table').Accounts id :=
    accounts_of_none hself (fun fd descriptor hbound => ((hget fd descriptor).mp hbound).1)
      fun name hname => ((hlookup name id).mp hname).1 rfl
  exact ⟨h.of_elsewhere helse hstorage htable hascending haccounts, helse, hself⟩

/-- A name leads to the new file if it is that file's, and to what it led to otherwise. -/
private theorem lookup_created (store : Store) (name other : String) :
    (store.created name).catalog.lookup other
      = if other = name then some (store.catalog.create name).1
        else store.catalog.lookup other :=
  Directory.get?_insert _ name other _

/-- A new file of a free name is empty, at a handle that denoted nothing before, and changes
nothing elsewhere. -/
theorem Sound.create (h : store.Sound) (hname : store.catalog.lookup name = none) :
    store.file? (store.catalog.create name).1 = none ∧
      Adjusted store (store.created name) (store.catalog.create name).1 (File.named name) := by
  have hfresh : store.file? (store.catalog.create name).1 = none := Slab.get?_fst_insert _ _
  have hself : (store.created name).file? (store.catalog.create name).1 = some (File.named name) :=
    Slab.get?_insert_self _ _
  have hother : ∀ other, other ≠ (store.catalog.create name).1 →
      (store.created name).file? other = store.file? other := fun other hne =>
    Slab.get?_insert_of_ne hne
  have hascending : (store.created name).catalog.directory.Ascending :=
    h.ascending.insert name (store.catalog.create name).1
  have hlookup := store.lookup_created name
  -- From here on only matters that the handle is a fresh one.
  generalize (store.catalog.create name).1 = id at *
  have hspans : (File.named name).Spans store.blocks (store.chainOf id) := by
    rw [show store.chainOf id = [] from chainOf_eq_nil hfresh]
    exact File.spans_named name store.blocks
  obtain ⟨hstorage, hchain, hothers⟩ := h.storage.replace (h.storage.files_sound.insert _) hother
    (Slab.Exchange.refl store.blocks _) (h.storage.packed id)
    (.inl ⟨_, hself, hspans, fun _ _ => Nat.zero_le _⟩)
  have hnobody := h.file_ne hfresh
  have hunnamed : ∀ other, store.catalog.lookup other ≠ some id := by
    intro other hsome
    obtain ⟨file, hfile, -⟩ := h.exists_file_of_lookup hsome
    cases hfresh.symm.trans hfile
  have helse : Elsewhere store (store.created name) id := by
    refine ⟨hother, hothers, fun _ _ _ => Iff.rfl, ?_⟩
    intro other owner hne
    -- The one name that leads elsewhere now led nowhere before.
    rw [hlookup]
    split
    · rename_i heq
      rw [heq, hname]
      exact ⟨fun h => absurd (Option.some.inj h).symm hne, fun h => nomatch h⟩
    · rfl
  have haccounts : (store.created name).Accounts id := by
    refine accounts_of_file hself ?_ ?_ ?_ ?_
    · intro fd descriptor hget hid
      exact absurd hid (hnobody fd descriptor hget)
    · exact (DescriptorTable.length_boundTo_eq_zero_iff.mpr hnobody).symm
    · intro other
      rw [hlookup]
      split
      · rename_i heq
        exact ⟨fun _ => ⟨rfl, heq.symm⟩, fun _ => rfl⟩
      · rename_i hne
        exact ⟨fun hsome => absurd hsome (hunnamed other), fun hbears => absurd hbears.2.symm hne⟩
    · exact fun hdeleted => nomatch hdeleted
  exact ⟨hfresh, h.of_elsewhere helse hstorage h.table hascending haccounts, helse, hself, hchain⟩

/-- A descriptor on a file has the lowest number not in use, and has not touched the file: its
cursor stands before the first byte without a block. -/
theorem Sound.bind (h : store.Sound) (hfile : store.file? id = some file) :
    Adjusted store (store.bound id file) id { file with refs := file.refs + 1 } := by
  have haccounts := h.accounts id
  have hlookup := haccounts.lookup_iff_file hfile
  have hallocate := h.table.get?_allocate id
  have hfree := h.table.get?_fst_allocate id
  refine h.adjust hfile { file with refs := file.refs + 1 } store.catalog.directory
    (store.descriptors.allocate id).2 ((h.spans hfile).with_accounts _ _)
    (h.table.allocate id) h.ascending ?_ (fun _ _ _ => Iff.rfl)
    fun hself hchain => accounts_of_file hself ?_ ?_
      hlookup fun _ => Nat.succ_pos _
  -- The new number was not in use, and its descriptor is open on this file: no other file gets one.
  · intro fd descriptor hne
    rw [hallocate]
    split
    · rename_i heq
      rw [heq, hfree]
      exact ⟨fun hget => absurd (congrArg Descriptor.file (Option.some.inj hget)).symm hne,
        fun hget => nomatch hget⟩
    · rfl
  · intro fd descriptor hget hid
    replace hget : (store.descriptors.allocate id).2.get? fd = some descriptor := hget
    rw [hallocate] at hget
    rw [hchain]
    split at hget
    · cases hget
      exact ⟨0, .unset, Chain.settled_unset _⟩
    · exact haccounts.cursor hget hid
  · show file.refs + 1 = ((store.descriptors.allocate id).2.boundTo id).length
    rw [haccounts.refs_eq file hfile, DescriptorTable.length_boundTo,
      DescriptorTable.length_boundTo]
    refine (DescriptorTable.length_numbers_succ hfree
      ⟨Descriptor.onFile id, ?_, decide_eq_true rfl⟩ ?_).symm
    · rw [hallocate, if_pos rfl]
    · intro other hother
      rw [hallocate, if_neg hother]

/-- Opening binds a descriptor to the file of the name, or to a new one where the name is free and
a file is to be made, and is refused where it is free and none is to be. -/
theorem Sound.openFile_cases (h : store.Sound) (name : String) (create : Bool) :
    (∃ id file, store.catalog.lookup name = some id ∧ store.file? id = some file ∧
      store.openFile name create
        = (store.bound id file).conclude (.ok (store.descriptors.allocate id).1)) ∨
    store.catalog.lookup name = none ∧ create = true ∧
      store.openFile name create
        = ((store.created name).bound (store.catalog.create name).1 (File.named name)).conclude
          (.ok (store.descriptors.allocate (store.catalog.create name).1).1) ∨
    store.catalog.lookup name = none ∧ create = false ∧
      store.openFile name create = store.conclude (.error (.noSuchFile name)) := by
  cases hname : store.catalog.lookup name with
  | some id =>
    obtain ⟨file, hfile, -⟩ := h.exists_file_of_lookup hname
    refine .inl ⟨id, file, rfl, hfile, ?_⟩
    rw [file?] at hfile
    simp only [openFile, obtain, hname, Catalog.get, hfile]
    rfl
  | none =>
    right
    cases create with
    | false => exact .inr ⟨rfl, rfl, by simp [openFile, obtain, hname]⟩
    | true =>
      refine .inl ⟨rfl, rfl, ?_⟩
      have hself := (h.create hname).2.file?_eq
      replace hself : (store.catalog.create name).2.files.get? (store.catalog.create name).1
        = some (File.named name) := hself
      simp only [openFile, obtain, hname, if_true, Catalog.get, hself]
      rfl

/-- A file without its name is not reached by any other one, since no two names denote one file,
and the other names lead where they led. -/
private theorem Sound.get?_erase_iff (h : store.Sound) (hname : store.catalog.lookup name = some id)
    (other : String) (owner : FileId) :
    (store.catalog.directory.erase name).get? other = some owner ↔
      owner ≠ id ∧ store.catalog.lookup other = some owner := by
  by_cases heq : other = name
  · subst heq
    rw [Directory.get?_erase_self, hname]
    exact ⟨fun hsome => (nomatch hsome),
      fun ⟨hne, hsome⟩ => absurd (Option.some.inj hsome).symm hne⟩
  · rw [Directory.get?_erase_of_ne heq, ← Catalog.lookup]
    refine ⟨fun hsome => ⟨?_, hsome⟩, fun hboth => hboth.2⟩
    rintro rfl
    exact heq (h.eq_of_lookup hsome hname)

/-- Deleting takes the name from its file, which stays while it is open and goes otherwise. A name
that does not exist is refused. -/
theorem Sound.delete_cases (h : store.Sound) (name : String) :
    store.catalog.lookup name = none ∧
      store.delete name = store.conclude (.error (.noSuchFile name)) ∨
    ∃ id file, store.catalog.lookup name = some id ∧ store.file? id = some file ∧
      (0 < file.refs ∧ store.delete name = (store.adjusted id { file with deleted := true }
          (store.catalog.directory.erase name) store.descriptors).conclude (.ok ()) ∨
        file.refs = 0 ∧ store.delete name = (store.discarded id file
          (store.catalog.directory.erase name) store.descriptors).conclude (.ok ())) := by
  cases hname : store.catalog.lookup name with
  | none => exact .inl ⟨rfl, by simp [delete, Catalog.unlink, hname]⟩
  | some id =>
    obtain ⟨file, hfile, -, hbears⟩ := h.exists_file_of_lookup hname
    refine .inr ⟨id, file, rfl, hfile, ?_⟩
    rw [file?] at hfile
    rcases Nat.eq_zero_or_pos file.refs with hzero | hpos
    · right
      -- The file bears the name that was just erased, so there is none left to erase with it.
      have hgone : (store.catalog.directory.erase name).get? file.name ≠ some id := by
        rw [hbears, Directory.get?_erase_self]
        rintro ⟨⟩
      simp only [delete, Catalog.unlink, hname, Catalog.get, hfile, hzero, Nat.lt_irrefl, if_false,
        reclaim, Catalog.reclaim, hgone]
      exact ⟨trivial, rfl⟩
    · left
      simp only [delete, Catalog.unlink, hname, Catalog.get, hfile, hpos, if_true]
      exact ⟨trivial, rfl⟩

/-- Closing takes the descriptor from its file, which goes when it was deleted and this was the
last one. The file's count is one more than the descriptors left on it, so it never falls below
zero. -/
theorem Sound.close_cases (h : store.Sound) (fd : Nat) :
    store.descriptors.get? fd = none ∧
      store.close fd = store.conclude (.error (.badDescriptor fd)) ∨
    ∃ descriptor file left, store.descriptors.get? fd = some descriptor ∧
      store.file? descriptor.file = some file ∧
      store.descriptors.release fd = .ok (descriptor, left) ∧
      file.refs = (left.boundTo descriptor.file).length + 1 ∧
      (file.refs - 1 = 0 ∧ file.deleted = true ∧ store.close fd
          = (store.discarded descriptor.file file store.catalog.directory left).conclude (.ok ()) ∨
        ¬ (file.refs - 1 = 0 ∧ file.deleted = true) ∧ store.close fd
          = (store.adjusted descriptor.file { file with refs := file.refs - 1 }
            store.catalog.directory left).conclude (.ok ())) := by
  cases hget : store.descriptors.get? fd with
  | none => exact .inl ⟨rfl, by simp [close, DescriptorTable.release, hget]⟩
  | some descriptor =>
    obtain ⟨file, hfile⟩ := h.exists_file hget
    have hrelease := DescriptorTable.release_eq_ok_iff.mpr ⟨hget, rfl⟩
    refine .inr ⟨descriptor, file, _, rfl, hfile, hrelease, ?_, ?_⟩
    · rw [(h.accounts descriptor.file).refs_eq file hfile, DescriptorTable.length_boundTo,
        DescriptorTable.length_boundTo]
      exact DescriptorTable.length_numbers_release hrelease (decide_eq_true rfl)
    · rw [file?] at hfile
      by_cases hlast : file.refs - 1 = 0 ∧ file.deleted = true
      · left
        refine ⟨hlast.1, hlast.2, ?_⟩
        -- The name, if it denotes a file, denotes another one by now.
        have hother : store.catalog.directory.get? file.name ≠ some descriptor.file :=
          h.lookup_ne_of_deleted hfile hlast.2 file.name
        have hset := Slab.get?_set_self hfile { file with refs := file.refs - 1 }
        simp only [close, hrelease, Catalog.get, hfile, if_pos hlast, reclaim, Catalog.reclaim,
          Catalog.set, hset, hother, if_false, Slab.erase_set]
        rfl
      · right
        refine ⟨hlast, ?_⟩
        simp only [close, hrelease, Catalog.get, hfile, if_neg hlast]
        rfl

/-- A deleted file that is open stays, without its name and with the blocks and descriptors it
had. -/
theorem Sound.delete_held (h : store.Sound) (hname : store.catalog.lookup name = some id)
    (hfile : store.file? id = some file) (hheld : 0 < file.refs) :
    Adjusted store (store.adjusted id { file with deleted := true }
      (store.catalog.directory.erase name) store.descriptors) id { file with deleted := true } := by
  have haccounts := h.accounts id
  refine h.adjust hfile _ _ _ ((h.spans hfile).with_accounts _ _) h.table (h.ascending.erase name)
    (fun _ _ _ => Iff.rfl)
    (fun other owner hne => (h.get?_erase_iff hname other owner).trans (and_iff_right hne))
    fun hself hchain => accounts_of_file hself (fun fd descriptor hget hid => ?_)
      (haccounts.refs_eq file hfile) (fun other => ?_) fun _ => hheld
  · rw [hchain]
    exact haccounts.cursor hget hid
  · refine (h.get?_erase_iff hname other id).trans ⟨fun hboth => absurd rfl hboth.1, ?_⟩
    exact fun hbears => nomatch hbears.1

/-- A deleted file that is not open goes at once, with its blocks. -/
theorem Sound.delete_free (h : store.Sound) (hname : store.catalog.lookup name = some id)
    (hfile : store.file? id = some file) (hfree : file.refs = 0) :
    Discarded store
      (store.discarded id file (store.catalog.directory.erase name) store.descriptors) id := by
  refine h.discard hfile _ _ h.table (h.ascending.erase name) (fun fd descriptor => ?_)
    (h.get?_erase_iff hname)
  -- A file that counts no descriptors has none, so none is taken away with it.
  have hcount := (h.accounts id).refs_eq file hfile
  rw [hfree] at hcount
  have hnobody := DescriptorTable.length_boundTo_eq_zero_iff.mp hcount.symm
  exact (and_iff_right_of_imp (hnobody fd descriptor)).symm

section Closing

variable {descriptor : Descriptor} {left : DescriptorTable}

/-- A file that is still open or still named stays when a descriptor goes, and counts one less. -/
theorem Sound.close_kept (h : store.Sound) (hfile : store.file? descriptor.file = some file)
    (hrelease : store.descriptors.release fd = .ok (descriptor, left))
    (hrefs : file.refs = (left.boundTo descriptor.file).length + 1)
    (hkept : ¬ (file.refs - 1 = 0 ∧ file.deleted = true)) :
    Adjusted store (store.adjusted descriptor.file { file with refs := file.refs - 1 }
      store.catalog.directory left) descriptor.file { file with refs := file.refs - 1 } := by
  have haccounts := h.accounts descriptor.file
  have hlookup := haccounts.lookup_iff_file hfile
  refine h.adjust hfile _ _ _ ((h.spans hfile).with_accounts _ _) (h.table.release hrelease)
    h.ascending
    (fun other bound hne => DescriptorTable.get?_release_iff_of_file_ne hrelease hne other)
    (fun _ _ _ => Iff.rfl)
    fun hself hchain => accounts_of_file hself (fun other bound hbound hid => ?_)
      (Nat.sub_eq_of_eq_add hrefs) hlookup fun hdeleted => ?_
  · rw [hchain]
    exact haccounts.cursor ((DescriptorTable.get?_release_iff hrelease other).mp hbound).2 hid
  · exact Nat.pos_of_ne_zero fun hzero => hkept ⟨hzero, hdeleted⟩

/-- A deleted file goes with its last descriptor, with its blocks. -/
theorem Sound.close_last (h : store.Sound) (hfile : store.file? descriptor.file = some file)
    (hrelease : store.descriptors.release fd = .ok (descriptor, left))
    (hrefs : file.refs = (left.boundTo descriptor.file).length + 1)
    (hlast : file.refs - 1 = 0) (hdeleted : file.deleted = true) :
    Discarded store (store.discarded descriptor.file file store.catalog.directory left)
      descriptor.file := by
  -- The count that the closed descriptor leaves is the true one, so no other is open on the file.
  have hnobody := DescriptorTable.length_boundTo_eq_zero_iff.mp
    (show (left.boundTo descriptor.file).length = 0 by omega)
  refine h.discard hfile _ _ (h.table.release hrelease) h.ascending (fun other bound => ⟨?_, ?_⟩)
    fun other owner => (and_iff_right_of_imp ?_).symm
  · exact fun hbound => ⟨hnobody other bound hbound,
      ((DescriptorTable.get?_release_iff hrelease other).mp hbound).2⟩
  · exact fun hboth =>
      (DescriptorTable.get?_release_iff_of_file_ne hrelease hboth.1 other).mpr hboth.2
  · rintro hname rfl
    exact h.lookup_ne_of_deleted hfile hdeleted other hname

end Closing

end Store

end Filestore
