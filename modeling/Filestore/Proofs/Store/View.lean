import Filestore.Proofs.Flat.Counts
import Filestore.Proofs.Store.Edited
import Mathlib.Algebra.GroupWithZero.Nat

/-!
# `Filestore.Proofs.Store.View`: what can be seen of one file

A `FileView` is what callers can find out about a file: its statistics, its contents, and the
stream positions of the descriptors open on it. It says nothing of handles, so it does not tell in
which slots of the shared storage the file and its blocks are.

An edit of a file determines its view from the view before (`Edited.view_eq`), and leaves the
views of all other files as they were (`Elsewhere.view_eq`). The views of all files determine how
many blocks there are (`Sound.blockCount_eq_of_view_eq`).

The statistics follow from the name, the bytes and the number of descriptors (`Sound.stat_eq`), as
the number of blocks is the one that so many bytes take. Without that two stores with the same
bytes might still be told apart, by blocks that hold nothing.
-/

set_option autoImplicit false

namespace Filestore

/-- What can be seen of a file. -/
structure FileView where
  /-- The statistics. -/
  stat : Stat
  /-- The byte string. -/
  contents : Bytes
  /-- The stream position of every descriptor open on the file. -/
  position : Nat → Option Nat

namespace Store

/-- The file that a descriptor is open on. -/
def fileOf (store : Store) (fd : Nat) : Option FileId :=
  (store.descriptors.get? fd).map Descriptor.file

/-- The descriptor of a number, if it is open on the file. -/
def openOn (store : Store) (id : FileId) (fd : Nat) : Option Descriptor :=
  (store.descriptors.get? fd).filter fun descriptor => descriptor.file = id

/-- What can be seen of the file of a handle. -/
def view (store : Store) (id : FileId) : Option FileView :=
  (store.file? id).map fun file =>
    { stat := file.stat
      contents := file.contents store.blocks
      position := fun fd =>
        (store.openOn id fd).bind fun descriptor => file.position store.blocks descriptor.cursor }

variable {store store' : Store} {id other : FileId} {file : File} {fd pos : Nat}
  {descriptor : Descriptor} {bytes : Bytes} {place : Nat → Nat → Nat} {view : FileView}

/-- A descriptor is open on the file just when its number is in use for it and it names that
file. -/
theorem openOn_eq_some_iff :
    store.openOn id fd = some descriptor ↔
      store.descriptors.get? fd = some descriptor ∧ descriptor.file = id := by
  rw [openOn, Option.filter_eq_some_iff, decide_eq_true_iff]

/-- The view of a file in storage is made from its chain: the contents are those of its blocks,
and a position is where a cursor stands among them. -/
theorem Sound.view_eq (h : store.Sound) (hfile : store.file? id = some file) :
    store.view id = some
      { stat := file.stat
        contents := (store.chainOf id).contents
        position := fun fd =>
          (store.openOn id fd).bind fun descriptor =>
            (store.chainOf id).position descriptor.cursor } := by
  rw [view, hfile, Option.map_some, (h.spans hfile).contents_eq]
  simp only [File.position, (h.spans hfile).chain_eq]

/-- A view is one of a file in storage. A handle that denotes none has no view. -/
theorem exists_file_of_view (hview : store.view id = some view) :
    ∃ file, store.file? id = some file := by
  obtain ⟨file, hfile, -⟩ := Option.map_eq_some_iff.mp hview
  exact ⟨file, hfile⟩

/-- A descriptor is seen at the position at which its cursor stands, and a number without a
descriptor on the file is not seen at all. -/
theorem Sound.position_eq_some_iff (h : store.Sound) (hview : store.view id = some view) :
    view.position fd = some pos ↔
      ∃ descriptor, store.descriptors.get? fd = some descriptor ∧ descriptor.file = id ∧
        (store.chainOf id).Stands descriptor.cursor pos := by
  obtain ⟨file, hfile⟩ := exists_file_of_view hview
  cases (h.view_eq hfile).symm.trans hview
  have hnodup := (h.spans hfile).nodup
  simp only [Option.bind_eq_some_iff, openOn_eq_some_iff, and_assoc]
  constructor
  · rintro ⟨descriptor, hget, rfl, hposition⟩
    obtain ⟨stand, hstands⟩ := h.exists_stands hget
    cases (hstands.position_eq hnodup).symm.trans hposition
    exact ⟨descriptor, hget, rfl, hstands⟩
  · rintro ⟨descriptor, hget, hid, hstands⟩
    exact ⟨descriptor, hget, hid, hstands.position_eq hnodup⟩

/-- A descriptor is seen in the file that it is open on, at some position. -/
theorem Sound.exists_view (h : store.Sound) (hopen : store.fileOf fd = some id) :
    ∃ view pos, store.view id = some view ∧ view.position fd = some pos := by
  obtain ⟨descriptor, hget, rfl⟩ := Option.map_eq_some_iff.mp hopen
  obtain ⟨file, hfile⟩ := h.exists_file hget
  obtain ⟨pos, hstands⟩ := h.exists_stands hget
  have hview := h.view_eq hfile
  exact ⟨_, pos, hview, (h.position_eq_some_iff hview).mpr ⟨descriptor, hget, rfl, hstands⟩⟩

/-- A number is seen in a file just when its descriptor is open on it, so a view also tells which
numbers these are. -/
theorem Sound.position_eq_none_iff (h : store.Sound) (hview : store.view id = some view) :
    view.position fd = none ↔ store.fileOf fd ≠ some id := by
  rw [Option.eq_none_iff_forall_ne_some, ne_eq, fileOf, Option.map_eq_some_iff]
  constructor
  · rintro hnone ⟨descriptor, hget, rfl⟩
    obtain ⟨pos, hstands⟩ := h.exists_stands hget
    exact hnone pos ((h.position_eq_some_iff hview).mpr ⟨descriptor, hget, rfl, hstands⟩)
  · intro hnobody pos hsome
    obtain ⟨descriptor, hget, hid, -⟩ := (h.position_eq_some_iff hview).mp hsome
    exact hnobody ⟨descriptor, hget, hid⟩

/-- Where everything but one file stays, the links of another file lead along the same blocks with
the same bytes. -/
theorem Elsewhere.chain_eq (h : Elsewhere store store' id) (hne : other ≠ id)
    (hfile : store.file? other = some file) :
    file.chain store'.blocks = file.chain store.blocks := by
  have hbefore : store.chainOf other = file.chain store.blocks := Filestore.chainOf_eq hfile
  have hafter : store'.chainOf other = file.chain store'.blocks :=
    Filestore.chainOf_eq ((h.file?_eq other hne).trans hfile)
  rw [← hbefore, ← hafter]
  exact h.chainOf_eq other hne

/-- Where everything but one file stays, the other files look as they did, the positions in them
among the rest. -/
theorem Elsewhere.view_eq (h : Elsewhere store store' id) (hne : other ≠ id) :
    store'.view other = store.view other := by
  have hopen : store'.openOn other = store.openOn other := by
    funext fd
    refine Option.ext fun descriptor => ?_
    rw [openOn_eq_some_iff, openOn_eq_some_iff]
    refine and_congr_left fun hfile => h.get?_iff fd descriptor ?_
    rwa [hfile]
  unfold view
  rw [h.file?_eq other hne]
  cases hfile : store.file? other with
  | none => rfl
  | some file =>
    simp only [Option.map_some, File.contents, File.position, h.chain_eq hne hfile, hopen]

/-- The statistics of a file follow from its name, its bytes and the descriptors in use. -/
theorem Sound.stat_eq (h : store.Sound) (hfile : store.file? id = some file) :
    file.stat =
      { name := file.name
        size := (store.chainOf id).contents.length
        blocks := FlatStore.blocksFor store.config.blockSize (store.chainOf id).contents.length
        refs := (store.descriptors.boundTo id).length
        deleted := file.deleted } := by
  have hspans := h.spans hfile
  have hblocks : file.blocks
      = FlatStore.blocksFor store.config.blockSize (store.chainOf id).contents.length :=
    hspans.blocks_eq.trans (h.storage.packed id).length_eq
  rw [File.stat, hspans.size_eq, hblocks, (h.accounts id).refs_eq file hfile]

end Store

/-- The view of a file once its contents are `bytes` and its descriptors have moved. -/
def FileView.edit (view : FileView) (config : Config) (bytes : Bytes)
    (place : Nat → Nat → Nat) : FileView where
  stat :=
    { view.stat with
      size := bytes.length
      blocks := FlatStore.blocksFor config.blockSize bytes.length }
  contents := bytes
  position fd := (view.position fd).map (place fd)

namespace Store

variable {store store' : Store} {id : FileId} {bytes : Bytes} {place : Nat → Nat → Nat}
  {view : FileView}

/-- How a file looks after an edit follows from how it looked before, from the new bytes and from
where the descriptors go. -/
theorem Edited.view_eq (h : Edited store store' id bytes place) (hsound : store.Sound)
    (hview : store.view id = some view) :
    store'.view id = some (view.edit store.config bytes place) := by
  obtain ⟨file, hfile⟩ := exists_file_of_view hview
  obtain ⟨file', hfile', hname, hdeleted⟩ := h.file file hfile
  have hview' := h.sound.view_eq hfile'
  have hstat : file'.stat = (view.edit store.config bytes place).stat := by
    rw [h.sound.stat_eq hfile', hname, hdeleted, h.contents, h.config_eq,
      DescriptorTable.length_boundTo_congr h.file_eq id]
    cases (hsound.view_eq hfile).symm.trans hview
    rw [FileView.edit, hsound.stat_eq hfile]
  -- A position is known by the descriptor that stands there, so both sides are read that way.
  have hposition : ∀ fd, ((store'.openOn id fd).bind fun descriptor =>
      (store'.chainOf id).position descriptor.cursor) = (view.position fd).map (place fd) := by
    intro fd
    cases hpos : view.position fd with
    | none =>
      rw [hsound.position_eq_none_iff hview, fileOf, ← h.file_eq] at hpos
      exact (h.sound.position_eq_none_iff hview').mpr hpos
    | some pos =>
      obtain ⟨descriptor, hget, hid, hstands⟩ := (hsound.position_eq_some_iff hview).mp hpos
      exact (h.sound.position_eq_some_iff hview').mpr (h.moved fd descriptor pos hget hid hstands)
  rw [hview', hstat, h.contents, funext hposition]
  rfl

/-- The blocks in storage are counted by the statistics of the files, since every block is one of
exactly one file's. -/
theorem Sound.blockCount_eq_sum (h : store.Sound) :
    store.blockCount = (store.catalog.files.keys.map fun id =>
      ((store.view id).map fun view => view.stat.blocks).getD 0).sum := by
  rw [blockCount, h.storage.division.len_eq_sum]
  refine congrArg List.sum (Slab.map_values ?_)
  intro id file hfile
  rw [h.view_eq hfile]
  rfl

/-- Where all files look the same, there are as many blocks in storage, though they may be in
other slots. -/
theorem Sound.blockCount_eq_of_view_eq (h : store.Sound) (h' : store'.Sound)
    (hviews : ∀ id, store'.view id = store.view id) : store'.blockCount = store.blockCount := by
  have hkeys : store'.catalog.files.keys.Perm store.catalog.files.keys := by
    rw [List.perm_ext_iff_of_nodup (Slab.nodup_keys _) (Slab.nodup_keys _)]
    intro id
    have hsome := congrArg Option.isSome (hviews id)
    rw [Store.view, Store.view, Option.isSome_map, Option.isSome_map] at hsome
    rw [Slab.mem_keys, Slab.mem_keys, ← Option.isSome_iff_exists, ← Option.isSome_iff_exists]
    exact iff_of_eq (congrArg (· = true) hsome)
  rw [h.blockCount_eq_sum, h'.blockCount_eq_sum, (hkeys.map _).sum_nat]
  simp only [hviews]

end Store

end Filestore
