import Mathlib.Data.List.Nodup
import Filestore.Proofs.Catalog.Files
import Filestore.Proofs.Slab.Ledger
import Filestore.Proofs.Text.ByteOrder

/-!
# `Filestore.Proofs.Catalog.Ledger`: a catalog and what its user knows

Whoever makes all uses of a catalog and of the blocks of its files can keep a ledger of them: which
file was created under which name, which of them lost their names, and which were reclaimed. A
`Catalog.Ledger` has these and nothing else. A name is current (`Ledger.current`) for the file that
was created under it last, as long as that file was neither unlinked nor reclaimed.

`keeps_recordAll` is the main result. After any uses with fewer than 2 ^ 32 files created since the
catalog was last cleared, the names denote what is current, the files in storage are those created
and not reclaimed, and each of them has blocks of its own, which go with it when it is reclaimed
(`Catalog.Keeps`). A name may be created while another file has it. That file stays in storage
without the name and is reclaimed without taking it from its new owner.

The files are in a slab, so their handles are kept track of as those of any slab are
(`Slab.Tracks`): no handle is given out twice, and an outdated one denotes nothing. What the names
denote follows from the handles alone, since no two names were created with the same one. How many
blocks there were does not matter. The handle of a block is kept in the chain that the block is in
and nowhere else, so none of them is ever outdated.
-/

set_option autoImplicit false

namespace Filestore

namespace Catalog

/-- A use of a catalog and of the blocks of its files. -/
inductive Call where
  /-- Creates a file under a name, whether or not the name is taken. -/
  | create (name : String)
  /-- Looks a name up. -/
  | lookup (name : String)
  /-- Takes a name from its file. -/
  | unlink (name : String)
  /-- Appends a block of bytes to a file. -/
  | append (id : FileId) (capacity : Nat) (data : Bytes)
  /-- Takes a file and its blocks out of storage. -/
  | reclaim (id : FileId)
  /-- Gives up everything. -/
  | clear
  deriving Repr

/-- What a use gives back. -/
inductive Answer where
  /-- The handle of a file created. -/
  | created (id : FileId)
  /-- The file that a name denotes, if it denotes one. -/
  | found (id : Option FileId)
  /-- The file that had the name, or the complaint that none had. -/
  | unlinked (result : Except Error FileId)
  /-- The handle of the block, or the complaint that there is none. -/
  | appended (result : Except Error BlockId)
  /-- The file taken out, if it was there. -/
  | reclaimed (file : Option File)
  /-- Nothing. -/
  | done
  deriving Repr

/-- Answers a use. -/
def perform (catalog : Catalog) (blocks : Slab Block) : Call → Answer × Catalog × Slab Block
  | .create name => (.created (catalog.create name).1, (catalog.create name).2, blocks)
  | .lookup name => (.found (catalog.lookup name), catalog, blocks)
  | .unlink name =>
    match catalog.unlink name with
    | .error e => (.unlinked (.error e), catalog, blocks)
    | .ok (id, rest) => (.unlinked (.ok id), rest, blocks)
  | .append id capacity data =>
    let (result, rest, stored) := catalog.append blocks id capacity data
    (.appended result, rest, stored)
  | .reclaim id =>
    let (file, rest, stored) := catalog.reclaim id blocks
    (.reclaimed file, rest, stored)
  | .clear => (.done, empty, Slab.empty)

/-- What a user knows of a catalog who has made all uses of it since it was last cleared. -/
structure Ledger where
  /-- The names of the files created, the latest first, each with the handle of its file. -/
  created : List (String × FileId)
  /-- The files that were unlinked, the latest first. -/
  unlinked : List FileId
  /-- The files that were reclaimed, the latest first. -/
  reclaimed : List FileId
  deriving Repr

namespace Ledger

/-- The ledger of a catalog that has just been cleared. -/
def empty : Ledger := ⟨[], [], []⟩

/-- The handles given out, the latest first. -/
def issued (ledger : Ledger) : List FileId := ledger.created.map Prod.snd

/-- The file created last under a name, unless it was unlinked or reclaimed. -/
def current (ledger : Ledger) (name : String) : Option FileId :=
  (ledger.created.lookup name).filter fun id => id ∉ ledger.unlinked ∧ id ∉ ledger.reclaimed

/-- Records a use. The answer matters for a creation only, which says the handle there. -/
def note (ledger : Ledger) : Call → Answer → Ledger
  | .create name, .created id => { ledger with created := (name, id) :: ledger.created }
  | .unlink name, _ =>
    match ledger.current name with
    | none => ledger
    | some id => { ledger with unlinked := id :: ledger.unlinked }
  | .reclaim id, _ =>
    if id ∈ ledger.issued ∧ id ∉ ledger.reclaimed then
      { ledger with reclaimed := id :: ledger.reclaimed }
    else ledger
  | .clear, _ => empty
  | _, _ => ledger

/-- A file is current for a name when it was created last under it and is neither unlinked nor
reclaimed. An earlier file of the name is not, whatever happened to the later one. -/
theorem current_eq_some_iff {ledger : Ledger} {name : String} {id : FileId} :
    ledger.current name = some id ↔
      ledger.created.lookup name = some id ∧ id ∉ ledger.unlinked ∧ id ∉ ledger.reclaimed := by
  rw [current, Option.filter_eq_some_iff, decide_eq_true_iff]

/-- A file that is unlinked or reclaimed is not current any more, and every other one is if it
was. Both ways of losing a name are this one lemma, with another list that gets longer. -/
theorem current_of_drop (ledger ledger' : Ledger) (id : FileId)
    (hcreated : ledger'.created = ledger.created)
    (hdrop : ∀ key, key ∉ ledger'.unlinked ∧ key ∉ ledger'.reclaimed ↔
      key ≠ id ∧ key ∉ ledger.unlinked ∧ key ∉ ledger.reclaimed) (name : String) :
    ledger'.current name = if ledger.current name = some id then none else ledger.current name := by
  rw [current, current, hcreated]
  cases ledger.created.lookup name with
  | none => rfl
  | some key =>
    simp only [hdrop]
    by_cases hkey : key = id <;> simp [Option.filter_some, hkey]

end Ledger

/-- Makes a use of a catalog and its blocks and records it. -/
def record (state : Ledger × Catalog × Slab Block) (call : Call) : Ledger × Catalog × Slab Block :=
  let (answer, catalog, blocks) := state.2.1.perform state.2.2 call
  (state.1.note call answer, catalog, blocks)

/-- Makes uses of an empty catalog one after another and records them. -/
def recordAll (calls : List Call) : Ledger × Catalog × Slab Block :=
  calls.foldl record (Ledger.empty, empty, Slab.empty)

/-- The catalog and the blocks are as the ledger says.

- `named`: a name that is found denotes a file in storage that bears it.
- `lookup_eq`: a name denotes what is current.
- `stored_iff`: the files in storage are those created and not reclaimed.
- `divided`: the files divide the blocks among them.
- `reclaimed`: a file that is reclaimed is given back and goes with its blocks and its name, if it
  has it, and nothing else.
- `expired`: reclaiming a file again gives nothing back and changes nothing.
- `len_eq`: the blocks in storage are as many as the files count.
- `ascending`: the names are listed in the order of their bytes, none twice.
- `mem_names`: the names listed are those whose last file was neither unlinked nor reclaimed. -/
structure Keeps (catalog : Catalog) (blocks : Slab Block) (ledger : Ledger) : Prop where
  named : ∀ name id, catalog.lookup name = some id →
    ∃ file, catalog.files.get? id = some file ∧ file.name = name
  lookup_eq : ∀ name, catalog.lookup name = ledger.current name
  stored_iff : ∀ id, (∃ file, catalog.files.get? id = some file) ↔
    id ∈ ledger.issued ∧ id ∉ ledger.reclaimed
  divided : Division blocks catalog.files
  reclaimed : ∀ id file, catalog.files.get? id = some file →
    ∃ catalog' blocks', catalog.reclaim id blocks =
        (some { file with head := none, tail := none, size := 0, blocks := 0 }, catalog', blocks') ∧
      Reclaimed catalog blocks id file catalog' blocks'
  expired : ∀ id ∈ ledger.reclaimed, catalog.reclaim id blocks = (none, catalog, blocks)
  len_eq : blocks.len = (catalog.files.values.map File.blocks).sum
  ascending : catalog.names.Pairwise fun name later =>
    Text.Utf8.encode name.toList < Text.Utf8.encode later.toList
  mem_names : ∀ name, name ∈ catalog.names ↔
    ∃ id, ledger.created.lookup name = some id ∧ id ∉ ledger.unlinked ∧ id ∉ ledger.reclaimed

/-- What the catalog, the blocks and the ledger keep in common from use to use.

- `division`: the files divide the blocks among them.
- `slots`: the handles of the files are those of a slab whose user knows the same.
- `ascending`: the directory lists the names in order.
- `lookup_eq`: a name denotes what is current.
- `named`: a file in storage bears the name that it was created under.
- `issued_of_unlinked`: only files created were unlinked. -/
structure Tracks (catalog : Catalog) (blocks : Slab Block) (ledger : Ledger) : Prop where
  division : Division blocks catalog.files
  slots : ∃ slots : Slab.Ledger File, catalog.files.Tracks slots ∧ slots.issued = ledger.issued ∧
    slots.removed = ledger.reclaimed
  ascending : catalog.directory.Ascending
  lookup_eq : ∀ name, catalog.lookup name = ledger.current name
  named : ∀ name id file, (name, id) ∈ ledger.created → catalog.files.get? id = some file →
    file.name = name
  issued_of_unlinked : ∀ id ∈ ledger.unlinked, id ∈ ledger.issued

variable {catalog : Catalog} {blocks : Slab Block} {ledger : Ledger} {id : FileId} {name : String}

/-- An empty catalog and a ledger without entries go together: there is nothing in either. -/
theorem tracks_empty : empty.Tracks Slab.empty Ledger.empty where
  division := division_empty
  slots := ⟨Slab.Ledger.empty, Slab.tracks_empty, rfl, rfl⟩
  ascending := Directory.ascending_empty
  lookup_eq _ := rfl
  named _ _ _ h := nomatch h
  issued_of_unlinked _ h := nomatch h

/-- The files in storage are those created and not reclaimed. This is the same statement about a
slab, read for the slab of files. -/
theorem Tracks.stored_iff (h : catalog.Tracks blocks ledger) (id : FileId) :
    (∃ file, catalog.files.get? id = some file) ↔ id ∈ ledger.issued ∧ id ∉ ledger.reclaimed := by
  obtain ⟨slots, hslots, hissued, hremoved⟩ := h.slots
  rw [← hslots.mem_live_iff, Slab.Ledger.mem_live, hissued, hremoved]

/-- The handle of a file that was never created or that was reclaimed denotes nothing in storage,
also where its slot has another file by now. -/
theorem Tracks.get?_eq_none (h : catalog.Tracks blocks ledger)
    (hid : ¬ (id ∈ ledger.issued ∧ id ∉ ledger.reclaimed)) : catalog.files.get? id = none := by
  rw [← h.stored_iff id, ← Option.ne_none_iff_exists'] at hid
  exact Decidable.not_not.mp hid

/-- No handle was given out twice, as for any slab of which fewer than 2 ^ 32 values were in
storage ever since it was cleared. -/
theorem Tracks.distinct (h : catalog.Tracks blocks ledger) : ledger.issued.Nodup := by
  obtain ⟨slots, hslots, hissued, -⟩ := h.slots
  exact hissued ▸ hslots.distinct

/-- No two names were created with the same handle, so a handle says under which name its file was
created. -/
theorem Tracks.name_eq (h : catalog.Tracks blocks ledger) {other : String}
    (hname : (name, id) ∈ ledger.created) (hother : (other, id) ∈ ledger.created) :
    name = other :=
  congrArg Prod.fst (List.inj_on_of_nodup_map h.distinct hname hother rfl)

/-- What a name denotes was created under it. The directory therefore never leads to a file of
another name. -/
theorem Tracks.mem_created (h : catalog.Tracks blocks ledger)
    (hlookup : catalog.lookup name = some id) : (name, id) ∈ ledger.created := by
  rw [h.lookup_eq, Ledger.current_eq_some_iff] at hlookup
  exact mem_of_lookup hlookup.1

/-- A new file is current for its name, and nothing else changes. The file that had the name
before stays in storage, without it. -/
theorem Tracks.create (h : catalog.Tracks blocks ledger) (name : String) :
    (catalog.create name).2.Tracks blocks
      { ledger with created := (name, (catalog.create name).1) :: ledger.created } := by
  obtain ⟨slots, hslots, hissued, hremoved⟩ := h.slots
  have hfresh := hslots.fst_insert_not_mem (File.named name)
  rw [hissued] at hfresh
  -- So the handle is current at once, as it was neither unlinked nor reclaimed before.
  have hreclaimed : (catalog.files.insert (File.named name)).1 ∉ ledger.reclaimed := by
    intro hmem
    exact hfresh (hissued ▸ hslots.issued_of_removed _ (hremoved ▸ hmem))
  refine ⟨h.division.insert name, ⟨_, hslots.insert (File.named name), ?_, hremoved⟩,
    h.ascending.insert name _, ?_, ?_, ?_⟩
  · exact congrArg (List.cons _) hissued
  · intro other
    show (catalog.directory.insert name _).get? other = _
    rw [Directory.get?_insert]
    split
    · rename_i heq
      rw [heq, eq_comm, Ledger.current_eq_some_iff]
      exact ⟨List.lookup_cons_self, mt (h.issued_of_unlinked _) hfresh, hreclaimed⟩
    · rename_i hne
      show catalog.lookup other = _
      rw [h.lookup_eq, Ledger.current, Ledger.current, lookup_cons_of_ne hne]
  · intro other key file hmem hfile
    rcases List.mem_cons.mp hmem with heq | hmem
    · cases heq
      cases (Slab.get?_insert_self catalog.files (File.named name)).symm.trans hfile
      rfl
    · -- A file recorded before has another handle, so it is the file that it was.
      have hne : key ≠ (catalog.files.insert (File.named name)).1 := by
        intro heq
        exact hfresh (heq ▸ List.mem_map_of_mem hmem)
      exact h.named other key file hmem ((Slab.get?_insert_of_ne hne).symm.trans hfile)
  · intro key hkey
    exact List.mem_cons_of_mem _ (h.issued_of_unlinked key hkey)

/-- A file that is unlinked is current for no name, and nothing else changes. The file itself
stays in storage until it is reclaimed. -/
theorem Tracks.unlink (h : catalog.Tracks blocks ledger) (hname : catalog.lookup name = some id) :
    Tracks { catalog with directory := catalog.directory.erase name } blocks
      { ledger with unlinked := id :: ledger.unlinked } := by
  have hmem := h.mem_created hname
  refine ⟨h.division, h.slots, h.ascending.erase name, ?_, h.named, ?_⟩
  · intro other
    show (catalog.directory.erase name).get? other = _
    rw [Directory.get?_erase, Ledger.current_of_drop ledger
      { ledger with unlinked := id :: ledger.unlinked } id rfl (by simp [and_assoc]), ← h.lookup_eq]
    -- The file had no other name.
    refine if_congr ?_ rfl rfl
    constructor
    · intro heq
      rw [heq, hname]
    · intro hother
      exact h.name_eq (h.mem_created hother) hmem
  · intro key hkey
    rcases List.mem_cons.mp hkey with rfl | hkey
    · exact List.mem_map_of_mem hmem
    · exact h.issued_of_unlinked key hkey

/-- A file that gets a block keeps its name and its handle, and nothing else changes. Where it
cannot have the block, nothing changes at all. -/
theorem Tracks.append (h : catalog.Tracks blocks ledger) (id : FileId) (capacity : Nat)
    (data : Bytes) :
    (catalog.append blocks id capacity data).2.1.Tracks
      (catalog.append blocks id capacity data).2.2 ledger := by
  unfold Catalog.append Catalog.get
  cases hfile : catalog.files.get? id with
  | none => exact h
  | some file =>
    obtain ⟨chain', hedit, -⟩ := (h.division.spans id file hfile).appendData capacity data
    obtain ⟨slots, hslots, hissued, hremoved⟩ := h.slots
    have hlive := hslots.mem_live_iff.mpr ⟨file, hfile⟩
    refine ⟨h.division.edit hfile hedit, ⟨_, hslots.replace hlive _, hissued, hremoved⟩,
      h.ascending, h.lookup_eq, ?_, h.issued_of_unlinked⟩
    intro other key file' hmem hfile'
    by_cases heq : key = id
    · subst heq
      cases (Slab.get?_set_self hfile _).symm.trans hfile'
      exact hedit.name_eq.trans (h.named other key file hmem hfile)
    · exact h.named other key file' hmem ((Slab.get?_set_of_ne heq _).symm.trans hfile')

/-- A file that is reclaimed is current for no name, and nothing else changes. The bound is for
the slab of files, whose slot must not come round to a generation it had. -/
theorem Tracks.reclaim (h : catalog.Tracks blocks ledger)
    (hfew : ledger.created.length < Slab.maxSlots) {file : File}
    (hfile : catalog.files.get? id = some file) :
    (catalog.reclaim id blocks).2.1.Tracks (catalog.reclaim id blocks).2.2
      { ledger with reclaimed := id :: ledger.reclaimed } := by
  have hgone := reclaimed_of_get? h.division hfile
  obtain ⟨slots, hslots, hissued, hremoved⟩ := h.slots
  have hlive := hslots.mem_live_iff.mpr ⟨file, hfile⟩
  have hfew' : slots.issued.length < Slab.maxSlots := by
    rw [hissued, Ledger.issued, List.length_map]
    exact hfew
  rw [reclaim_of_get? hfile] at hgone ⊢
  refine ⟨(h.division.release hfile).1, ⟨_, hslots.remove hfew' hlive, hissued, ?_⟩, ?_, ?_, ?_,
    h.issued_of_unlinked⟩
  · exact congrArg (List.cons id) hremoved
  · show Directory.Ascending (if _ then _ else _)
    split
    · exact h.ascending.erase file.name
    · exact h.ascending
  · intro name
    rw [hgone.lookup_eq, Ledger.current_of_drop ledger
      { ledger with reclaimed := id :: ledger.reclaimed } id rfl (by simp [and_left_comm]),
      ← h.lookup_eq]
    -- The file has no name but the one that it bears.
    refine if_congr ?_ rfl rfl
    refine and_iff_right_of_imp ?_
    intro hname
    exact (h.named name id file (h.mem_created hname) hfile).symm
  · intro name key other hmem hother
    have hne : key ≠ id := by
      rintro rfl
      cases hgone.gone.symm.trans hother
    exact h.named name key other hmem ((hgone.others key hne).symm.trans hother)

/-- A use of a catalog and its record go together. This is the step of the induction, with one
case for each kind of use. -/
theorem Tracks.record (h : catalog.Tracks blocks ledger)
    (hfew : ledger.created.length < Slab.maxSlots) (call : Call) :
    (record (ledger, catalog, blocks) call).2.1.Tracks (record (ledger, catalog, blocks) call).2.2
      (record (ledger, catalog, blocks) call).1 := by
  cases call with
  | create name => exact h.create name
  | lookup name => exact h
  -- The catalog and the ledger look the name up apart, and come to the same handle.
  | unlink name =>
    have hcurrent := h.lookup_eq name
    cases hname : catalog.lookup name with
    | none =>
      rw [hname] at hcurrent
      simp only [Catalog.record, perform, Catalog.unlink, hname, Ledger.note, ← hcurrent]
      exact h
    | some id =>
      rw [hname] at hcurrent
      simp only [Catalog.record, perform, Catalog.unlink, hname, Ledger.note, ← hcurrent]
      exact h.unlink hname
  | append id capacity data => exact h.append id capacity data
  | reclaim id =>
    show Tracks (catalog.reclaim id blocks).2.1 (catalog.reclaim id blocks).2.2 (if _ then _ else _)
    split
    · rename_i hlive
      obtain ⟨file, hfile⟩ := (h.stored_iff id).mpr hlive
      exact h.reclaim hfew hfile
    · rename_i hlive
      rw [reclaim_of_get?_eq_none (h.get?_eq_none hlive)]
      exact h
  | clear => exact tracks_empty

/-- Files are forgotten only when the catalog is cleared, and then there are none to keep track
of. So the bound on the files created holds before a use if it holds after it, or is not needed. -/
theorem length_created_le_record (state : Ledger × Catalog × Slab Block) (call : Call) :
    state.1.created.length ≤ (record state call).1.created.length ∨
      (record state call).2.1.Tracks (record state call).2.2 (record state call).1 := by
  cases call with
  | create name => exact .inl (Nat.le_succ _)
  | lookup name | append id capacity data => exact .inl (Nat.le_refl _)
  | unlink name | reclaim id =>
    left
    simp only [Catalog.record, Ledger.note]
    split <;> exact Nat.le_refl _
  | clear => exact .inr tracks_empty

/-- All uses of a catalog and their records go together, provided the bound holds at the end. The
induction is on the uses from the last to the first. -/
theorem tracks_recordAll (calls : List Call)
    (hfew : (recordAll calls).1.created.length < Slab.maxSlots) :
    (recordAll calls).2.1.Tracks (recordAll calls).2.2 (recordAll calls).1 :=
  foldl_of_count_lt
    (fun state : Ledger × Catalog × Slab Block => state.2.1.Tracks state.2.2 state.1)
    (fun state => state.1.created.length) tracks_empty length_created_le_record
    (fun _ call h hbefore => h.record hbefore call) calls hfew

/-- A catalog that keeps track of its ledger keeps to it. This is where what the handles do is
turned into what the names denote. -/
theorem Tracks.keeps (h : catalog.Tracks blocks ledger) : catalog.Keeps blocks ledger where
  named name id hname := by
    have hmem := h.mem_created hname
    rw [h.lookup_eq, Ledger.current_eq_some_iff] at hname
    obtain ⟨file, hfile⟩ := (h.stored_iff id).mpr ⟨List.mem_map_of_mem hmem, hname.2.2⟩
    exact ⟨file, hfile, h.named name id file hmem hfile⟩
  lookup_eq := h.lookup_eq
  stored_iff := h.stored_iff
  divided := h.division
  reclaimed id file hfile :=
    ⟨_, _, reclaim_of_get? hfile blocks, by
      have hgone := reclaimed_of_get? h.division hfile
      rwa [reclaim_of_get? hfile] at hgone⟩
  expired id hid := reclaim_of_get?_eq_none (h.get?_eq_none fun hlive => hlive.2 hid) blocks
  len_eq := h.division.len_eq_sum
  ascending := by
    refine List.pairwise_map.mpr (List.Pairwise.imp ?_ h.ascending)
    intro entry later hlt
    exact Text.Utf8.encode_lt hlt
  mem_names name := by
    rw [names, Directory.mem_names_iff]
    simp only [← Ledger.current_eq_some_iff, ← h.lookup_eq]
    rfl

/-- Whatever uses are made of a catalog and the blocks of its files, they keep to the ledger, as
long as fewer than 2 ^ 32 files were created since the catalog was last cleared. -/
theorem keeps_recordAll (calls : List Call)
    (hfew : (recordAll calls).1.created.length < Slab.maxSlots) :
    (recordAll calls).2.1.Keeps (recordAll calls).2.2 (recordAll calls).1 :=
  (tracks_recordAll calls hfew).keeps

/-- A name is created while it is taken, and its first file is reclaimed. The second one keeps it.
The handle of the first one is outdated when another file gets its slot. -/
theorem keeps_recordAll_recreated :
    let calls : List Call :=
      [.create "lost", .clear, .create "a", .append ⟨0, 0⟩ 2 [1, 2, 3], .create "a",
        .append ⟨1, 0⟩ 4 [4], .append ⟨0, 0⟩ 1 [5], .create "é", .create "z", .unlink "é",
        .reclaim ⟨0, 0⟩, .create "b", .append ⟨0, 1⟩ 3 [6], .reclaim ⟨0, 0⟩]
    (recordAll calls).1.created.length < Slab.maxSlots ∧
      (recordAll calls).2.1.Keeps (recordAll calls).2.2 (recordAll calls).1 ∧
      (recordAll calls).1.created =
        [("b", ⟨0, 1⟩), ("z", ⟨3, 0⟩), ("é", ⟨2, 0⟩), ("a", ⟨1, 0⟩), ("a", ⟨0, 0⟩)] ∧
      (recordAll calls).1.unlinked = [⟨2, 0⟩] ∧ (recordAll calls).1.reclaimed = [⟨0, 0⟩] ∧
      (recordAll calls).2.1.names = ["a", "b", "z"] ∧
      (recordAll calls).2.1.lookup "a" = some ⟨1, 0⟩ ∧ (recordAll calls).2.2.len = 2 := by
  intro calls
  have hfew : (recordAll calls).1.created.length < Slab.maxSlots := by decide
  exact ⟨hfew, keeps_recordAll calls hfew, by decide, by decide, by decide, by decide, by decide,
    by decide⟩

end Catalog

end Filestore
