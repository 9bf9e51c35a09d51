import Filestore.Proofs.Flat.Represents

/-!
# `Filestore.Proofs.Flat.Counts`: files, blocks and names, listed and counted

A reference store that shows a store lists its files in some order (`Represents.files_perm`). So
the number of files is the same, and the names are the same ones in the same order. The blocks of
the store are those of its files (`Store.Sound.keys_perm`), and a file has as many as the
reference reckons from its length; their number is therefore the same too.

The store keeps each of these numbers as a count, and the reference counts when it is asked. So
the equations here compare two ways of counting, and the store's is right because of its
invariants: the slabs know how many values they hold, and every file has packed blocks.

The names are the one thing that is listed and not counted. The store lists them as its directory
has them and the reference sorts what it finds; two lists of the same names in ascending order are
equal.
-/

set_option autoImplicit false

namespace Filestore

/-- The blocks in storage are those of the files, each of them in the chain of one file and once
there. -/
theorem Store.Sound.keys_perm {store : Store} (h : store.Sound) :
    store.blocks.keys.Perm
      (store.catalog.files.keys.flatMap fun id => (store.chainOf id).ids) :=
  h.storage.division.keys_perm

namespace FlatStore

variable {num : FileId → Nat} {flat : FlatStore} {store : Store}

/-- The file of a handle in storage, as the reference lists it. -/
def listed (num : FileId → Nat) (store : Store) (id : FileId) : Nat × FlatFile :=
  (num id, store.shown id ((store.file? id).getD (File.named "")))

/-- A file in storage is listed under its number, as it is shown. -/
theorem listed_eq {id : FileId} {file : File} (hfile : store.file? id = some file) :
    listed num store id = (num id, store.shown id file) := by
  rw [listed, hfile, Option.getD_some]

namespace Represents

/-- The reference lists the files in storage, each once, in whatever order they were created. -/
theorem files_perm (h : flat.Represents num store) :
    flat.files.Perm (store.catalog.files.keys.map (listed num store)) := by
  have hnodup : (store.catalog.files.keys.map (listed num store)).Nodup := by
    rw [List.Nodup, List.pairwise_map]
    refine List.Pairwise.imp_of_mem ?_ (Slab.nodup_keys _)
    intro _ _ hid hid' hne heq
    obtain ⟨file, hfile⟩ := Slab.mem_keys.mp hid
    obtain ⟨file', hfile'⟩ := Slab.mem_keys.mp hid'
    exact hne (h.num_inj _ _ file file' hfile hfile' (congrArg Prod.fst heq))
  have hfiles : flat.files.Nodup :=
    List.Pairwise.imp (fun hne heq => hne (congrArg Prod.fst heq))
      (List.pairwise_map.mp h.files_nodup)
  -- Neither list repeats a file, so it is enough that they have the same ones in them.
  rw [List.perm_ext_iff_of_nodup hfiles hnodup]
  rintro ⟨number, shown⟩
  rw [h.mem_files, List.mem_map]
  constructor
  · rintro ⟨id, file, hfile, rfl, rfl⟩
    exact ⟨id, Slab.mem_keys.mpr ⟨file, hfile⟩, listed_eq hfile⟩
  · rintro ⟨id, hid, heq⟩
    obtain ⟨file, hfile⟩ := Slab.mem_keys.mp hid
    rw [listed_eq hfile] at heq
    cases heq
    exact ⟨id, file, hfile, rfl, rfl⟩

/-- As many files are in storage as the reference lists, deleted ones that are still open
included. -/
theorem fileCount_eq (h : flat.Represents num store) (hsound : store.Sound) :
    flat.fileCount = store.fileCount := by
  show flat.files.length = store.catalog.files.len
  rw [h.files_perm.length_eq, List.length_map, hsound.storage.files_sound.counted]

/-- As many blocks are in storage as the files take by their sizes: no block is empty, and all but
the last of each file are full. -/
theorem blockCount_eq (h : flat.Represents num store) (hsound : store.Sound) :
    flat.blockCount = store.blockCount := by
  -- Both numbers are sums over the files, and the summands agree, since chains are packed.
  have hsum : flat.blockCount = (flat.files.map fun entry =>
      blocksFor flat.config.blockSize entry.2.bytes.length).sum := by
    rw [List.sum_eq_foldr, List.foldr_map]
    rfl
  rw [hsum, (h.files_perm.map _).sum_nat, List.map_map]
  show _ = store.blocks.len
  rw [hsound.storage.blocks_sound.counted, hsound.keys_perm.length_eq, List.length_flatMap]
  congr 1
  refine List.map_congr_left ?_
  intro id _
  show blocksFor flat.config.blockSize (store.chainOf id).contents.length = _
  rw [h.config_eq, Chain.length_ids]
  exact (hsound.storage.packed id).length_eq.symm

/-- The names that the reference lists are those of the directory: a named file is one that its
name denotes. -/
theorem names_perm (h : flat.Represents num store) (hsound : store.Sound) :
    flat.names.Perm store.names := by
  have hlisted : flat.names.Perm
      (((store.catalog.files.keys.map (listed num store)).filter fun entry => entry.2.named).map
        fun entry => entry.2.name) :=
    (List.mergeSort_perm _ _).trans ((h.files_perm.filter _).map _)
  -- A file is named in the reference where it is not deleted in storage.
  have hnamed : store.catalog.files.keys.filter (fun id => (listed num store id).2.named)
      = store.catalog.files.keys.filter fun id =>
        !(store.catalog.files.get? id).any File.deleted := by
    refine List.filter_congr ?_
    intro id hid
    obtain ⟨file, hfile⟩ := Slab.mem_keys.mp hid
    rw [listed_eq hfile, hfile]
    rfl
  -- Through the directory the same names are found, because a file bears the name that denotes it.
  have hnames : (store.catalog.directory.entries.map Prod.snd).map
      (fun id => (listed num store id).2.name) = store.names := by
    rw [List.map_map]
    refine List.map_congr_left ?_
    intro entry hentry
    obtain ⟨name, id⟩ := entry
    obtain ⟨file, hfile, -, hbears⟩ :=
      hsound.exists_file_of_lookup (hsound.mem_entries.mp hentry)
    rw [Function.comp_apply, listed_eq hfile]
    exact hbears
  rw [List.filter_map, List.map_map] at hlisted
  refine hlisted.trans ?_
  have hentries := (hsound.entries_perm.map fun id => (listed num store id).2.name).symm
  rw [hnames, ← hnamed] at hentries
  exact hentries

/-- The names are the same, in the same order, which is the ascending one in both. -/
theorem names_eq (h : flat.Represents num store) (hsound : store.Sound) :
    flat.names = store.names := by
  have htrans : ∀ a b c : String, decide (a ≤ b) = true → decide (b ≤ c) = true →
      decide (a ≤ c) = true := fun a b c hab hbc =>
    decide_eq_true (String.le_trans (of_decide_eq_true hab) (of_decide_eq_true hbc))
  have htotal : ∀ a b : String, (decide (a ≤ b) || decide (b ≤ a)) = true := by
    intro a b
    rcases String.le_total a b with hle | hle <;> simp [hle]
  -- Two ascending lists of the same names are the same list.
  have hascending : store.names.Pairwise fun a b => decide (a ≤ b) = true := by
    refine List.pairwise_map.mpr (List.Pairwise.imp ?_ hsound.ascending)
    intro _ _ hlt
    exact decide_eq_true (String.not_lt.mp (String.lt_asymm hlt))
  refine (h.names_perm hsound).eq_of_pairwise ?_ (List.pairwise_mergeSort htrans htotal _)
    hascending
  intro a b _ _ hab hba
  exact String.le_antisymm (of_decide_eq_true hab) (of_decide_eq_true hba)

end Represents

end FlatStore

end Filestore
