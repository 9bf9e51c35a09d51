import Mathlib.Algebra.GroupWithZero.Nat
import Filestore.Proofs.File.Spans

/-!
# `Filestore.Proofs.File.Division`: which blocks are whose

`Division blocks files` says that the files in storage divide the blocks among them: every file
spans its chain, no two files share a block, and no block is without a file. What the chains look
like is left open.

Whatever is done to one file is an exchange of its chain for another one. `Division.replace` is
therefore the preservation lemma. A file comes in (`Division.insert`), is changed
(`Division.edit`) or goes out (`Division.release`), and the chains of the other files stay as they
are.

The blocks in storage are those of the files (`Division.keys_perm`), so their number is the sum of
what the files count (`Division.len_eq_sum`). That no block is without a file matters as much as
that none has two: without it, storage would fill up with blocks that nothing can give back.

A handle that denotes no file has a chain too, the one without blocks (`chainOf`). With that, the
statements are about all handles and a file that comes or goes is no case of its own (`LiesAs`).
-/

set_option autoImplicit false

namespace Filestore

/-- The blocks of the file that a handle denotes, and none where it denotes no file. -/
def chainOf (files : Slab File) (blocks : Slab Block) (id : FileId) : Chain :=
  match files.get? id with
  | none => []
  | some file => file.chain blocks

variable {blocks blocks' : Slab Block} {files files' : Slab File} {id : FileId} {file : File}
  {chain chain' : Chain}

/-- The blocks of a handle that denotes a file are those along the file's links. -/
theorem chainOf_eq (hfile : files.get? id = some file) :
    chainOf files blocks id = file.chain blocks := by
  rw [chainOf, hfile]

/-- A file that spans a chain has that chain, as the links lead along one only. -/
theorem chainOf_eq_of_spans (hfile : files.get? id = some file) (hspans : file.Spans blocks chain) :
    chainOf files blocks id = chain := by
  rw [chainOf_eq hfile, hspans.chain_eq]

/-- A handle that denotes no file has no blocks, whatever its slot holds by now. -/
theorem chainOf_eq_nil (hfile : files.get? id = none) : chainOf files blocks id = [] := by
  rw [chainOf, hfile]

/-- The handle denotes a file that lies in storage as the chain, or it denotes none and the chain is
empty. -/
def LiesAs (blocks : Slab Block) (files : Slab File) (id : FileId) (chain : Chain) : Prop :=
  (∃ file, files.get? id = some file ∧ file.Spans blocks chain) ∨ files.get? id = none ∧ chain = []

/-- The chain that a handle lies as is the one of the handle, be there a file or none. -/
theorem LiesAs.chainOf_eq (h : LiesAs blocks files id chain) : chainOf files blocks id = chain := by
  rcases h with ⟨file, hfile, hspans⟩ | ⟨hfile, rfl⟩
  · exact chainOf_eq_of_spans hfile hspans
  · exact chainOf_eq_nil hfile

/-- The file, if there is one, lies in storage as the chain and counts its bytes and blocks. -/
theorem LiesAs.of_get? (h : LiesAs blocks files id chain) (hfile : files.get? id = some file) :
    file.Spans blocks chain := by
  rcases h with ⟨current, hcurrent, hspans⟩ | ⟨hnone, -⟩
  · cases hfile.symm.trans hcurrent
    exact hspans
  · cases hfile.symm.trans hnone

/-- The files divide the blocks among them.

- `blocks_sound`: the storage of blocks knows its vacant slots.
- `files_sound`: the storage of files knows its vacant slots.
- `spans`: every file lies in storage as its chain.
- `disjoint`: no two files share a block.
- `owned`: every block is one of a file's. -/
structure Division (blocks : Slab Block) (files : Slab File) : Prop where
  blocks_sound : blocks.Sound
  files_sound : files.Sound
  spans : ∀ id file, files.get? id = some file → file.Spans blocks (chainOf files blocks id)
  disjoint : ∀ id other, id ≠ other →
    ∀ key ∈ (chainOf files blocks id).ids, key ∉ (chainOf files blocks other).ids
  owned : ∀ key block, blocks.get? key = some block → ∃ id, key ∈ (chainOf files blocks id).ids

/-- Where there is nothing, nothing is shared: an empty storage is divided among no files. -/
theorem division_empty : Division Slab.empty Slab.empty where
  blocks_sound := Slab.sound_empty
  files_sound := Slab.sound_empty
  spans _ _ hfile := by cases hfile
  disjoint _ _ _ _ hkey := by cases hkey
  owned _ _ hblock := by cases hblock

namespace Division

/-- The blocks of a file are in storage, each under its handle. A handle without a file has none. -/
theorem stored (h : Division blocks files) (id : FileId) :
    (chainOf files blocks id).Stored blocks := by
  cases hfile : files.get? id with
  | none =>
    rw [chainOf_eq_nil hfile]
    exact fun _ hentry => nomatch hentry
  | some file => exact (h.spans id file hfile).stored

/-- A file exchanges its chain for another one, or comes in with one, or goes with it. The blocks
that come in were nobody's, and those that go out were this file's alone, so the other files keep
theirs. -/
theorem replace (h : Division blocks files) (hsound : files'.Sound)
    (hother : ∀ other, other ≠ id → files'.get? other = files.get? other)
    (hexchange : blocks.Exchange blocks' (chainOf files blocks id).ids chain'.ids)
    (hlies : LiesAs blocks' files' id chain') :
    Division blocks' files' ∧
      ∀ other, other ≠ id → chainOf files' blocks' other = chainOf files blocks other := by
  have hself := hlies.chainOf_eq
  have hsame : ∀ other, other ≠ id → chainOf files' blocks' other = chainOf files blocks other := by
    intro other hne
    cases hfile : files.get? other with
    | none => rw [chainOf_eq_nil hfile, chainOf_eq_nil ((hother other hne).trans hfile)]
    | some file =>
      exact chainOf_eq_of_spans ((hother other hne).trans hfile)
        ((h.spans other file hfile).exchange hexchange (h.disjoint other id hne))
  -- Each part is checked at the file that is exchanged and at the others, which keep their chains.
  refine ⟨⟨hexchange.sound h.blocks_sound, hsound, ?_, ?_, ?_⟩, hsame⟩
  · intro other file hfile
    by_cases heq : other = id
    · subst heq
      exact hself.symm ▸ hlies.of_get? hfile
    · rw [hsame other heq]
      exact (h.spans other file ((hother other heq).symm.trans hfile)).exchange hexchange
        (h.disjoint other id heq)
  · intro first second hne key hfirst
    by_cases heq : first = id
    · subst heq
      rw [hself] at hfirst
      rw [hsame second hne.symm]
      exact (h.stored second).not_mem_of_exchange hexchange
        (h.disjoint second first hne.symm) hfirst
    · rw [hsame first heq] at hfirst
      by_cases heq' : second = id
      · rw [heq', hself]
        exact fun hkey =>
          (h.stored first).not_mem_of_exchange hexchange (h.disjoint first id heq) hkey hfirst
      · rw [hsame second heq']
        exact h.disjoint first second hne key hfirst
  · intro key block hblock
    rcases hexchange.of_get?_eq_some hblock with hnew | ⟨hold, hbefore⟩
    · exact ⟨id, by rwa [hself]⟩
    · obtain ⟨owner, howner⟩ := h.owned key block hbefore
      -- A block that was there before and is not of the new chain was not of the old one either.
      refine ⟨owner, ?_⟩
      rwa [hsame owner (by rintro rfl; exact hold howner)]

/-- A new file has no blocks yet, so it takes nothing from the others. -/
theorem insert (h : Division blocks files) (name : String) :
    Division blocks (files.insert (File.named name)).2 := by
  refine (h.replace (h.files_sound.insert _) (fun other hne => Slab.get?_insert_of_ne hne) ?_
    (.inl ⟨_, Slab.get?_insert_self files _, File.spans_named name blocks⟩)).1
  rw [chainOf_eq_nil (Slab.get?_fst_insert files _)]
  exact Slab.Exchange.refl blocks _

/-- An edit of one file leaves the files apart: it touches only blocks of its own and new ones. -/
theorem edit (h : Division blocks files) (hfile : files.get? id = some file) {file' : File}
    (hedit : file.Edit blocks (chainOf files blocks id) file' blocks' chain') :
    Division blocks' (files.set id file') :=
  (h.replace (h.files_sound.set id file') (fun _ hne => Slab.get?_set_of_ne hne file')
    hedit.exchange (.inl ⟨file', Slab.get?_set_self hfile file', hedit.spans⟩)).1

/-- A file goes with its blocks, and the others keep theirs. -/
theorem release (h : Division blocks files) (hfile : files.get? id = some file) :
    Division (file.release blocks).2.2 (files.erase id) ∧
      ∀ other, other ≠ id →
        chainOf (files.erase id) (file.release blocks).2.2 other = chainOf files blocks other := by
  obtain ⟨-, hedit⟩ := (h.spans id file hfile).release
  exact h.replace (h.files_sound.erase id) (fun _ hne => Slab.get?_erase_of_ne hne files)
    hedit.exchange (.inr ⟨Slab.get?_erase_self files id, rfl⟩)

/-- The blocks in storage are those of the files, each of one file and once. -/
theorem keys_perm (h : Division blocks files) :
    blocks.keys.Perm (files.keys.flatMap fun id => (chainOf files blocks id).ids) := by
  -- A chain has no block twice, and two chains have none in common.
  have hnodup : (files.keys.flatMap fun id => (chainOf files blocks id).ids).Nodup := by
    rw [List.Nodup, List.pairwise_flatMap]
    refine ⟨?_, ?_⟩
    · intro id hid
      obtain ⟨file, hfile⟩ := Slab.mem_keys.mp hid
      exact (h.spans id file hfile).nodup
    · refine List.Pairwise.imp ?_ (Slab.nodup_keys _)
      intro _ _ hne key hkey key' hkey'
      rintro rfl
      exact h.disjoint _ _ hne key hkey hkey'
  rw [List.perm_ext_iff_of_nodup (Slab.nodup_keys _) hnodup]
  intro key
  rw [Slab.mem_keys, List.mem_flatMap]
  constructor
  · rintro ⟨block, hblock⟩
    obtain ⟨id, hkey⟩ := h.owned key block hblock
    refine ⟨id, Slab.mem_keys.mpr ?_, hkey⟩
    rw [← Option.ne_none_iff_exists']
    intro hnone
    rw [chainOf_eq_nil hnone] at hkey
    cases hkey
  · rintro ⟨id, -, hkey⟩
    obtain ⟨entry, hentry, rfl⟩ := List.mem_map.mp hkey
    exact ⟨_, h.stored id entry hentry⟩

/-- The blocks in storage are counted by the files: each of them counts its own, and there are no
others. -/
theorem len_eq_sum (h : Division blocks files) :
    blocks.len = (files.values.map File.blocks).sum := by
  rw [h.blocks_sound.counted, h.keys_perm.length_eq, List.length_flatMap]
  refine congrArg List.sum (Slab.map_values ?_).symm
  intro id file hfile
  rw [Chain.length_ids, (h.spans id file hfile).blocks_eq]

end Division

end Filestore
