import Filestore.Proofs.File.Division
import Filestore.Proofs.Stream.Ready
import Filestore.Store.Basic

/-!
# `Filestore.Proofs.Store.Storage`: the files of a store

`Storage config blocks files` says that the files in storage divide the blocks among them
(`Division`), that every chain is packed, and that every file is within the size limit. It is the
part of the invariant of a store that is about the two slabs alone, and knows nothing of names and
descriptors.

Every operation of a store changes the files at one handle only. `Storage.replace` is therefore
the only preservation lemma: a file is created, changed or taken out by exchanging its chain for
another one, and the chains of the other files stay as they are. What the slab of blocks has to do
for that is `Slab.Exchange`: give up the blocks of the one chain, have those of the other, and
keep the rest.

`Held` covers the three cases in one: the handle denotes a file that lies as the new chain, or it
denotes none and the chain is empty.
-/

set_option autoImplicit false

namespace Filestore

/-- The files divide the blocks among them.

- `blocks_sound`: the storage of blocks knows its vacant slots.
- `files_sound`: the storage of files knows its vacant slots.
- `spans`: every file lies in storage as its chain.
- `packed`: every block but the last of a file is full, and the last one is not empty.
- `within`: no file is larger than allowed.
- `disjoint`: no two files share a block.
- `owned`: every block is one of a file's. -/
structure Storage (config : Config) (blocks : Slab Block) (files : Slab File) : Prop where
  blocks_sound : blocks.Sound
  files_sound : files.Sound
  spans : ∀ id file, files.get? id = some file → file.Spans blocks (chainOf files blocks id)
  packed : ∀ id, (chainOf files blocks id).Packed config.blockSize
  within : ∀ id file, files.get? id = some file → config.Admits file.size
  disjoint : ∀ id other, id ≠ other →
    ∀ key ∈ (chainOf files blocks id).ids, key ∉ (chainOf files blocks other).ids
  owned : ∀ key block, blocks.get? key = some block → ∃ id, key ∈ (chainOf files blocks id).ids

variable {config : Config} {blocks blocks' : Slab Block} {files files' : Slab File} {id : FileId}
  {file : File} {chain' : Chain}

/-- The handle denotes a file that lies in storage as the chain, within the limit, or it denotes
none and the chain is empty. -/
def Held (config : Config) (blocks : Slab Block) (files : Slab File) (id : FileId) (chain : Chain) :
    Prop :=
  (∃ file, files.get? id = some file ∧ file.Spans blocks chain ∧ config.Admits file.size) ∨
    files.get? id = none ∧ chain = []

/-- What is held lies in storage: the limit, which `Held` says more than `LiesAs`, is left out. -/
theorem Held.liesAs {chain : Chain} (h : Held config blocks files id chain) :
    LiesAs blocks files id chain :=
  h.imp_left fun ⟨file, hfile, hspans, _⟩ => ⟨file, hfile, hspans⟩

/-- The file that is held, if there is one, is within the limit. -/
theorem Held.of_get? {chain : Chain} (h : Held config blocks files id chain)
    (hfile : files.get? id = some file) : config.Admits file.size := by
  rcases h with ⟨current, hcurrent, -, hwithin⟩ | ⟨hnone, -⟩
  · cases hfile.symm.trans hcurrent
    exact hwithin
  · cases hfile.symm.trans hnone

/-- Where there is nothing, nothing is shared: two empty slabs are a storage for any settings. -/
theorem storage_empty (config : Config) : Storage config Slab.empty Slab.empty where
  blocks_sound := Slab.sound_empty
  files_sound := Slab.sound_empty
  spans _ _ hfile := by cases hfile
  packed _ := Chain.packed_nil _
  within _ _ hfile := by cases hfile
  disjoint _ _ _ _ hkey := by cases hkey
  owned _ _ hblock := by cases hblock

namespace Storage

/-- The files of a store divide the blocks among them, whatever the capacities of the blocks and
whatever the limit. -/
theorem division (h : Storage config blocks files) : Division blocks files :=
  ⟨h.blocks_sound, h.files_sound, h.spans, h.disjoint, h.owned⟩

/-- The blocks of a file are in storage, at the handles that its chain names. -/
theorem stored (h : Storage config blocks files) (id : FileId) :
    (chainOf files blocks id).Stored blocks := h.division.stored id

/-- A file exchanges its chain for another one, or comes in with one, or goes with it. The other
files have the chains that they had, so they share nothing with the new one. -/
theorem replace (h : Storage config blocks files) (hsound : files'.Sound)
    (hother : ∀ other, other ≠ id → files'.get? other = files.get? other)
    (hexchange : blocks.Exchange blocks' (chainOf files blocks id).ids chain'.ids)
    (hpacked : chain'.Packed config.blockSize) (hheld : Held config blocks' files' id chain') :
    Storage config blocks' files' ∧ chainOf files' blocks' id = chain' ∧
      ∀ other, other ≠ id → chainOf files' blocks' other = chainOf files blocks other := by
  have hself := hheld.liesAs.chainOf_eq
  obtain ⟨hdivision, hsame⟩ := h.division.replace hsound hother hexchange hheld.liesAs
  refine ⟨⟨hdivision.blocks_sound, hdivision.files_sound, hdivision.spans, ?_, ?_,
    hdivision.disjoint, hdivision.owned⟩, hself, hsame⟩
  -- The chains of the other files are what they were, and so are their sizes.
  · intro other
    by_cases heq : other = id
    · rwa [heq, hself]
    · rw [hsame other heq]
      exact h.packed other
  · intro other file hfile
    by_cases heq : other = id
    · subst heq
      exact hheld.of_get? hfile
    · exact h.within other file ((hother other heq).symm.trans hfile)

end Storage

end Filestore
