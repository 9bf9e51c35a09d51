import Filestore.Proofs.Flat.Represents
import Filestore.Proofs.Store.Edited
import Filestore.Proofs.Store.Naming

/-!
# `Filestore.Proofs.Flat.Change`: one file changes, and so does its reference

A call changes a store at one handle, and the reference at one number. `Represents.of_elsewhere`
says that then only what the reference shows under that number is left to check (`ShowsAt`). The
lemmas after it are the changes that calls are made of: a file is edited (`Represents.edited`) or
created (`Represents.created`), a descriptor is bound (`bound`) or taken away (`unbound`,
`closed`), a name is taken away (`unnamed`, `deleted`), and a file goes that neither reaches any
more.

On the side of the store each of these is known by its spec lemma, as an `Elsewhere` for
everything but the handle and an equation for the handle. On the side of the reference they are
maps and filters of two lists (`move`, `drop`, `add`, `link`), of which it is clear what they
leave alone. The numbers of the reference stay in order under each of them (`FlatStore.Sound`).

The numbering of the handles may have to change when a file is created, because the slab may give
it the handle of a file that is gone, which had another number. `renumber` lets the numbers of
handles that denote no file be anything.
-/

set_option autoImplicit false

namespace Filestore

namespace FlatStore

/-- Moves every descriptor of a file. `place` gives the new position. -/
def move (flat : FlatStore) (number : Nat) (place : Nat → Nat → Nat) : FlatStore :=
  { flat with
    descriptors := flat.descriptors.map fun entry =>
      if entry.2.file = number then
        (entry.1, { entry.2 with position := place entry.1 entry.2.position })
      else entry }

/-- Drops a file. -/
def drop (flat : FlatStore) (number : Nat) : FlatStore :=
  { flat with files := flat.files.filter fun entry => entry.1 != number }

/-- Adds a file. -/
def add (flat : FlatStore) (file : FlatFile) : FlatStore :=
  { flat with files := (flat.nextFile, file) :: flat.files, nextFile := flat.nextFile + 1 }

/-- Adds a descriptor. -/
def link (flat : FlatStore) (fd number : Nat) : FlatStore :=
  { flat with descriptors := (fd, ⟨number, 0⟩) :: flat.descriptors }

variable {num : FileId → Nat} {flat flat' : FlatStore} {store store' : Store} {id : FileId}
  {file file' : File} {fd : Nat} {descriptor : Descriptor} {name : String} {number : Nat}

section Numbers

/-- New contents leave the numbers in order, as they change no number. -/
theorem Sound.setBytes (h : flat.Sound) (number : Nat) (bytes : Bytes) :
    (flat.setBytes number bytes).Sound := by
  have hkeys : (flat.setBytes number bytes).files.map Prod.fst = flat.files.map Prod.fst :=
    map_fst_map (fun entry => by split <;> rfl) _
  exact ⟨hkeys ▸ h.files_nodup, hkeys ▸ h.files_lt, h.descriptors_nodup⟩

/-- A name that is taken off a file leaves the numbers in order. -/
theorem Sound.unname (h : flat.Sound) (number : Nat) : (flat.unname number).Sound := by
  have hkeys : (flat.unname number).files.map Prod.fst = flat.files.map Prod.fst :=
    map_fst_map (fun entry => by split <;> rfl) _
  exact ⟨hkeys ▸ h.files_nodup, hkeys ▸ h.files_lt, h.descriptors_nodup⟩

/-- New positions leave the numbers in order, of files and of descriptors. -/
theorem Sound.move (h : flat.Sound) (number : Nat) (place : Nat → Nat → Nat) :
    (flat.move number place).Sound := by
  have hkeys : (flat.move number place).descriptors.map Prod.fst = flat.descriptors.map Prod.fst :=
    map_fst_map (fun entry => by split <;> rfl) _
  exact ⟨h.files_nodup, h.files_lt, hkeys ▸ h.descriptors_nodup⟩

/-- A descriptor that is taken away leaves the numbers of the others in order. -/
theorem Sound.unbind (h : flat.Sound) (fd : Nat) : (flat.unbind fd).Sound :=
  ⟨h.files_nodup, h.files_lt, h.descriptors_nodup.sublist (List.filter_sublist.map _)⟩

/-- A file that is dropped leaves the numbers of the others in order. -/
theorem Sound.drop (h : flat.Sound) (number : Nat) : (flat.drop number).Sound :=
  ⟨h.files_nodup.sublist (List.filter_sublist.map _),
    fun number hnumber => h.files_lt number ((List.filter_sublist.map _).subset hnumber),
    h.descriptors_nodup⟩

/-- A new file has a number of its own, which is the next one that no file has had. -/
theorem Sound.add (h : flat.Sound) (file : FlatFile) : (flat.add file).Sound := by
  refine ⟨List.nodup_cons.mpr ⟨?_, h.files_nodup⟩, ?_,
    h.descriptors_nodup⟩
  · intro hmem
    exact Nat.lt_irrefl _ (h.files_lt _ hmem)
  · intro number hnumber
    rcases List.mem_cons.mp hnumber with rfl | hold
    · exact Nat.lt_succ_self _
    · exact Nat.lt_succ_of_lt (h.files_lt number hold)

/-- A new descriptor leaves the numbers in order, if its own is not in use. -/
theorem Sound.link (h : flat.Sound) (hfd : fd ∉ flat.descriptors.map Prod.fst) (number : Nat) :
    (flat.link fd number).Sound :=
  ⟨h.files_nodup, h.files_lt, List.nodup_cons.mpr ⟨hfd, h.descriptors_nodup⟩⟩

end Numbers

/-- The reference stores agree on everything but the file of one number.

- `files`: other files are the same.
- `descriptors`: the descriptors of other files are the same. -/
structure Elsewhere (flat flat' : FlatStore) (number : Nat) : Prop where
  files : ∀ other shown, other ≠ number →
    ((other, shown) ∈ flat'.files ↔ (other, shown) ∈ flat.files)
  descriptors : ∀ fd shown, shown.file ≠ number →
    ((fd, shown) ∈ flat'.descriptors ↔ (fd, shown) ∈ flat.descriptors)

/-- New contents and new positions change one file, and leave the others with their descriptors
alone. -/
theorem elsewhere_edited (flat : FlatStore) (number : Nat) (bytes : Bytes)
    (place : Nat → Nat → Nat) :
    Elsewhere flat ((flat.setBytes number bytes).move number place) number where
  files other shown hne := mem_map_if_of_not fun _ => hne
  descriptors fd shown hne := by
    refine mem_map_if.trans ⟨?_, fun hmem => .inl ⟨hne, hmem⟩⟩
    rintro (⟨-, hmem⟩ | ⟨old, heq, -, rfl⟩)
    · exact hmem
    · exact absurd heq hne

/-- The reference shows under the number of a handle what the store holds there.

- `files`: the number lists the file, if there is one.
- `descriptors`: the number is bound by the descriptors of the file. -/
structure ShowsAt (num : FileId → Nat) (flat : FlatStore) (store : Store) (id : FileId) : Prop where
  files : ∀ shown, (num id, shown) ∈ flat.files ↔
    (store.file? id).map (store.shown id) = some shown
  descriptors : ∀ fd pos, (fd, ⟨num id, pos⟩) ∈ flat.descriptors ↔
    ∃ descriptor, store.descriptors.get? fd = some descriptor ∧ descriptor.file = id ∧
      (store.chainOf id).Stands descriptor.cursor pos

namespace Represents

section Elsewhere

/-- A file of another handle is shown as before, since it has the same chain and the same record. -/
private theorem shown_elsewhere (helse : Store.Elsewhere store store' id) {other : FileId}
    (hne : other ≠ id) (file : File) : store'.shown other file = store.shown other file := by
  rw [Store.shown, Store.shown, helse.chainOf_eq other hne]

/-- Two files have two numbers still, if the one that changed keeps apart from the others. -/
private theorem num_inj_of_elsewhere (h : flat.Represents num store)
    (helse : Store.Elsewhere store store' id)
    (hapart : ∀ other file, other ≠ id → store.file? other = some file → num other ≠ num id)
    {first second : FileId} (hfirst : store'.file? first = some file)
    (hsecond : store'.file? second = some file') (heq : num first = num second) :
    first = second := by
  -- Each of the two is the file that changed or one that is as it was.
  by_cases h₁ : first = id
  · by_cases h₂ : second = id
    · exact h₁.trans h₂.symm
    · rw [helse.file?_eq second h₂] at hsecond
      exact absurd (heq.symm.trans (congrArg num h₁)) (hapart second file' h₂ hsecond)
  · rw [helse.file?_eq first h₁] at hfirst
    by_cases h₂ : second = id
    · exact absurd (heq.trans (congrArg num h₂)) (hapart first file h₁ hfirst)
    · rw [helse.file?_eq second h₂] at hsecond
      exact h.num_inj first second file file' hfirst hsecond heq

/-- The files are shown, if the one that changed is: the others are the same on both sides. -/
private theorem mem_files_of_elsewhere (h : flat.Represents num store)
    (helse : Store.Elsewhere store store' id) (hothers : flat.Elsewhere flat' (num id))
    (hapart : ∀ other file, other ≠ id → store.file? other = some file → num other ≠ num id)
    (hshown : flat'.ShowsAt num store' id) (shown : FlatFile) :
    (number, shown) ∈ flat'.files ↔
      ∃ other file, store'.file? other = some file ∧ number = num other ∧
        shown = store'.shown other file := by
  constructor
  · intro hmem
    -- The file that changed is known from `hshown`, and every other one from before.
    by_cases heq : number = num id
    · subst heq
      obtain ⟨file, hfile, rfl⟩ := Option.map_eq_some_iff.mp ((hshown.files shown).mp hmem)
      exact ⟨id, file, hfile, rfl, rfl⟩
    · obtain ⟨other, file, hfile, rfl, rfl⟩ :=
        (h.mem_files _ _).mp ((hothers.files number shown heq).mp hmem)
      have hne : other ≠ id := fun hid => heq (congrArg num hid)
      exact ⟨other, file, (helse.file?_eq other hne).trans hfile, rfl,
        (shown_elsewhere helse hne file).symm⟩
  · rintro ⟨other, file, hfile, rfl, rfl⟩
    by_cases heq : other = id
    · subst heq
      exact (hshown.files _).mpr (hfile ▸ rfl)
    · rw [helse.file?_eq other heq] at hfile
      rw [hothers.files _ _ (hapart other file heq hfile), shown_elsewhere helse heq]
      exact (h.mem_files _ _).mpr ⟨other, file, hfile, rfl, rfl⟩

/-- The descriptors are shown, if those of the file that changed are. Those of other files stand
where they stood. -/
private theorem mem_descriptors_of_elsewhere (h : flat.Represents num store) (hsound : store.Sound)
    (helse : Store.Elsewhere store store' id) (hothers : flat.Elsewhere flat' (num id))
    (hapart : ∀ other file, other ≠ id → store.file? other = some file → num other ≠ num id)
    (hshown : flat'.ShowsAt num store' id) {pos : Nat} :
    (fd, ⟨number, pos⟩) ∈ flat'.descriptors ↔
      ∃ descriptor pos', store'.descriptors.get? fd = some descriptor ∧
        (store'.chainOf descriptor.file).Stands descriptor.cursor pos' ∧
        (⟨number, pos⟩ : FlatDescriptor) = ⟨num descriptor.file, pos'⟩ := by
  constructor
  · -- By whether the descriptor is one on the file that changed. If not, both stores have it
    -- unchanged.
    intro hmem
    by_cases heq : number = num id
    · subst heq
      obtain ⟨descriptor, hget, rfl, hstands⟩ := (hshown.descriptors fd pos).mp hmem
      exact ⟨descriptor, pos, hget, hstands, rfl⟩
    · obtain ⟨descriptor, pos', hget, hstands, hshows⟩ :=
        (h.mem_descriptors _ _).mp ((hothers.descriptors fd _ heq).mp hmem)
      have hne : descriptor.file ≠ id := by
        rintro rfl
        exact heq (congrArg FlatDescriptor.file hshows)
      rw [← helse.chainOf_eq _ hne] at hstands
      exact ⟨descriptor, pos', (helse.get?_iff fd descriptor hne).mpr hget, hstands, hshows⟩
  · rintro ⟨descriptor, pos', hget, hstands, hshows⟩
    cases hshows
    by_cases heq : descriptor.file = id
    · subst heq
      exact (hshown.descriptors fd pos).mpr ⟨descriptor, hget, rfl, hstands⟩
    · rw [helse.get?_iff fd descriptor heq] at hget
      rw [helse.chainOf_eq _ heq] at hstands
      obtain ⟨file, hfile⟩ := hsound.exists_file hget
      rw [hothers.descriptors fd _ (hapart _ file heq hfile)]
      exact (h.mem_descriptors _ _).mpr ⟨descriptor, pos, hget, hstands, rfl⟩

/-- A store and its reference that change at one handle agree if they do so there. This is what
every change of a call comes down to. -/
theorem of_elsewhere (h : flat.Represents num store) (hsound : store.Sound)
    (helse : Store.Elsewhere store store' id) (hnumbers : flat'.Sound)
    (hothers : flat.Elsewhere flat' (num id)) (hconfig : flat'.config = store'.config)
    (hlast : flat'.lastError = store'.lastError)
    (hapart : ∀ other file, other ≠ id → store.file? other = some file → num other ≠ num id)
    (hshown : flat'.ShowsAt num store' id) : flat'.Represents num store' where
  toSound := hnumbers
  config_eq := hconfig
  lastError_eq := hlast
  num_inj _ _ _ _ hfirst hsecond heq := h.num_inj_of_elsewhere helse hapart hfirst hsecond heq
  mem_files _ shown := h.mem_files_of_elsewhere helse hothers hapart hshown shown
  mem_descriptors _ _ := h.mem_descriptors_of_elsewhere hsound helse hothers hapart hshown

end Elsewhere

/-- What a call reports is remembered by both, and nothing else depends on it. -/
theorem with_lastError (h : flat.Represents num store) (kind : ErrorKind) :
    Represents num { flat with lastError := kind } { store with lastError := kind } :=
  ⟨⟨h.files_nodup, h.files_lt, h.descriptors_nodup⟩, h.config_eq, rfl, h.num_inj, h.mem_files,
    h.mem_descriptors⟩

/-- Handles that denote no file may be numbered otherwise, because nothing shows their numbers. -/
theorem renumber (h : flat.Represents num store) (hsound : store.Sound) {num' : FileId → Nat}
    (hsame : ∀ id file, store.file? id = some file → num' id = num id) :
    flat.Represents num' store where
  toSound := h.toSound
  config_eq := h.config_eq
  lastError_eq := h.lastError_eq
  num_inj id other file file' hfile hfile' heq := by
    rw [hsame id file hfile, hsame other file' hfile'] at heq
    exact h.num_inj id other file file' hfile hfile' heq
  mem_files number shown := by
    rw [h.mem_files]
    constructor
    · rintro ⟨id, file, hfile, rfl, rfl⟩
      exact ⟨id, file, hfile, (hsame id file hfile).symm, rfl⟩
    · rintro ⟨id, file, hfile, rfl, rfl⟩
      exact ⟨id, file, hfile, hsame id file hfile, rfl⟩
  mem_descriptors fd shown := by
    rw [h.mem_descriptors]
    constructor
    · rintro ⟨descriptor, pos, hget, hstands, rfl⟩
      obtain ⟨file, hfile⟩ := hsound.exists_file hget
      exact ⟨descriptor, pos, hget, hstands, by rw [hsame _ file hfile]⟩
    · rintro ⟨descriptor, pos, hget, hstands, rfl⟩
      obtain ⟨file, hfile⟩ := hsound.exists_file hget
      exact ⟨descriptor, pos, hget, hstands, by rw [hsame _ file hfile]⟩

/-- Another file in storage has another number, so a change under one number is one of one file. -/
theorem apart (h : flat.Represents num store) (hfile : store.file? id = some file)
    (other : FileId) (file' : File) (hne : other ≠ id) (hfile' : store.file? other = some file') :
    num other ≠ num id :=
  fun heq => hne (h.num_inj other id file' file hfile' hfile heq)

/-- A number lists what its file shows, and lists it once. -/
theorem mem_files_num (h : flat.Represents num store) (hfile : store.file? id = some file)
    {shown : FlatFile} : (num id, shown) ∈ flat.files ↔ shown = store.shown id file := by
  rw [← lookup_eq_some_iff_mem h.files_nodup, h.lookup_file hfile, Option.some.injEq]
  exact eq_comm

/-- A number is bound by the descriptors of its file, each at the position where its cursor
stands. -/
theorem mem_descriptors_num (h : flat.Represents num store) (hsound : store.Sound)
    (hfile : store.file? id = some file) {pos : Nat} :
    (fd, ⟨num id, pos⟩) ∈ flat.descriptors ↔
      ∃ descriptor, store.descriptors.get? fd = some descriptor ∧ descriptor.file = id ∧
        (store.chainOf id).Stands descriptor.cursor pos := by
  rw [h.mem_descriptors]
  constructor
  · rintro ⟨descriptor, pos', hget, hstands, hshown⟩
    obtain ⟨file', hfile'⟩ := hsound.exists_file hget
    have hid : descriptor.file = id :=
      h.num_inj _ _ file' file hfile' hfile (congrArg FlatDescriptor.file hshown).symm
    rw [hid] at hstands
    cases congrArg FlatDescriptor.position hshown
    exact ⟨descriptor, hget, hid, hstands⟩
  · rintro ⟨descriptor, hget, rfl, hstands⟩
    exact ⟨descriptor, pos, hget, hstands, rfl⟩

/-- A file that is edited shows its new bytes, and its descriptors their new positions. Whatever
blocks it has now, only the bytes show. -/
theorem edited (h : flat.Represents num store) (hsound : store.Sound)
    (hfile : store.file? id = some file) {bytes : Bytes} {place : Nat → Nat → Nat}
    (hedited : Store.Edited store store' id bytes place) :
    Represents num { (flat.setBytes (num id) bytes).move (num id) place with
      lastError := store'.lastError } store' := by
  have hnumbers := (h.toSound.setBytes (num id) bytes).move (num id) place
  have hothers := elsewhere_edited flat (num id) bytes place
  obtain ⟨file', hfile', hname, hdeleted⟩ := hedited.file file hfile
  refine h.of_elsewhere hsound hedited.elsewhere
    ⟨hnumbers.files_nodup, hnumbers.files_lt, hnumbers.descriptors_nodup⟩
    ⟨hothers.files, hothers.descriptors⟩ (h.config_eq.trans hedited.config_eq.symm) rfl
    (h.apart hfile)
    ⟨fun shown => (mem_map_if_of_forall fun _ => rfl).trans ?_, fun fd pos => mem_map_if.trans ?_⟩
  · have hshown : store'.shown id file' = { store.shown id file with bytes } := by
      rw [Store.shown, Store.shown, hname, hdeleted, hedited.contents]
    rw [hfile', Option.map_some, Option.some.injEq, hshown]
    simp only [h.mem_files_num hfile, exists_eq_left, eq_comm]
  · constructor
    · rintro (⟨hne, -⟩ | ⟨⟨number, old⟩, rfl, hmem, hshown⟩)
      · exact absurd rfl hne
      · obtain ⟨descriptor, hget, hid, hstands⟩ := (h.mem_descriptors_num hsound hfile).mp hmem
        cases congrArg FlatDescriptor.position hshown
        exact hedited.moved fd descriptor old hget hid hstands
    · rintro ⟨descriptor', hget', hid', hstands'⟩
      have hbound := hedited.file_eq fd
      rw [hget', Option.map_some, eq_comm, Option.map_eq_some_iff] at hbound
      obtain ⟨descriptor, hget, hid⟩ := hbound
      rw [hid'] at hid
      obtain ⟨old, hstands⟩ := (hsound.accounts id).stands fd descriptor hget hid
      obtain ⟨moved, hmoved, -, hthere⟩ := hedited.moved fd descriptor old hget hid hstands
      cases hget'.symm.trans hmoved
      -- One cursor stands at one position only.
      have hplace := hstands'.unique hthere (hedited.sound.spans hfile').nodup
      exact .inr ⟨⟨num id, old⟩, rfl,
        (h.mem_descriptors_num hsound hfile).mpr ⟨descriptor, hget, hid, hstands⟩, by rw [hplace]⟩

/-- A new file is shown empty under the next number, and its handle is numbered so from then on. -/
theorem created (h : flat.Represents num store) (hsound : store.Sound)
    (hname : store.catalog.lookup name = none) :
    Represents
      (fun other => if other = (store.catalog.create name).1 then flat.nextFile else num other)
      (flat.add ⟨name, [], true⟩) (store.created name) := by
  obtain ⟨hfresh, -, helse, hself, hchain⟩ := hsound.create hname
  generalize (store.catalog.create name).1 = id at helse hfresh hself hchain ⊢
  -- The handle may have denoted another file before, whose number is lost now. It denotes none in
  -- this store, so no file in storage gets another number.
  have hnew : ∀ other file, store.file? other = some file →
      (if other = id then flat.nextFile else num other) = num other := by
    intro other file hfile
    refine if_neg ?_
    rintro rfl
    cases hfresh.symm.trans hfile
  have hbelow : ∀ other file, store.file? other = some file → num other < flat.nextFile :=
    fun other file hfile => h.files_lt _ (List.mem_map_of_mem
      ((h.mem_files _ _).mpr ⟨other, file, hfile, rfl, rfl⟩))
  refine (h.renumber hsound hnew).of_elsewhere hsound helse (h.toSound.add _)
    ⟨?_, fun _ _ _ => Iff.rfl⟩
    h.config_eq h.lastError_eq ?_ ⟨?_, ?_⟩
  · intro other shown hne
    rw [if_pos rfl] at hne
    refine List.mem_cons.trans (or_iff_right fun heq => hne (congrArg Prod.fst heq))
  · intro other file hne hfile
    rw [hnew other file hfile, if_pos rfl]
    exact Nat.ne_of_lt (hbelow other file hfile)
  · intro shown
    have hempty : (store.created name).shown id (File.named name) = ⟨name, [], true⟩ := by
      rw [Store.shown, hchain, show store.chainOf id = [] from chainOf_eq_nil hfresh]
      rfl
    rw [if_pos rfl, hself, Option.map_some, Option.some.injEq, hempty]
    refine List.mem_cons.trans ⟨?_, fun heq => .inl (heq ▸ rfl)⟩
    rintro (heq | hmem)
    · exact (congrArg Prod.snd heq).symm
    · exact absurd (h.files_lt _ (List.mem_map_of_mem hmem)) (Nat.lt_irrefl _)
  · intro fd pos
    rw [if_pos rfl]
    constructor
    · intro hmem
      obtain ⟨descriptor, pos', hget, -, hshown⟩ := (h.mem_descriptors _ _).mp hmem
      obtain ⟨file, hfile⟩ := hsound.exists_file hget
      exact absurd (congrArg FlatDescriptor.file hshown).symm (Nat.ne_of_lt (hbelow _ file hfile))
    · rintro ⟨descriptor, hget, hid, -⟩
      exact absurd hid (hsound.file_ne hfresh fd descriptor hget)

/-- A file is shown as before if only the count of its descriptors changed, which shows in the
descriptors alone. -/
private theorem shown_adjusted (hadjusted : Store.Adjusted store store' id file')
    (hname : file'.name = file.name) (hdeleted : file'.deleted = file.deleted) :
    store'.shown id file' = store.shown id file := by
  rw [Store.shown, Store.shown, hadjusted.chainOf_eq, hname, hdeleted]

/-- A new descriptor is shown at position 0, where an unset cursor stands in every chain. -/
theorem bound (h : flat.Represents num store) (hsound : store.Sound)
    (hfile : store.file? id = some file) :
    Represents num (flat.link (store.descriptors.allocate id).1 (num id))
      (store.bound id file) := by
  have hadjusted := hsound.bind hfile
  have hallocate : ∀ fd, (store.bound id file).descriptors.get? fd =
      if fd = (store.descriptors.allocate id).1 then some (Descriptor.onFile id)
      else store.descriptors.get? fd := hsound.table.get?_allocate id
  have hfree := hsound.table.get?_fst_allocate id
  generalize (store.descriptors.allocate id).1 = new at hallocate hfree ⊢
  refine h.of_elsewhere hsound hadjusted.elsewhere (h.toSound.link ?_ _)
    ⟨fun _ _ _ => Iff.rfl, ?_⟩ h.config_eq h.lastError_eq (h.apart hfile)
    ⟨?_, ?_⟩
  · rw [← lookup_eq_none_iff_not_mem]
    exact h.lookup_eq_none hfree
  · intro fd shown hne
    exact List.mem_cons.trans
      (or_iff_right fun heq => hne (congrArg (fun entry => entry.2.file) heq))
  · intro shown
    rw [hadjusted.file?_eq, Option.map_some, Option.some.injEq, shown_adjusted hadjusted rfl rfl]
    exact (h.mem_files_num hfile).trans eq_comm
  · intro fd pos
    rw [hadjusted.chainOf_eq, hallocate]
    refine List.mem_cons.trans ?_
    split
    · rename_i heq
      subst heq
      constructor
      · -- The new number is in the list once, as no descriptor had it before.
        rintro (heq | hmem)
        · cases heq
          exact ⟨_, rfl, rfl, .unset⟩
        · obtain ⟨descriptor, hget, -⟩ := (h.mem_descriptors_num hsound hfile).mp hmem
          cases hfree.symm.trans hget
      · rintro ⟨descriptor, hget, -, hstands⟩
        cases hget
        cases hstands
        exact .inl rfl
    · rename_i hne
      refine (or_iff_right fun heq => hne (congrArg Prod.fst heq)).trans ?_
      exact h.mem_descriptors_num hsound hfile

/-- A file that is still open is shown without its name when that is deleted, and stays otherwise
what it was. -/
theorem unnamed (h : flat.Represents num store) (hsound : store.Sound)
    (hname : store.catalog.lookup name = some id) (hfile : store.file? id = some file)
    (hheld : 0 < file.refs) :
    (flat.unname (num id)).Represents num (store.adjusted id { file with deleted := true }
      (store.catalog.directory.erase name) store.descriptors) := by
  obtain ⟨-, helse, hself, hchain⟩ := hsound.delete_held hname hfile hheld
  refine h.of_elsewhere hsound helse (h.toSound.unname _)
    ⟨fun _ _ hne => mem_map_if_of_not fun _ => hne, fun _ _ _ => Iff.rfl⟩ h.config_eq h.lastError_eq
    (h.apart hfile) ⟨fun shown => (mem_map_if_of_forall fun _ => rfl).trans ?_, ?_⟩
  · rw [hself, Option.map_some, Option.some.injEq, Store.shown, hchain]
    simp only [h.mem_files_num hfile, exists_eq_left]
    exact eq_comm
  · intro fd pos
    rw [hchain]
    exact h.mem_descriptors_num hsound hfile

/-- A deleted file that is not open is shown no more: neither a name nor a descriptor reaches it. -/
theorem deleted (h : flat.Represents num store) (hsound : store.Sound)
    (hname : store.catalog.lookup name = some id) (hfile : store.file? id = some file)
    (hfree : file.refs = 0) :
    ((flat.unname (num id)).drop (num id)).Represents num
      (store.discarded id file (store.catalog.directory.erase name) store.descriptors) := by
  obtain ⟨-, helse, hnone⟩ := hsound.delete_free hname hfile hfree
  have hmem : ∀ number shown, (number, shown) ∈ ((flat.unname (num id)).drop (num id)).files ↔
      (number, shown) ∈ (flat.unname (num id)).files ∧ number ≠ num id := by
    intro number shown
    rw [drop, List.mem_filter, bne_iff_ne]
  -- No descriptor shows the file, since it counts none.
  have hcount := (hsound.accounts id).refs_eq file hfile
  have hnobody := DescriptorTable.length_boundTo_eq_zero_iff.mp (hcount.symm.trans hfree)
  refine h.of_elsewhere hsound helse ((h.toSound.unname _).drop _) ⟨?_, fun _ _ _ => Iff.rfl⟩
    h.config_eq h.lastError_eq (h.apart hfile) ⟨?_, ?_⟩
  · intro other shown hne
    exact (hmem other shown).trans
      ((and_iff_left hne).trans (mem_map_if_of_not fun _ => hne))
  · intro shown
    rw [hmem, hnone]
    exact ⟨fun hboth => absurd rfl hboth.2, fun hshown => nomatch hshown⟩
  · intro fd pos
    refine (h.mem_descriptors_num hsound hfile).trans ⟨?_, ?_⟩
    · rintro ⟨descriptor, hget, hid, -⟩
      exact absurd hid (hnobody fd descriptor hget)
    · rintro ⟨descriptor, hget, hid, -⟩
      exact absurd hid (hnobody fd descriptor hget)

section Closing

variable {left : DescriptorTable}

/-- The descriptors that are left are those of other numbers, with their positions. -/
private theorem mem_unbind {shown : FlatDescriptor} {other : Nat} :
    (other, shown) ∈ (flat.unbind fd).descriptors ↔
      (other, shown) ∈ flat.descriptors ∧ other ≠ fd := by
  rw [unbind, List.mem_filter, bne_iff_ne]

/-- Other files keep their descriptors when one is taken away, since a number is bound to one
file. -/
private theorem elsewhere_unbind (h : flat.Represents num store)
    (hget : store.descriptors.get? fd = some descriptor) :
    flat.Elsewhere (flat.unbind fd) (num descriptor.file) where
  files _ _ _ := Iff.rfl
  descriptors other shown hne := by
    refine mem_unbind.trans (and_iff_left_of_imp ?_)
    rintro hshown rfl
    obtain ⟨bound, pos, hbound, -, rfl⟩ := (h.mem_descriptors _ _).mp hshown
    cases hget.symm.trans hbound
    exact hne rfl

/-- A file that is still open or still named is shown without a descriptor that is closed. -/
theorem unbound (h : flat.Represents num store) (hsound : store.Sound)
    (hfile : store.file? descriptor.file = some file)
    (hrelease : store.descriptors.release fd = .ok (descriptor, left))
    (hrefs : file.refs = (left.boundTo descriptor.file).length + 1)
    (hkept : ¬ (file.refs - 1 = 0 ∧ file.deleted = true)) :
    (flat.unbind fd).Represents num (store.adjusted descriptor.file
      { file with refs := file.refs - 1 } store.catalog.directory left) := by
  have hadjusted := hsound.close_kept hfile hrelease hrefs hkept
  have hget := (DescriptorTable.release_eq_ok_iff.mp hrelease).1
  refine h.of_elsewhere hsound hadjusted.elsewhere (h.toSound.unbind fd) (elsewhere_unbind h hget)
    h.config_eq h.lastError_eq (h.apart hfile) ⟨?_, ?_⟩
  · intro shown
    rw [hadjusted.file?_eq, Option.map_some, Option.some.injEq, shown_adjusted hadjusted rfl rfl]
    exact (h.mem_files_num hfile).trans eq_comm
  · -- The descriptors on the file are those from before but the one that is closed.
    intro other pos
    rw [mem_unbind, h.mem_descriptors_num hsound hfile, hadjusted.chainOf_eq]
    constructor
    · rintro ⟨⟨bound, hbound, hid, hstands⟩, hne⟩
      exact ⟨bound, (DescriptorTable.get?_release_iff hrelease other).mpr ⟨hne, hbound⟩,
        hid, hstands⟩
    · rintro ⟨bound, hbound, hid, hstands⟩
      obtain ⟨hne, hold⟩ := (DescriptorTable.get?_release_iff hrelease other).mp hbound
      exact ⟨⟨bound, hold, hid, hstands⟩, hne⟩

/-- A deleted file is shown no more when its last descriptor is closed. -/
theorem closed (h : flat.Represents num store) (hsound : store.Sound)
    (hfile : store.file? descriptor.file = some file)
    (hrelease : store.descriptors.release fd = .ok (descriptor, left))
    (hrefs : file.refs = (left.boundTo descriptor.file).length + 1)
    (hlast : file.refs - 1 = 0) (hdeleted : file.deleted = true) :
    ((flat.unbind fd).drop (num descriptor.file)).Represents num
      (store.discarded descriptor.file file store.catalog.directory left) := by
  obtain ⟨-, helse, hnone⟩ := hsound.close_last hfile hrelease hrefs hlast hdeleted
  have hget := (DescriptorTable.release_eq_ok_iff.mp hrelease).1
  have hothers := elsewhere_unbind h hget
  -- The last descriptor is gone, so none of those left is open on the file.
  have hnobody := DescriptorTable.length_boundTo_eq_zero_iff.mp
    (show (left.boundTo descriptor.file).length = 0 by omega)
  have hmem : ∀ number shown,
      (number, shown) ∈ ((flat.unbind fd).drop (num descriptor.file)).files ↔
        (number, shown) ∈ flat.files ∧ number ≠ num descriptor.file := by
    intro number shown
    rw [drop, List.mem_filter, bne_iff_ne]
    rfl
  refine h.of_elsewhere hsound helse ((h.toSound.unbind fd).drop _)
    ⟨fun other shown hne => (hmem other shown).trans (and_iff_left hne), hothers.descriptors⟩
    h.config_eq h.lastError_eq (h.apart hfile) ⟨?_, ?_⟩
  · intro shown
    rw [hmem, hnone]
    exact ⟨fun hboth => absurd rfl hboth.2, fun hshown => nomatch hshown⟩
  · intro other pos
    refine mem_unbind.trans ⟨?_, fun ⟨bound, hbound, hid, _⟩ =>
      absurd hid (hnobody other bound hbound)⟩
    intro hboth
    obtain ⟨bound, hbound, hid, -⟩ := (h.mem_descriptors_num hsound hfile).mp hboth.1
    exact absurd hid (hnobody other bound
      ((DescriptorTable.get?_release_iff hrelease other).mpr ⟨hboth.2, hbound⟩))

end Closing

end Represents

end FlatStore

end Filestore
