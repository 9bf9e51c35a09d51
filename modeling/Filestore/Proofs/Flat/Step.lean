import Filestore.Proofs.Flat.Change
import Filestore.Proofs.Flat.Counts
import Filestore.Proofs.Store.Resize
import Filestore.Proofs.Store.Transfer

/-!
# `Filestore.Proofs.Flat.Step`: a call, answered by a store and by its reference

A reference that shows a sound store gives the same answer to a call and shows the store that the
call leaves: `Represents.perform` has one case for each call. What a call does to the store is
known from its spec lemma, and `Filestore.Proofs.Flat.Change` says how that is shown; what is left
for the cases is that the reference does just this. The handle of a file may be numbered anew when
the file is created, so the numbering is not the same before and after.

A call ends in one of two ways on each side, and there is a lemma for each: it is answered
(`Represents.succeed`) or refused (`Represents.refuse`). The store remembers the kind of its
complaint, and the reference the kind that it names itself where it refuses; that the two are
equal is the condition of `refuse`, and has to be shown at every refusal. A short write ends in a
third way and is treated by itself, in `Represents.write`.

The reference writes and reads in one step what the store does block by block. The spec lemmas of
the loops have already put the steps together, so no loop is met here.
-/

set_option autoImplicit false

namespace Filestore

/-- The call asks for no larger buffer than there can be. -/
def Call.Affordable : Call → Prop
  | .readUpTo _ most => most ≤ Block.maxBuffer
  | _ => True

namespace FlatStore

/-- The answers are the same, and the reference shows the store afterwards. -/
def Follows (outcome : Except Error Answer × FlatStore) (outcome' : Except Error Answer × Store) :
    Prop :=
  outcome.1 = outcome'.1 ∧ ∃ num, outcome.2.Represents num outcome'.2

variable {num : FileId → Nat} {flat : FlatStore} {store store' : Store} {key : FileId}
  {file : File} {fd pos number : Nat} {descriptor : Descriptor}

/-- A call that is answered without any other change is remembered as such by both. -/
theorem Represents.succeed (h : flat.Represents num store) {α : Type} (value : α)
    (answer : α → Answer) :
    Follows (flat.succeed (answer value))
      ((store.conclude (.ok value)).map (·.map answer) id) :=
  ⟨rfl, num, h.with_lastError _⟩

/-- A call that is refused is remembered by both as the same kind of failure. The store derives the
kind from the complaint, so this is where the kinds that the reference names are checked. -/
theorem Represents.refuse (h : flat.Represents num store) {kind : ErrorKind} {complaint : Error}
    (hkind : complaint.kind = kind) {α : Type} (answer : α → Answer) :
    Follows (flat.refuse kind complaint)
      ((store.conclude (.error complaint : Except Error α)).map (·.map answer) id) := by
  subst hkind
  exact ⟨rfl, num, h.with_lastError _⟩

/-- Both name the file and the limit where they complain that a file would be too large. -/
theorem Represents.tooLarge_eq (h : flat.Represents num store) (key : FileId) (file : File) :
    flat.tooLarge (store.shown key file)
      = flat.refuse .fileTooLarge
        (.fileTooLarge file.name (store.config.sizeLimit.getD 0)) := by
  rw [FlatStore.tooLarge, h.config_eq]
  rfl

section Positions

/-- A file that gets the contents it has stays as it is, and so does the whole reference. -/
theorem Represents.setBytes_self (h : flat.Represents num store)
    (hfile : store.file? key = some file) :
    flat.setBytes (num key) (store.chainOf key).contents = flat := by
  have hsame : (flat.setBytes (num key) (store.chainOf key).contents).files = flat.files := by
    refine (List.map_congr_left ?_).trans (List.map_id _)
    intro entry hentry
    split
    · rename_i heq
      obtain ⟨other, shown⟩ := entry
      cases heq
      rw [(h.mem_files_num hfile).mp hentry]
      rfl
    · rfl
  exact congrArg (fun files => { flat with files }) hsame

/-- Descriptors that are moved to where they are stay there, and the reference is what it was. -/
theorem move_self {place : Nat → Nat → Nat}
    (hplace : ∀ fd pos, (fd, ⟨number, pos⟩) ∈ flat.descriptors → place fd pos = pos) :
    flat.move number place = flat := by
  have hsame : (flat.move number place).descriptors = flat.descriptors := by
    refine (List.map_congr_left ?_).trans (List.map_id _)
    intro entry hentry
    split
    · rename_i heq
      obtain ⟨fd, file, pos⟩ := entry
      cases heq
      rw [hplace fd pos hentry]
      rfl
    · rfl
  exact congrArg (fun descriptors => { flat with descriptors }) hsame

/-- Moving one descriptor is moving those of its file, all but the one to where they are. -/
theorem Sound.setPosition_eq (h : flat.Sound) (hmem : (fd, ⟨number, pos⟩) ∈ flat.descriptors)
    (position : Nat) : flat.setPosition fd position
      = flat.move number fun other place => if other = fd then position else place := by
  -- A number is listed once, so the entry of `fd` is the one that is known to be of the file.
  have hsame : (flat.setPosition fd position).descriptors
      = (flat.move number fun other place =>
          if other = fd then position else place).descriptors := by
    refine List.map_congr_left ?_
    intro entry hentry
    obtain ⟨other, shown⟩ := entry
    by_cases heq : other = fd
    · subst heq
      have hshown := (lookup_eq_some_iff_mem h.descriptors_nodup).mpr hentry
      rw [(lookup_eq_some_iff_mem h.descriptors_nodup).mpr hmem] at hshown
      cases hshown
      simp
    · simp [heq]
  exact congrArg (fun descriptors => { flat with descriptors }) hsame

end Positions

section Sweeping

/-- A file that a name or a descriptor reaches stays when it is looked whether it should. -/
theorem sweep_eq_self (hkept : ∀ shown, (number, shown) ∈ flat.files →
    shown.named = true ∨ flat.refs number ≠ 0) : flat.sweep number = flat := by
  have hsame : (flat.sweep number).files = flat.files := by
    refine List.filter_eq_self.mpr ?_
    intro entry hentry
    obtain ⟨other, shown⟩ := entry
    by_cases heq : other = number
    · subst heq
      rcases hkept shown hentry with hnamed | hrefs <;> simp [*]
    · simp [heq]
  exact congrArg (fun files => { flat with files }) hsame

/-- A file that neither reaches goes when it is looked whether it should stay. -/
theorem sweep_eq_drop (hlost : ∀ shown, (number, shown) ∈ flat.files → shown.named = false)
    (hrefs : flat.refs number = 0) : flat.sweep number = flat.drop number := by
  have hsame : (flat.sweep number).files = (flat.drop number).files := by
    refine List.filter_congr ?_
    intro entry hentry
    obtain ⟨other, shown⟩ := entry
    by_cases heq : other = number
    · subst heq
      simp [hlost shown hentry, hrefs]
    · simp [bne_iff_ne.mpr heq]
  exact congrArg (fun files => { flat with files }) hsame

/-- A file loses the reference of a descriptor that is taken away, and no other file does. -/
theorem Sound.refs_unbind (h : flat.Sound) (hmem : (fd, ⟨number, pos⟩) ∈ flat.descriptors) :
    flat.refs number = (flat.unbind fd).refs number + 1 := by
  rw [refs, (perm_cons_filter h.descriptors_nodup hmem).countP_eq, List.countP_cons,
    if_pos (beq_self_eq_true number)]
  rfl

end Sweeping

/-- The lowest number not in use is the one that the table gives. The reference searches for it,
and the table keeps a list. -/
theorem Represents.lowestUnused_eq (h : flat.Represents num store) (hsound : store.Sound)
    (key : FileId) :
    lowestUnused (flat.descriptors.map Prod.fst) = (store.descriptors.allocate key).1 := by
  have hfree : (store.descriptors.allocate key).1 ∉ flat.descriptors.map Prod.fst :=
    lookup_eq_none_iff_not_mem.mp (h.lookup_eq_none (hsound.table.get?_fst_allocate key))
  have hused : ∀ other < (store.descriptors.allocate key).1,
      other ∈ flat.descriptors.map Prod.fst := by
    intro other hlt
    obtain ⟨descriptor, hget⟩ :=
      Option.ne_none_iff_exists'.mp (hsound.table.get?_of_lt_allocate hlt)
    obtain ⟨pos, hstands⟩ := (hsound.accounts descriptor.file).stands other descriptor hget rfl
    exact List.mem_map_of_mem ((h.mem_descriptors _ _).mpr ⟨descriptor, pos, hget, hstands, rfl⟩)
  -- As many numbers are in use as there are lower ones, so the search gets this far.
  have hbound : (store.descriptors.allocate key).1 ≤ (flat.descriptors.map Prod.fst).length := by
    have hsubset : List.range (store.descriptors.allocate key).1
        ⊆ flat.descriptors.map Prod.fst := fun other hother =>
          hused other (List.mem_range.mp hother)
    have hlength := List.nodup_range.length_le_of_subset hsubset
    rwa [List.length_range] at hlength
  have hfind := List.find?_range_eq_some
    (p := fun n => !(flat.descriptors.map Prod.fst).contains n)
    (n := (flat.descriptors.map Prod.fst).length + 1) (i := (store.descriptors.allocate key).1)
  rw [lowestUnused, hfind.mpr ⟨?_, ?_, ?_⟩, Option.getD_some]
  · simpa using hfree
  · exact List.mem_range.mpr (Nat.lt_succ_of_le hbound)
  · intro other hlt
    simpa using hused other hlt

/-- A binding gives the lowest number, and is shown as a descriptor at position 0. -/
theorem Represents.bind (h : flat.Represents num store) (hsound : store.Sound)
    (hfile : store.file? key = some file) :
    Follows (flat.bind (num key))
      (((store.bound key file).conclude (.ok (store.descriptors.allocate key).1)).map
        (·.map .descriptor) id) := by
  rw [FlatStore.bind, h.lowestUnused_eq hsound key]
  exact (h.bound hsound hfile).succeed _ .descriptor

namespace Represents

/-- Opening is answered alike, be the file there, created, or missing. -/
theorem openFile (h : flat.Represents num store) (hsound : store.Sound) (name : String)
    (create : Bool) :
    Follows (flat.openFile name create)
      ((store.openFile name create).map (·.map .descriptor) id) := by
  rcases hsound.openFile_cases name create with ⟨key, file, hname, hfile, hopen⟩ |
    ⟨hname, rfl, hopen⟩ | ⟨hname, rfl, hopen⟩
  · simp only [hopen, FlatStore.openFile, h.find?_eq_some hsound hname hfile]
    exact h.bind hsound hfile
  · obtain ⟨-, hcreated⟩ := hsound.create hname
    have hbind := (h.created hsound hname).bind hcreated.sound hcreated.file?_eq
    simp only [if_true] at hbind
    simp only [hopen, FlatStore.openFile, h.find?_eq_none hsound hname, if_true]
    exact hbind
  · simp only [hopen, FlatStore.openFile, h.find?_eq_none hsound hname, Bool.false_eq_true,
      if_false]
    exact h.refuse rfl .descriptor

/-- Deleting is answered alike. The file stays on both sides as long as a descriptor is open on
it. -/
theorem delete (h : flat.Represents num store) (hsound : store.Sound) (name : String) :
    Follows (flat.delete name) ((store.delete name).map (·.map fun _ => .done) id) := by
  rcases hsound.delete_cases name with ⟨hname, hdelete⟩ |
    ⟨key, file, hname, hfile, ⟨hheld, hdelete⟩ | ⟨hfree, hdelete⟩⟩
  · simp only [hdelete, FlatStore.delete, h.find?_eq_none hsound hname]
    exact h.refuse rfl _
  · have hrefs : (flat.unname (num key)).refs (num key) ≠ 0 := by
      show flat.refs (num key) ≠ 0
      rw [h.refs_eq hsound hfile]
      exact Nat.pos_iff_ne_zero.mp hheld
    simp only [hdelete, FlatStore.delete, h.find?_eq_some hsound hname hfile,
      sweep_eq_self fun _ _ => .inr hrefs]
    exact (h.unnamed hsound hname hfile hheld).succeed () fun _ => .done
  · -- No descriptor is left and the name goes, so that the reference drops the file as well.
    have hlost : ∀ shown, (num key, shown) ∈ (flat.unname (num key)).files →
        shown.named = false := by
      intro shown hmem
      rcases mem_map_if.mp hmem with ⟨hne, -⟩ | ⟨old, -, -, rfl⟩
      · exact absurd rfl hne
      · rfl
    have hrefs : (flat.unname (num key)).refs (num key) = 0 := (h.refs_eq hsound hfile).trans hfree
    simp only [hdelete, FlatStore.delete, h.find?_eq_some hsound hname hfile,
      sweep_eq_drop hlost hrefs]
    exact (h.deleted hsound hname hfile hfree).succeed () fun _ => .done

/-- Closing is answered alike. The file goes on both sides if nothing reaches it any more. -/
theorem close (h : flat.Represents num store) (hsound : store.Sound) (fd : Nat) :
    Follows (flat.close fd) ((store.close fd).map (·.map fun _ => .done) id) := by
  rcases hsound.close_cases fd with ⟨hnone, hclose⟩ |
    ⟨descriptor, file, left, hget, hfile, hrelease, hrefs, hcases⟩
  · simp only [hclose, FlatStore.close, h.opened_eq_none hnone]
    exact h.refuse rfl _
  · obtain ⟨pos, hstands⟩ := hsound.exists_stands hget
    have hmem : (fd, ⟨num descriptor.file, pos⟩) ∈ flat.descriptors :=
      (h.mem_descriptors _ _).mpr ⟨descriptor, pos, hget, hstands, rfl⟩
    -- The references that the file counts are the descriptors that the reference store lists, so
    -- both decide alike whether the file goes.
    have hcount := h.toSound.refs_unbind hmem
    rw [h.refs_eq hsound hfile] at hcount
    have hshown : ∀ shown, (num descriptor.file, shown) ∈ (flat.unbind fd).files →
        shown.named = !file.deleted := by
      intro shown hshown
      rw [(h.mem_files_num hfile).mp hshown]
      rfl
    simp only [FlatStore.close, h.opened_eq_some hget hfile hstands]
    rcases hcases with ⟨hlast, hdeleted, hclose⟩ | ⟨hkept, hclose⟩
    · have hlost : ∀ shown, (num descriptor.file, shown) ∈ (flat.unbind fd).files →
          shown.named = false := fun shown hmem => by rw [hshown shown hmem, hdeleted]; rfl
      simp only [hclose, sweep_eq_drop hlost (show _ = 0 by omega)]
      exact (h.closed hsound hfile hrelease hrefs hlast hdeleted).succeed () fun _ => .done
    · have hstays : ∀ shown, (num descriptor.file, shown) ∈ (flat.unbind fd).files →
          shown.named = true ∨ (flat.unbind fd).refs (num descriptor.file) ≠ 0 := by
        intro shown hmem
        rw [hshown shown hmem]
        cases hdeleted : file.deleted with
        | false => exact .inl rfl
        | true => exact .inr fun hzero => hkept ⟨by omega, hdeleted⟩
      simp only [hclose, sweep_eq_self hstays]
      exact (h.unbound hsound hfile hrelease hrefs hkept).succeed () fun _ => .done

/-- A file that is edited, with one descriptor moved, is shown so. This is what a write does. -/
theorem edited_setPosition (h : flat.Represents num store) (hsound : store.Sound)
    (hget : store.descriptors.get? fd = some descriptor)
    (hfile : store.file? descriptor.file = some file)
    (hstands : (store.chainOf descriptor.file).Stands descriptor.cursor pos) {bytes : Bytes}
    {position : Nat} (hedited : Store.Edited store store' descriptor.file bytes
      fun other place => if other = fd then position else place) :
    Represents num { (flat.setBytes (num descriptor.file) bytes).setPosition fd position with
      lastError := store'.lastError } store' := by
  have hmem : (fd, ⟨num descriptor.file, pos⟩)
      ∈ (flat.setBytes (num descriptor.file) bytes).descriptors :=
    (h.mem_descriptors _ _).mpr ⟨descriptor, pos, hget, hstands, rfl⟩
  rw [(h.toSound.setBytes _ bytes).setPosition_eq hmem]
  exact h.edited hsound hfile hedited

/-- A store with one descriptor moved is shown so. This is what a read and a rewinding do. -/
theorem moved (h : flat.Represents num store) (hsound : store.Sound)
    (hget : store.descriptors.get? fd = some descriptor)
    (hstands : (store.chainOf descriptor.file).Stands descriptor.cursor pos) {position : Nat}
    (hedited : Store.Edited store store' descriptor.file (store.chainOf descriptor.file).contents
      fun other place => if other = fd then position else place) :
    Represents num { flat.setPosition fd position with lastError := store'.lastError } store' := by
  obtain ⟨file, hfile⟩ := hsound.exists_file hget
  have hmoved := h.edited_setPosition hsound hget hfile hstands hedited
  rwa [h.setBytes_self hfile] at hmoved

/-- Writing is answered alike: in full, short, refused, and for a number that is not in use. -/
theorem write (h : flat.Represents num store) (hsound : store.Sound) (fd : Nat) (data : Bytes) :
    Follows (flat.write fd data) ((store.write fd data).map (·.map .count) id) := by
  rcases hsound.opened_cases fd with ⟨hnone, hopened⟩ | ⟨descriptor, file, hget, hfile, -⟩
  · simp only [FlatStore.write, h.opened_eq_none hnone, Store.write, hopened]
    exact h.refuse rfl _
  · obtain ⟨pos, hstands⟩ := hsound.exists_stands hget
    obtain ⟨count, hcount, hresult, hlast, hedited⟩ := hsound.write_spec hget hfile hstands data
    have hwritable : writable flat.config pos data.length = count := by
      rw [h.config_eq, hcount]
      rfl
    have hle : count ≤ data.length := hcount ▸ store.config.admitted_le pos data.length
    have hshows := h.edited_setPosition hsound hget hfile hstands hedited
    simp only [FlatStore.write, h.opened_eq_some hget hfile hstands, hwritable]
    generalize store.write fd data = outcome at hresult hlast hedited hshows ⊢
    obtain ⟨result, store'⟩ := outcome
    simp only at hresult hlast hedited hshows
    by_cases hrefused : count = 0 ∧ data ≠ []
    · rw [if_pos hrefused] at hresult ⊢
      rw [if_pos (by rw [hrefused.1]; exact List.length_pos_iff.mpr hrefused.2)] at hlast
      -- Nothing was stored, so the edit shows in nothing.
      have hmem : ∀ other place, (other, ⟨num descriptor.file, place⟩) ∈ flat.descriptors →
          (if other = fd then pos + 0 else place) = place := by
        intro other place hmem
        split
        · rename_i heq
          subst heq
          have hlookup := (lookup_eq_some_iff_mem h.descriptors_nodup).mpr hmem
          rw [h.lookup_descriptor hget hstands] at hlookup
          exact congrArg FlatDescriptor.position (Option.some.inj hlookup)
        · rfl
      simp only [hrefused.1, List.take_zero, Bytes.splice_nil] at hedited
      have hsame := h.edited hsound hfile hedited
      rw [h.setBytes_self hfile, move_self hmem, hlast] at hsame
      refine ⟨?_, num, hsame⟩
      rw [hresult, h.tooLarge_eq]
      rfl
    · rw [if_neg hrefused] at hresult ⊢
      refine ⟨by rw [hresult]; rfl, num, ?_⟩
      rw [Bytes.splice, List.length_take, Nat.min_eq_left hle, hlast] at hshows
      exact hshows

/-- Reading is answered alike, up to the end of the file and no further. -/
theorem read (h : flat.Represents num store) (hsound : store.Sound) (fd want : Nat) :
    Follows (flat.read fd want) ((store.read fd want).map (·.map .data) id) := by
  rcases hsound.opened_cases fd with ⟨hnone, hopened⟩ | ⟨descriptor, file, hget, hfile, -⟩
  · simp only [FlatStore.read, h.opened_eq_none hnone, Store.read, hopened]
    exact h.refuse rfl _
  · obtain ⟨pos, hstands⟩ := hsound.exists_stands hget
    obtain ⟨bytes, hbytes, hresult, hlast, hedited⟩ := hsound.read_spec hget hstands want
    have hshows := h.moved hsound hget hstands hedited
    rw [hlast] at hshows
    have hshown : (store.shown descriptor.file file).bytes
      = (store.chainOf descriptor.file).contents := rfl
    simp only [FlatStore.read, h.opened_eq_some hget hfile hstands, hshown, ← hbytes]
    exact ⟨by rw [Prod.map_fst, hresult]; rfl, num, hshows⟩

/-- A read of at most as many bytes as there are is the same read, as no more can be had. -/
theorem read_min (h : flat.Represents num store) (hsound : store.Sound)
    (hget : store.descriptors.get? fd = some descriptor)
    (hfile : store.file? descriptor.file = some file) (most : Nat) :
    flat.read fd (min file.size most) = flat.read fd most := by
  obtain ⟨pos, hstands⟩ := hsound.exists_stands hget
  have hshown : (store.shown descriptor.file file).bytes
    = (store.chainOf descriptor.file).contents := rfl
  -- No more than the size of the file is left past any position.
  have htake : ((store.chainOf descriptor.file).contents.drop pos).take (min file.size most)
      = ((store.chainOf descriptor.file).contents.drop pos).take most := by
    rw [List.take_eq_take_iff, List.length_drop, (hsound.spans hfile).size_eq]
    omega
  simp only [FlatStore.read, h.opened_eq_some hget hfile hstands, hshown, htake]

/-- Reading into a buffer of the store's choice is answered alike, where there can be the buffer. -/
theorem readUpTo (h : flat.Represents num store) (hsound : store.Sound) (fd most : Nat)
    (hmost : most ≤ Block.maxBuffer) :
    Follows (flat.read fd most) ((store.readUpTo fd most).map (·.map .data) id) := by
  rcases hsound.opened_cases fd with ⟨hnone, hopened⟩ | ⟨descriptor, file, hget, hfile, hopened⟩
  · simp only [FlatStore.read, h.opened_eq_none hnone, Store.readUpTo, hopened]
    exact h.refuse rfl _
  · have hwant : min file.size most ≤ Block.maxBuffer := Nat.le_trans (Nat.min_le_right _ _) hmost
    simp only [Store.readUpTo, hopened, if_pos hwant]
    rw [← h.read_min hsound hget hfile most]
    exact h.read hsound fd _

/-- Rewinding is answered alike: the descriptor stands at position 0 on both sides. -/
theorem rewind (h : flat.Represents num store) (hsound : store.Sound) (fd : Nat) :
    Follows (flat.rewind fd) ((store.rewind fd).map (·.map fun _ => .done) id) := by
  cases hget : store.descriptors.get? fd with
  | none =>
    simp only [FlatStore.rewind, h.opened_eq_none hget, Store.rewind, DescriptorTable.get, hget]
    exact h.refuse rfl _
  | some descriptor =>
    obtain ⟨pos, hstands⟩ := hsound.exists_stands hget
    obtain ⟨file, hfile⟩ := hsound.exists_file hget
    obtain ⟨hresult, hlast, hedited⟩ := hsound.rewind_spec hget
    have hshows := h.moved hsound hget hstands hedited
    rw [hlast] at hshows
    simp only [FlatStore.rewind, h.opened_eq_some hget hfile hstands]
    exact ⟨by rw [Prod.map_fst, hresult]; rfl, num, hshows⟩

/-- Resizing is answered alike, for more bytes and for fewer, and refused alike past the limit. -/
theorem resize (h : flat.Represents num store) (hsound : store.Sound) (fd size : Nat) :
    Follows (flat.resize fd size) ((store.resize fd size).map (·.map fun _ => .done) id) := by
  rcases hsound.opened_cases fd with ⟨hnone, hopened⟩ | ⟨descriptor, file, hget, hfile, -⟩
  · simp only [FlatStore.resize, h.opened_eq_none hnone, Store.resize, hopened]
    exact h.refuse rfl _
  · obtain ⟨pos, hstands⟩ := hsound.exists_stands hget
    simp only [FlatStore.resize, h.opened_eq_some hget hfile hstands]
    -- The reference asks how many bytes may be written from the start on, and the store whether the
    -- size is within the limit.
    have hrefused : writable flat.config 0 size < size ↔ ¬ store.config.Admits size := by
      rw [h.config_eq, writable, Config.Admits]
      cases store.config.sizeLimit with
      | none => simp
      | some limit =>
        simp only [Option.some.injEq, forall_eq', Nat.not_le, Nat.sub_zero]
        omega
    rcases hsound.resize_spec hget hfile size with ⟨hlarge, hresize⟩ |
      ⟨hadmits, hresult, hlast, hedited⟩
    · rw [if_pos (hrefused.mpr hlarge), hresize, h.tooLarge_eq]
      exact h.refuse rfl _
    · rw [if_neg fun hlt => hrefused.mp hlt hadmits]
      have hshows := h.edited hsound hfile hedited
      rw [hlast] at hshows
      exact ⟨by rw [Prod.map_fst, hresult]; rfl, num, hshows⟩

/-- Asking for the statistics of a named file is answered alike, with the counts that the
reference makes. -/
theorem stat (h : flat.Represents num store) (hsound : store.Sound) (name : String) :
    Follows (flat.stat name) ((store.stat name).map (·.map .stat) id) := by
  cases hname : store.catalog.lookup name with
  | none =>
    simp only [FlatStore.stat, h.find?_eq_none hsound hname, Store.stat, hname]
    exact h.refuse rfl _
  | some key =>
    obtain ⟨file, hfile, -⟩ := hsound.exists_file_of_lookup hname
    have hcatalog : store.catalog.get key = .ok file := by
      rw [Catalog.get, show store.catalog.files.get? key = some file from hfile]
    simp only [FlatStore.stat, h.find?_eq_some hsound hname hfile, h.statOf_eq hsound hfile,
      Store.stat, hname, hcatalog]
    exact h.succeed file.stat .stat

/-- What is asked of an open file is answered alike, if it is answered from what the reference
shows. The statistics and the digest both are. -/
theorem inspect (h : flat.Represents num store) (hsound : store.Sound) (fd : Nat) {α : Type}
    (answer : α → Answer) (ask : Descriptor × File → α)
    (ask' : FlatDescriptor → FlatFile → Answer)
    (hask : ∀ descriptor file pos, store.file? descriptor.file = some file →
      ask' ⟨num descriptor.file, pos⟩ (store.shown descriptor.file file)
        = answer (ask (descriptor, file))) :
    Follows (flat.inspect fd ask')
      ((store.conclude ((store.opened fd).map ask)).map (·.map answer) id) := by
  rcases hsound.opened_cases fd with ⟨hnone, hopened⟩ | ⟨descriptor, file, hget, hfile, hopened⟩
  · simp only [FlatStore.inspect, h.opened_eq_none hnone, hopened]
    exact h.refuse rfl answer
  · obtain ⟨pos, hstands⟩ := hsound.exists_stands hget
    simp only [FlatStore.inspect, h.opened_eq_some hget hfile hstands, hopened, Except.map,
      hask descriptor file pos hfile]
    exact h.succeed _ answer

/-- A call is answered alike, and the reference shows the store that it leaves. One case for each
call. -/
theorem perform (h : flat.Represents num store) (hsound : store.Sound) (call : Call)
    (hcall : call.Affordable) : Follows (flat.perform call) (store.perform call) := by
  cases call with
  | openFile name create => exact h.openFile hsound name create
  | write fd data => exact h.write hsound fd data
  | read fd want => exact h.read hsound fd want
  -- Only here it matters that the call is affordable: the buffer has to be within bounds.
  | readUpTo fd most => exact h.readUpTo hsound fd most hcall
  | close fd => exact h.close hsound fd
  | delete name => exact h.delete hsound name
  | resize fd size => exact h.resize hsound fd size
  | rewind fd => exact h.rewind hsound fd
  | stat name => exact h.stat hsound name
  | statOpen fd =>
    exact h.inspect hsound fd .stat (fun entry => entry.2.stat) _ fun descriptor file pos hfile =>
      congrArg Answer.stat (h.statOf_eq hsound hfile)
  | digest fd =>
    refine h.inspect hsound fd .digest _ _ ?_
    intro descriptor file pos hfile
    rw [(hsound.spans hfile).contents_eq]
    rfl
  | names => exact
    ⟨congrArg (fun names => Except.ok (Answer.names names)) (h.names_eq hsound), num, h⟩
  | destroy =>
    refine ⟨rfl, num, ?_⟩
    show (FlatStore.empty flat.config).Represents num (Store.empty store.config)
    rw [h.config_eq]
    exact represents_empty store.config num

end Represents

end FlatStore

end Filestore
