import Filestore.Directory
import Filestore.Proofs.Lookup

/-!
# `Filestore.Proofs.Directory`: the order of the names

A directory lists its names in ascending order (`Directory.Ascending`), and both of its changes
keep it that way. So no name is listed twice (`Ascending.nodup`), and the list of names needs no
sorting.

The look-ups are here once more, each as one equation for all names (`get?_insert`, `get?_erase`):
what a name denotes after a change is a case distinction on whether it is the name that was
changed. Invariants that speak of all names are rewritten with these. None of this needs the
order, since a look-up takes the first entry of a name, and neither does it matter to
`mem_names_iff`: the names listed are those that denote a file, whether or not one is listed
twice.

The order is that of strings, which compares code points. What it says about the bytes of the
names is in `Filestore.Proofs.Text.ByteOrder`.
-/

set_option autoImplicit false

namespace Filestore

namespace Directory

variable {directory : Directory} {name : String} {id : FileId}

/-- A name denotes the file that it was made to denote last, and every other name what it
denoted. -/
theorem get?_insert (directory : Directory) (name other : String) (id : FileId) :
    (directory.insert name id).get? other
      = if other = name then some id else directory.get? other := by
  split
  · rename_i heq
    rw [heq, get?_insert_self]
  · rename_i hne
    rw [get?_insert_of_ne hne]

/-- Only the erased name denotes nothing for that; every other one denotes what it denoted. -/
theorem get?_erase (directory : Directory) (name other : String) :
    (directory.erase name).get? other = if other = name then none else directory.get? other := by
  split
  · rename_i heq
    rw [heq, get?_erase_self]
  · rename_i hne
    rw [get?_erase_of_ne hne]

/-- The names are in ascending order. -/
def Ascending (directory : Directory) : Prop :=
  directory.entries.Pairwise fun entry later => entry.1 < later.1

/-- A directory without names lists them in order. -/
theorem ascending_empty : empty.Ascending := List.Pairwise.nil

/-- What comes in with an entry is that entry or was there before it. -/
theorem mem_insertEntry {entries : List (String × FileId)} {entry : String × FileId}
    (h : entry ∈ insertEntry name id entries) : entry = (name, id) ∨ entry ∈ entries := by
  induction entries with
  | nil => exact .inl (List.mem_singleton.mp h)
  | cons first rest ih =>
    rw [insertEntry] at h
    split at h
    · exact List.mem_cons.mp h
    split at h
    · exact (List.mem_cons.mp h).imp_right (List.mem_cons_of_mem _)
    · rcases List.mem_cons.mp h with rfl | h
      · exact .inr List.mem_cons_self
      · exact (ih h).imp_right (List.mem_cons_of_mem _)

/-- An insertion keeps the names ascending: the name is put in its place, or takes the place it
has. -/
theorem Ascending.insert (h : directory.Ascending) (name : String) (id : FileId) :
    (directory.insert name id).Ascending := by
  obtain ⟨entries⟩ := directory
  show (insertEntry name id entries).Pairwise fun entry later => entry.1 < later.1
  replace h : entries.Pairwise fun entry later => entry.1 < later.1 := h
  induction entries with
  | nil => exact List.pairwise_singleton _ _
  | cons first rest ih =>
    obtain ⟨hfirst, hrest⟩ := List.pairwise_cons.mp h
    rw [insertEntry]
    split
    · rename_i hlt
      refine List.pairwise_cons.mpr ⟨?_, h⟩
      intro entry hentry
      rcases List.mem_cons.mp hentry with rfl | hentry
      · exact hlt
      · exact String.lt_trans hlt (hfirst entry hentry)
    split
    · rename_i heq
      exact List.pairwise_cons.mpr ⟨fun entry hentry => heq ▸ hfirst entry hentry, hrest⟩
    · rename_i hnlt hne
      refine List.pairwise_cons.mpr ⟨?_, ih hrest⟩
      intro entry hentry
      rcases mem_insertEntry hentry with rfl | hentry
      · -- Neither name is before the other in the last case, so they would be the same.
        by_cases hle : first.1 < name
        · exact hle
        · exact absurd (String.le_antisymm (String.not_lt.mp hle) (String.not_lt.mp hnlt)) hne
      · exact hfirst entry hentry

/-- An erasure keeps the names ascending, since the ones that stay are in the order they were in. -/
theorem Ascending.erase (h : directory.Ascending) (name : String) :
    (directory.erase name).Ascending :=
  List.Pairwise.filter _ h

/-- No name is listed twice, as each is less than all those after it. -/
theorem Ascending.nodup (h : directory.Ascending) : directory.names.Nodup := by
  refine List.Pairwise.map _ ?_ h
  intro entry later hlt heq
  exact String.lt_irrefl _ (heq ▸ hlt)

/-- The names listed are those that denote a file, in any directory. -/
theorem mem_names_iff : name ∈ directory.names ↔ ∃ id, directory.get? name = some id := by
  rw [← Option.isSome_iff_exists, ← Option.ne_none_iff_isSome, get?, Ne,
    lookup_eq_none_iff_not_mem, Decidable.not_not]
  rfl

end Directory

end Filestore
